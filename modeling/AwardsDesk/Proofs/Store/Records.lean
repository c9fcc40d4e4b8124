import AwardsDesk.Keyed
import AwardsDesk.Store.Basic
import Mathlib.Data.List.Nodup

/-!
# Records of a store

What is in a store and what a request does to it.  The awardees of an event are known by
their numbers, and its divisions by two numbers each; a request changes at most the record
of one awardee, who keeps number, division and place.

Main definitions:

- Structure {lit}`Store.Event.Distinct` and definition {lit}`Store.Distinct`: no number is
  given twice.
- Function {lit}`Store.Event.amend`: what a request makes of a record.

Main results:

- Theorem {lit}`Store.Event.mem_awards_iff`: the awards of an event are those of its active
  awardees.
- Theorem {lit}`Store.mem_divisionRows`: the rows of divisions hold nothing else.
- Theorem {lit}`Store.Event.answer_awardee?`: what is on record after a request.
- Theorem {lit}`Store.finish_cases`: what a request does to a store.
- Theorem {lit}`Store.Distinct.finish`: requests give no number twice.
-/

namespace AwardsDesk
namespace Store

open Board (Request Error)

/-! ## Rows of divisions -/

/-- The rows of divisions hold nothing but the divisions. -/
theorem mem_divisionRows {ds : List Division} {row : List (Option Division)} {d : Division}
    (hrow : row ∈ divisionRows ds) (hd : some d ∈ row) : d ∈ ds := by
  rcases List.mem_map.1 hrow with ⟨n, -, rfl⟩
  rcases List.mem_map.1 hd with ⟨column, hcolumn, hget⟩
  rcases List.mem_map.1 hcolumn with ⟨gender, -, rfl⟩
  have hmem : d ∈ Store.column ds gender := List.mem_of_getElem? hget
  exact List.mem_of_mem_filter hmem

namespace Event

variable {e : Event} {a : Awardee} {d d' : Division} {id : UInt64}

/-! ## Numbers -/

/-- No two awardees of an event have the same number, and no two divisions have the same
number of either kind. -/
structure Distinct (e : Event) : Prop where
  awardees : (e.awardees.map Awardee.awardeeId).Nodup
  divisions : (e.divisions.map Division.divId).Nodup
  results : (e.divisions.map Division.rsuDivId).Nodup

/-- An awardee who is on record has the number that was looked for. -/
theorem awardeeId_of_awardee? (h : e.awardee? id = some a) : a.awardeeId = id := by
  simpa using List.find?_some h

/-- An awardee is found by number if no number is given twice. -/
theorem awardee?_eq_of_nodup (h : (e.awardees.map Awardee.awardeeId).Nodup)
    (ha : a ∈ e.awardees) : e.awardee? a.awardeeId = some a :=
  find?_key_eq_some h ha

namespace Distinct

/-- An awardee is found by number. -/
theorem awardee?_eq (h : e.Distinct) (ha : a ∈ e.awardees) :
    e.awardee? a.awardeeId = some a :=
  awardee?_eq_of_nodup h.awardees ha

/-- A division is known by its number. -/
theorem eq_of_divId (h : e.Distinct) (hd : d ∈ e.divisions) (hd' : d' ∈ e.divisions)
    (heq : d.divId = d'.divId) : d = d' :=
  List.inj_on_of_nodup_map h.divisions hd hd' heq

/-- A division is known by its number in the results service. -/
theorem eq_of_rsuDivId (h : e.Distinct) (hd : d ∈ e.divisions) (hd' : d' ∈ e.divisions)
    (heq : d.rsuDivId = d'.rsuDivId) : d = d' :=
  List.inj_on_of_nodup_map h.results hd hd' heq

end Distinct

/-! ## Awards -/

/-- Ordering the divisions by priority loses none and adds none. -/
theorem mem_byPriority : d ∈ e.byPriority ↔ d ∈ e.divisions :=
  List.mem_mergeSort

/-- The holders of awards in a division are its active awardees. -/
theorem mem_holders : a ∈ e.holders d ↔ a ∈ e.awardees ∧ a.active ∧ a.divId = d.divId := by
  simp [holders, List.mem_mergeSort]

/-- The awards of an event are those of its active awardees in its divisions. -/
theorem mem_awards_iff {x : Award} :
    x ∈ e.awards ↔ ∃ d ∈ e.divisions, ∃ a ∈ e.awardees,
      a.active ∧ a.divId = d.divId ∧ x = e.award d a := by
  simp only [awards, List.mem_flatMap, List.mem_map, mem_byPriority, mem_holders]
  constructor
  · rintro ⟨d, hd, a, ⟨ha, hactive, hdiv⟩, rfl⟩
    exact ⟨d, hd, a, ha, hactive, hdiv, rfl⟩
  · rintro ⟨d, hd, a, ha, hactive, hdiv, rfl⟩
    exact ⟨d, hd, a, ⟨ha, hactive, hdiv⟩, rfl⟩

/-! ## Changes of one record -/

/-- What a request makes of a record when it is answered. -/
def amend (r : Request) (a : Awardee) : Awardee :=
  match r with
  | .setPickedUp _ id was => if a.awardeeId = id then { a with pickedUp := !was } else a
  | .saveNotes _ id text => if a.awardeeId = id then { a with notes := some text } else a
  | _ => a

/-- An awardee keeps the number. -/
@[simp]
theorem amend_awardeeId (r : Request) (a : Awardee) : (amend r a).awardeeId = a.awardeeId := by
  cases r <;> simp only [amend] <;> split <;> rfl

/-- A request makes nobody active who was not, and nobody inactive. -/
@[simp]
theorem amend_active (r : Request) (a : Awardee) : (amend r a).active = a.active := by
  cases r <;> simp only [amend] <;> split <;> rfl

/-- A request links nobody. -/
@[simp]
theorem amend_prevAwardee (r : Request) (a : Awardee) :
    (amend r a).prevAwardee = a.prevAwardee := by
  cases r <;> simp only [amend] <;> split <;> rfl

/-- An awardee keeps the division. -/
@[simp]
theorem amend_divId (r : Request) (a : Awardee) : (amend r a).divId = a.divId := by
  cases r <;> simp only [amend] <;> split <;> rfl

/-- An awardee keeps the place. -/
@[simp]
theorem amend_place (r : Request) (a : Awardee) : (amend r a).place = a.place := by
  cases r <;> simp only [amend] <;> split <;> rfl

/-- A change of an awardee's record is found at the number and nowhere else. -/
theorem find?_updateAwardee {f : Awardee → Awardee} (hf : ∀ a, (f a).awardeeId = a.awardeeId)
    (id other : UInt64) (l : List Awardee) :
    (updateAwardee id f l).find? (·.awardeeId == other) =
      (l.find? (·.awardeeId == other)).map fun a => if a.awardeeId = id then f a else a := by
  induction l with
  | nil => rfl
  | cons a l ih =>
      by_cases hid : a.awardeeId = id
      · by_cases hother : a.awardeeId = other
        · simp [updateAwardee, hid, hf, ← hother]
        · have hrest : ∀ b, l.find? (·.awardeeId == other) = some b → b.awardeeId ≠ id := by
            intro b hb heq
            have hkey : b.awardeeId = other := by simpa using List.find?_some hb
            exact hother (hid.trans (heq.symm.trans hkey))
          rw [updateAwardee, if_pos hid, List.find?_cons_of_neg (by simpa [hf] using hother),
            List.find?_cons_of_neg (by simpa using hother)]
          cases hfind : l.find? (·.awardeeId == other) with
          | none => rfl
          | some b => simp [hrest b hfind]
      · by_cases hother : a.awardeeId = other
        · rw [updateAwardee, if_neg hid, List.find?_cons_of_pos (by simpa using hother),
            List.find?_cons_of_pos (by simpa using hother)]
          simp [hid]
        · rw [updateAwardee, if_neg hid, List.find?_cons_of_neg (by simpa using hother),
            List.find?_cons_of_neg (by simpa using hother), ih]

/-- A record after a change is one from before, or what the change makes of one. -/
theorem exists_of_mem_updateAwardee {f : Awardee → Awardee} {l : List Awardee}
    (h : a ∈ updateAwardee id f l) : ∃ b ∈ l, a = b ∨ a = f b := by
  induction l with
  | nil => simp [updateAwardee] at h
  | cons b l ih =>
      rw [updateAwardee] at h
      split at h
      · rcases List.mem_cons.1 h with rfl | hmem
        · exact ⟨b, List.mem_cons_self, Or.inr rfl⟩
        · exact ⟨a, List.mem_cons_of_mem b hmem, Or.inl rfl⟩
      · rcases List.mem_cons.1 h with rfl | hmem
        · exact ⟨a, List.mem_cons_self, Or.inl rfl⟩
        · rcases ih hmem with ⟨c, hc, hac⟩
          exact ⟨c, List.mem_cons_of_mem b hc, hac⟩

/-- A change of an awardee's record leaves the numbers. -/
theorem map_updateAwardee {f : Awardee → Awardee} (hf : ∀ a, (f a).awardeeId = a.awardeeId)
    (id : UInt64) (l : List Awardee) :
    (updateAwardee id f l).map Awardee.awardeeId = l.map Awardee.awardeeId := by
  induction l with
  | nil => rfl
  | cons a l ih =>
      by_cases hid : a.awardeeId = id
      · simp [updateAwardee, hid, hf]
      · simp [updateAwardee, hid, ih]

/-- A request leaves the divisions. -/
theorem answer_divisions (e : Event) (r : Request) : (e.answer r).1.divisions = e.divisions := by
  cases r with
  | fetchAwards event needDivisions => rfl
  | setPickedUp event id was => simp only [answer]; split <;> rfl
  | fetchNotes event id => simp only [answer]; split <;> rfl
  | saveNotes event id text => simp only [answer]; split <;> rfl

/-- A request leaves the numbers of the awardees. -/
theorem answer_awardeeIds (e : Event) (r : Request) :
    (e.answer r).1.awardees.map Awardee.awardeeId = e.awardees.map Awardee.awardeeId := by
  cases r with
  | fetchAwards event needDivisions => rfl
  | setPickedUp event id was =>
      simp only [answer]
      split
      · rfl
      · exact map_updateAwardee (f := fun a => { a with pickedUp := !was }) (fun _ => rfl) id _
  | fetchNotes event id => simp only [answer]; split <;> rfl
  | saveNotes event id text =>
      simp only [answer]
      split
      · rfl
      · exact map_updateAwardee (f := fun a => { a with notes := some text }) (fun _ => rfl) id _

/-- A request makes of every record what it makes of it when it is answered. -/
theorem answer_awardee? (e : Event) (r : Request) (id : UInt64) :
    (e.answer r).1.awardee? id = (e.awardee? id).map (amend r) := by
  have hsame : ∀ n, e.awardee? n = none → ∀ f : Awardee → Awardee,
      e.awardee? id = (e.awardee? id).map fun a => if a.awardeeId = n then f a else a := by
    intro n hnone f
    cases hfind : e.awardee? id with
    | none => rfl
    | some a =>
        have hkey := awardeeId_of_awardee? hfind
        have hne : a.awardeeId ≠ n := by
          rintro rfl
          simp [hkey, hfind] at hnone
        simp [hne]
  cases r with
  | fetchAwards event needDivisions => exact Option.map_id'.symm
  | setPickedUp event n was =>
      simp only [answer]
      split
      · exact hsame n ‹_› _
      · exact find?_updateAwardee (f := fun a => { a with pickedUp := !was }) (fun _ => rfl) n id _
  | fetchNotes event n =>
      simp only [answer]
      split <;> exact Option.map_id'.symm
  | saveNotes event n text =>
      simp only [answer]
      split
      · exact hsame n ‹_› _
      · exact find?_updateAwardee (f := fun a => { a with notes := some text }) (fun _ => rfl) n id _

/-- A record is what a request has made of an earlier one. -/
theorem exists_of_mem_answer (h : (e.awardees.map Awardee.awardeeId).Nodup) {r : Request}
    (ha : a ∈ (e.answer r).1.awardees) : ∃ b ∈ e.awardees, a = amend r b := by
  have hnodup : ((e.answer r).1.awardees.map Awardee.awardeeId).Nodup := by
    rw [answer_awardeeIds]
    exact h
  have hfind := awardee?_eq_of_nodup hnodup ha
  rw [answer_awardee?] at hfind
  rcases Option.map_eq_some_iff.1 hfind with ⟨b, hb, rfl⟩
  exact ⟨b, List.mem_of_find?_eq_some hb, rfl⟩

/-- A request gives no number twice. -/
theorem Distinct.answer (h : e.Distinct) (r : Request) : (e.answer r).1.Distinct where
  awardees := by
    rw [answer_awardeeIds]
    exact h.awardees
  divisions := by
    rw [answer_divisions]
    exact h.divisions
  results := by
    rw [answer_divisions]
    exact h.results

end Event

/-! ## Requests -/

variable {s : Store} {r : Request}

/-- No event of the store has a number that is given twice. -/
def Distinct (s : Store) : Prop :=
  ∀ id e, s.event? id = some e → e.Distinct

/-- A change of an event is found at its number and nowhere else. -/
theorem lookup_updateEvent (id other : UInt64) (f : Event → Event)
    (events : List (UInt64 × Event)) :
    (updateEvent id f events).lookup other =
      if other = id then (events.lookup other).map f else events.lookup other := by
  induction events with
  | nil => simp [updateEvent]
  | cons p rest ih =>
      rcases p with ⟨k, e⟩
      by_cases hk : k = id
      · subst hk
        by_cases hother : other = k
        · simp [updateEvent, hother]
        · simp only [updateEvent, if_true, List.lookup_cons, beq_false_of_ne hother,
            if_neg hother]
      · by_cases hother : other = k
        · have hne : other ≠ id := fun heq => hk (hother.symm.trans heq)
          simp [updateEvent, hk, hother]
        · simp only [updateEvent, if_neg hk, List.lookup_cons, beq_false_of_ne hother, ih]

/-- A request fails and leaves all events, or the event that it is about answers it. -/
theorem finish_cases (s : Store) (r : Request) :
    ((∃ e, (s.finish r).2 = .error e) ∧ ∀ id, (s.finish r).1.event? id = s.event? id) ∨
      ∃ e, s.event? (requestEvent r) = some e ∧ (s.finish r).2 = (e.answer r).2 ∧
        ∀ id, (s.finish r).1.event? id =
          if id = requestEvent r then some (e.answer r).1 else s.event? id := by
  cases hfail : s.failNext with
  | some reason =>
      refine Or.inl ⟨⟨.backend reason, ?_⟩, fun id => ?_⟩
      · simp [finish, hfail]
      · simp [finish, hfail, event?]
  | none =>
      cases hevent : s.events.lookup (requestEvent r) with
      | none =>
          refine Or.inl ⟨⟨.backend "event not found", ?_⟩, fun id => ?_⟩
          · simp [finish, hfail, event?, hevent]
          · simp [finish, hfail, event?, hevent]
      | some e =>
          refine Or.inr ⟨e, hevent, ?_, fun id => ?_⟩
          · simp [finish, hfail, event?, hevent]
          · simp only [finish, hfail, event?, hevent, lookup_updateEvent]
            by_cases hid : id = requestEvent r
            · simp [hid, hevent]
            · simp [hid]

/-- A request for the awards of an event leaves the event, and brings what is on record if it
does not fail. -/
theorem finish_fetchAwards {event : UInt64} {e : Event} (h : s.event? event = some e)
    (needDivisions : Bool) :
    (s.finish (.fetchAwards event needDivisions)).1.event? event = some e ∧
      ∀ data, (s.finish (.fetchAwards event needDivisions)).2 = .ok data →
        data = e.snapshot needDivisions := by
  rcases finish_cases s (.fetchAwards event needDivisions) with
    ⟨⟨err, herror⟩, hsame⟩ | ⟨e', hevent, hanswer, hchange⟩
  · refine ⟨(hsame event).trans h, fun data hdata => ?_⟩
    rw [herror] at hdata
    contradiction
  · obtain rfl : e = e' := Option.some.inj (h.symm.trans hevent)
    refine ⟨(hchange event).trans (if_pos rfl), fun data hdata => ?_⟩
    rw [hanswer] at hdata
    exact (Except.ok.inj hdata).symm

/-- Requests give no number twice. -/
theorem Distinct.finish (h : s.Distinct) (r : Request) : (s.finish r).1.Distinct := by
  intro id e he
  rcases finish_cases s r with ⟨-, hsame⟩ | ⟨e', hevent, -, hchange⟩
  · exact h id e (hsame id ▸ he)
  · rw [hchange id] at he
    split at he
    · obtain rfl := Option.some.inj he
      exact (h _ e' hevent).answer r
    · exact h id e he

end Store
end AwardsDesk
