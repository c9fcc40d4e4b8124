import AwardsDesk.Proofs.Board.Refresh
import AwardsDesk.Proofs.Store.Records

/-!
# Pick-ups and the awards that are listed

When an award is handed out or taken back, the answer tells whether the awardee has it now, and
whether somebody whom the awardee replaced has it.  The awards that are listed tell the same,
but look up the former awardee instead of going by the link alone.  The two agree until an
award is taken back from somebody who was replaced.

Main definitions:

- Inductive type {lit}`Store.Deed` and function {lit}`Store.Event.history`: awardees are replaced
  and requests are answered, one after another.
- Structure {lit}`Store.Event.Linked`: what the links of awardees lead to.
- Definition {lit}`Store.Event.GivenBack`: the former awardee does not have the award any more.
- Structure {lit}`Store.Event.Toggled`: what is told and what is listed.

Main results:

- Theorem {lit}`Store.Event.Linked.history`: links lead to awardees who were replaced, and who
  have the award unless it was taken back from them.
- Theorem {lit}`Store.Event.pickup_matches_listing`: what is told is what is listed, except for a
  former awardee from whom the award was taken back.
-/

namespace AwardsDesk

/-! ## What a cell shows -/

namespace Board

/-- A cell in which the state of an award is shown. -/
def Cell.telling (c : Cell) (s : PickupStatus) : Cell :=
  { c with pickedUp := s.pickedUp, prevPickedUp := s.prevPickedUp }

/-- What a cell shows when the state of an award is shown in it. -/
theorem View.cell?_showStatus (v : View) (key : CellKey) (s : PickupStatus) :
    (v.showStatus key s).cell? key = (v.cell? key).map (·.telling s) :=
  (Cells.find?_modify v.cells key key _).trans (if_pos rfl)

/-- A toggle asks for the holder of the award, and shows what it is told. -/
theorem View.perform_toggle {v : View} {key : CellKey} {c : Cell} {event awardee : UInt64}
    {respond : Responder} {status : PickupStatus} (hevent : v.eventId = some event)
    (hcell : v.cell? key = some c) (hholder : c.awardeeId = some awardee)
    (htold : respond (.setPickedUp event awardee c.pickedUp) = .ok status) :
    (Action.toggle key).perform respond v =
      (v.showStatus key status, .ok (.status (some status))) := by
  have hbegin : (Action.toggle key).begin v = .asking (.status event awardee c.pickedUp key) := by
    rcases c with ⟨⟩
    simp_all [Action.begin]
  rw [Action.perform, hbegin]
  dsimp only [Await.request]
  rw [htold]
  rfl

end Board

namespace Store

open Board (Request Error Action View Cell Responder)

/-! ## Histories -/

/-- What happens to an event. -/
inductive Deed where
  /-- A new awardee comes in the place of the active one. -/
  | replace (new : Awardee)
  /-- A request is answered. -/
  | request (r : Request)
deriving DecidableEq, Repr

/-- The awardee from whom an award is taken back. -/
def Deed.takenBack : Deed → List UInt64
  | .request (.setPickedUp _ id true) => [id]
  | _ => []

namespace Event

variable {e : Event} {a : Awardee} {d : Division} {id : UInt64} {back : List UInt64}

/-- What a deed makes of an event. -/
def after (e : Event) : Deed → Event
  | .replace new => e.replaceAwardee new
  | .request r => (e.answer r).1

/-- What deeds make of an event, one after another. -/
def history (e : Event) (ds : List Deed) : Event :=
  ds.foldl after e

/-- A new awardee has a number of its own and no link. -/
def Admits (e : Event) : Deed → Prop
  | .replace new => new.awardeeId ∉ e.awardees.map Awardee.awardeeId ∧ new.prevAwardee = none
  | .request _ => True

/-- All new awardees have numbers of their own and no link. -/
def AdmitsAll (e : Event) : List Deed → Prop
  | [] => True
  | d :: ds => e.Admits d ∧ (e.after d).AdmitsAll ds

/-- No number is given twice, and no awardee has replaced another. -/
structure Unlinked (e : Event) : Prop where
  awardees : (e.awardees.map Awardee.awardeeId).Nodup
  divisions : (e.divisions.map Division.divId).Nodup
  links : ∀ a ∈ e.awardees, a.prevAwardee = none

/-- The awardee of a number was replaced, and has the award unless it was taken back. -/
def Former (e : Event) (back : List UInt64) (id : UInt64) : Prop :=
  ∃ p, e.awardee? id = some p ∧ p.active = false ∧ (p.pickedUp = true ∨ id ∈ back)

/-- No number is given twice, and all links lead to former awardees. -/
structure Linked (e : Event) (back : List UInt64) : Prop where
  awardees : (e.awardees.map Awardee.awardeeId).Nodup
  divisions : (e.divisions.map Division.divId).Nodup
  links : ∀ a ∈ e.awardees, ∀ prev, a.prevAwardee = some prev → e.Former back prev

/-- An event without links has no link that leads nowhere. -/
theorem Unlinked.linked (h : e.Unlinked) : e.Linked [] where
  awardees := h.awardees
  divisions := h.divisions
  links := fun a ha prev hprev => by
    rw [h.links a ha] at hprev
    cases hprev

/-! ### What becomes of a record -/

/-- An awardee who has the award keeps it unless it is taken back. -/
theorem amend_pickedUp (r : Request) (h : a.pickedUp = true) :
    (amend r a).pickedUp = true ∨ a.awardeeId ∈ (Deed.request r).takenBack := by
  cases r with
  | setPickedUp event id was =>
      by_cases hid : a.awardeeId = id
      · cases was <;> simp [amend, Deed.takenBack, hid]
      · simp [amend, hid, h]
  | fetchAwards event needDivisions => exact Or.inl h
  | fetchNotes event id => exact Or.inl h
  | saveNotes event id text =>
      refine Or.inl ?_
      simp only [amend]
      split <;> exact h

/-- The awardee of a number is made inactive. -/
def displace (e : Event) (id : UInt64) : Event :=
  { e with awardees := updateAwardee id (fun a => { a with active := false }) e.awardees }

/-- What is on record when an awardee was made inactive. -/
theorem displace_awardee? (e : Event) (other id : UInt64) :
    (e.displace other).awardee? id =
      (e.awardee? id).map fun a => if a.awardeeId = other then { a with active := false } else a :=
  find?_updateAwardee (f := fun a => { a with active := false }) (fun _ => rfl) other id e.awardees

/-- The numbers of the awardees when one was made inactive. -/
theorem displace_awardeeIds (e : Event) (id : UInt64) :
    (e.displace id).awardees.map Awardee.awardeeId = e.awardees.map Awardee.awardeeId :=
  map_updateAwardee (f := fun a => { a with active := false }) (fun _ => rfl) id e.awardees

/-- Nobody else is made inactive than the first awardee who is ousted. -/
theorem retire_eq {new old : Awardee} (h : (e.awardees.map Awardee.awardeeId).Nodup)
    (hold : e.awardees.find? (ousts new) = some old) :
    retire new e.awardees = (e.displace old.awardeeId).awardees := by
  rcases e with ⟨divisions, l⟩
  dsimp only [displace] at *
  induction l with
  | nil => simp at hold
  | cons b l ih =>
      rw [List.map_cons, List.nodup_cons] at h
      by_cases hb : ousts new b = true
      · rw [List.find?_cons_of_pos hb] at hold
        obtain rfl := Option.some.inj hold
        simp [retire, updateAwardee, hb]
      · rw [List.find?_cons_of_neg hb] at hold
        have hne : b.awardeeId ≠ old.awardeeId := fun heq =>
          h.1 (heq ▸ List.mem_map_of_mem (List.mem_of_find?_eq_some hold))
        simp [retire, updateAwardee, hb, hne, ih h.2 hold]

/-- Nobody is made inactive if nobody is ousted. -/
theorem retire_eq_self {new : Awardee} {l : List Awardee} (hnone : l.find? (ousts new) = none) :
    retire new l = l := by
  induction l with
  | nil => rfl
  | cons b l ih =>
      have hb := List.find?_eq_none.1 hnone b List.mem_cons_self
      rw [List.find?_cons_of_neg hb] at hnone
      rw [retire, if_neg hb, ih hnone]

/-- A new awardee is added; it may be that another one is made inactive, to whom the new one is
linked if the award was picked up. -/
theorem replaceAwardee_cases (h : (e.awardees.map Awardee.awardeeId).Nodup) (new : Awardee) :
    e.replaceAwardee new = e.addAwardee new ∨
      ∃ old ∈ e.awardees, e.replaceAwardee new =
        (e.displace old.awardeeId).addAwardee
          { new with
            prevAwardee := if old.pickedUp then some old.awardeeId else new.prevAwardee } := by
  cases hold : e.awardees.find? (ousts new) with
  | none =>
      refine Or.inl ?_
      simp only [replaceAwardee, hold, addAwardee, retire_eq_self hold]
  | some old =>
      refine Or.inr ⟨old, List.mem_of_find?_eq_some hold, ?_⟩
      -- Who is ousted does not depend on the link.
      have hretire : ∀ prev, retire { new with prevAwardee := prev } e.awardees =
          (e.displace old.awardeeId).awardees :=
        fun prev => retire_eq h hold
      simp only [replaceAwardee, hold, addAwardee]
      split
      · rw [hretire]
        rfl
      · rw [hretire new.prevAwardee]
        rfl

/-! ### What links lead to -/

/-- A former awardee stays one when a request is answered. -/
theorem Former.answer (h : e.Former back id) (r : Request) :
    (e.answer r).1.Former (back ++ (Deed.request r).takenBack) id := by
  rcases h with ⟨p, hp, hinactive, hpicked⟩
  have hid := awardeeId_of_awardee? hp
  refine ⟨amend r p, by rw [answer_awardee?, hp, Option.map_some], by simpa, ?_⟩
  rw [List.mem_append]
  rcases hpicked with hpicked | hback
  · exact (amend_pickedUp r hpicked).imp_right fun hmem => Or.inr (hid ▸ hmem)
  · exact Or.inr (Or.inl hback)

/-- A former awardee stays one when another awardee is made inactive. -/
theorem Former.displace (h : e.Former back id) (other : UInt64) :
    (e.displace other).Former back id := by
  rcases h with ⟨p, hp, hinactive, hpicked⟩
  have hsame : (if p.awardeeId = other then { p with active := false } else p) = p := by
    rcases p with ⟨⟩
    simp_all
  exact ⟨p, by rw [displace_awardee?, hp, Option.map_some, hsame], hinactive, hpicked⟩

/-- A former awardee stays one when an awardee is added. -/
theorem Former.addAwardee (h : e.Former back id) (new : Awardee) :
    (e.addAwardee new).Former back id := by
  rcases h with ⟨p, hp, hformer⟩
  refine ⟨p, ?_, hformer⟩
  rw [awardee?] at hp
  simp [awardee?, Event.addAwardee, List.find?_append, hp]

namespace Linked

/-- An awardee is found by number. -/
theorem awardee?_eq (h : e.Linked back) (ha : a ∈ e.awardees) :
    e.awardee? a.awardeeId = some a :=
  awardee?_eq_of_nodup h.awardees ha

/-- Links lead to former awardees after a request. -/
theorem answer (h : e.Linked back) (r : Request) :
    (e.answer r).1.Linked (back ++ (Deed.request r).takenBack) where
  awardees := by
    rw [answer_awardeeIds]
    exact h.awardees
  divisions := by
    rw [answer_divisions]
    exact h.divisions
  links := by
    intro a ha prev hprev
    rcases exists_of_mem_answer h.awardees ha with ⟨b, hb, rfl⟩
    rw [amend_prevAwardee] at hprev
    exact (h.links b hb prev hprev).answer r

/-- Links lead to former awardees after one awardee was made inactive. -/
theorem displace (h : e.Linked back) (id : UInt64) : (e.displace id).Linked back where
  awardees := by
    rw [displace_awardeeIds]
    exact h.awardees
  divisions := h.divisions
  links := by
    intro a ha prev hprev
    rcases exists_of_mem_updateAwardee ha with ⟨b, hb, rfl | rfl⟩
    · exact (h.links a hb prev hprev).displace id
    · exact (h.links b hb prev hprev).displace id

/-- Links lead to former awardees after one was added whose link does. -/
theorem addAwardee (h : e.Linked back) {new : Awardee}
    (hnew : new.awardeeId ∉ e.awardees.map Awardee.awardeeId)
    (hlink : ∀ prev, new.prevAwardee = some prev → e.Former back prev) :
    (e.addAwardee new).Linked back where
  awardees := by
    rw [Event.addAwardee, List.map_append, List.nodup_append]
    exact ⟨h.awardees, List.nodup_singleton _, by simpa using hnew⟩
  divisions := h.divisions
  links := by
    intro a ha prev hprev
    refine Former.addAwardee ?_ new
    rcases List.mem_append.1 ha with hmem | hmem
    · exact h.links a hmem prev hprev
    · rw [List.mem_singleton.1 hmem] at hprev
      exact hlink prev hprev

/-- Links lead to former awardees after an awardee was replaced. -/
theorem replaceAwardee (h : e.Linked back) {new : Awardee}
    (hnew : new.awardeeId ∉ e.awardees.map Awardee.awardeeId) (hlink : new.prevAwardee = none) :
    (e.replaceAwardee new).Linked back := by
  rcases replaceAwardee_cases h.awardees new with heq | ⟨old, hold, heq⟩
  · rw [heq]
    exact h.addAwardee hnew fun prev hprev => by rw [hlink] at hprev; cases hprev
  · rw [heq]
    refine (h.displace old.awardeeId).addAwardee ?_ fun prev hprev => ?_
    · rwa [displace_awardeeIds]
    · dsimp only at hprev
      split at hprev
      · rename_i hpicked
        obtain rfl := Option.some.inj hprev
        have hfind := displace_awardee? e old.awardeeId old.awardeeId
        rw [h.awardee?_eq hold, Option.map_some, if_pos rfl] at hfind
        exact ⟨_, hfind, rfl, Or.inl hpicked⟩
      · rw [hlink] at hprev
        cases hprev

/-- Links lead to former awardees after a deed. -/
theorem after (h : e.Linked back) {x : Deed} (hadmits : e.Admits x) :
    (e.after x).Linked (back ++ x.takenBack) := by
  cases x with
  | replace new =>
      rw [show (Deed.replace new).takenBack = [] from rfl, List.append_nil]
      exact h.replaceAwardee hadmits.1 hadmits.2
  | request r => exact h.answer r

/-- Links lead to former awardees, who have the award unless it was taken back from them. -/
theorem history (h : e.Linked back) {xs : List Deed} (hadmits : e.AdmitsAll xs) :
    (e.history xs).Linked (back ++ xs.flatMap Deed.takenBack) := by
  induction xs generalizing e back with
  | nil => simpa [Event.history] using h
  | cons x xs ih =>
      have hrest := ih (h.after hadmits.1) hadmits.2
      rw [List.append_assoc] at hrest
      exact hrest

end Linked

/-! ## What is told and what is listed -/

/-- The award was taken back from the former awardee. -/
def GivenBack (e : Event) (a : Awardee) : Prop :=
  ∃ p ∈ e.awardees, a.prevAwardee = some p.awardeeId ∧ p.pickedUp = false

/-- What is told when the award of an awardee changes hands, and the only award of the awardee
that is listed right afterwards. -/
structure Toggled (e : Event) (n : UInt64) (a : Awardee) (was : Bool) (status : PickupStatus)
    (x : Award) : Prop where
  told : (e.answer (.setPickedUp n a.awardeeId was)).2 = .ok status
  holder : x.awardeeId = a.awardeeId
  listed : ∀ m needDivisions, ∃ data,
    ((e.answer (.setPickedUp n a.awardeeId was)).1.answer (.fetchAwards m needDivisions)).2 =
        .ok data ∧
      x ∈ data.awards ∧ ∀ y ∈ data.awards, y.awardeeId = a.awardeeId → y = x

/-- The record of an awardee after the award has changed hands. -/
theorem Linked.toggled (h : e.Linked back) (ha : a ∈ e.awardees) (hactive : a.active = true)
    (hd : d ∈ e.divisions) (hdiv : a.divId = d.divId) (n : UInt64) (was : Bool) :
    e.Toggled n a was { pickedUp := !was, prevPickedUp := was && a.prevAwardee.isSome }
      ((e.answer (.setPickedUp n a.awardeeId was)).1.award d { a with pickedUp := !was }) where
  told := by simp [Event.answer, h.awardee?_eq ha]
  holder := rfl
  listed := by
    intro m needDivisions
    have hnow : amend (.setPickedUp n a.awardeeId was) a = { a with pickedUp := !was } := by
      simp [amend]
    refine ⟨_, rfl, ?_, ?_⟩
    · refine mem_awards_iff.2 ⟨d, by rwa [answer_divisions], { a with pickedUp := !was }, ?_,
        hactive, hdiv, rfl⟩
      have hfind := answer_awardee? e (.setPickedUp n a.awardeeId was) a.awardeeId
      rw [h.awardee?_eq ha, Option.map_some, hnow] at hfind
      exact List.mem_of_find?_eq_some hfind
    · intro y hy hholder
      rcases mem_awards_iff.1 hy with ⟨d', hd', b', hb', -, hdiv', rfl⟩
      rcases exists_of_mem_answer h.awardees hb' with ⟨b, hb, rfl⟩
      have hid : b.awardeeId = a.awardeeId := by simpa [award] using hholder
      obtain rfl := List.inj_on_of_nodup_map h.awardees hb ha hid
      rw [answer_divisions] at hd'
      rw [amend_divId] at hdiv'
      obtain rfl := List.inj_on_of_nodup_map h.divisions hd' hd (hdiv'.symm.trans hdiv)
      rw [hnow]

/-- The award was taken back from the awardee to whom the link leads if that one does not have
it. -/
theorem Linked.givenBack_iff (h : e.Linked back) {prev : UInt64} {p : Awardee}
    (hprev : a.prevAwardee = some prev) (hp : e.awardee? prev = some p) :
    e.GivenBack a ↔ p.pickedUp = false := by
  have hid := awardeeId_of_awardee? hp
  constructor
  · rintro ⟨q, hq, hlink, hgiven⟩
    have hsame : prev = q.awardeeId := Option.some.inj (hprev.symm.trans hlink)
    rw [hsame, h.awardee?_eq hq] at hp
    rwa [← Option.some.inj hp]
  · intro hgiven
    exact ⟨p, List.mem_of_find?_eq_some hp, by rw [hprev, hid], hgiven⟩

/-- The two agree on a former awardee unless the award was taken back from that one. -/
theorem Linked.prevPickedUp_eq_iff (h : e.Linked back) (ha : a ∈ e.awardees)
    (hactive : a.active = true) (n : UInt64) (was : Bool) :
    (was && a.prevAwardee.isSome) =
        (e.answer (.setPickedUp n a.awardeeId was)).1.prevPickedUp { a with pickedUp := !was } ↔
      ¬(was = true ∧ e.GivenBack a) := by
  cases hprev : a.prevAwardee with
  | none => simp [prevPickedUp, GivenBack, hprev]
  | some prev =>
      rcases h.links a ha prev hprev with ⟨p, hp, hinactive, -⟩
      -- The former awardee is not active, hence somebody else.
      have hne : p.awardeeId ≠ a.awardeeId := by
        intro heq
        obtain rfl := List.inj_on_of_nodup_map h.awardees (List.mem_of_find?_eq_some hp) ha heq
        rw [hactive] at hinactive
        cases hinactive
      have hstays : (e.answer (.setPickedUp n a.awardeeId was)).1.awardee? prev = some p := by
        rw [answer_awardee?, hp]
        simp [amend, hne]
      rw [h.givenBack_iff hprev hp]
      cases was <;> cases hpicked : p.pickedUp <;> simp [prevPickedUp, hstays, hpicked]

/-! ## A refresh right after a pick-up -/

/-- The event answers all requests. -/
def respond (e : Event) : Responder :=
  fun r => (e.answer r).2

/-- When an award has changed hands in a cell, a refresh right afterwards leaves the two flags
of the cell if it leaves the holder. -/
def RefreshKeeps (e : Event) (n : UInt64) (a : Awardee) (was : Bool) : Prop :=
  ∀ (v : View) (key : CellKey) (c : Cell), v.eventId = some n → v.divisionsRendered = true →
    v.cell? key = some c → c.awardeeId = some a.awardeeId → c.pickedUp = was →
      let toggled := ((Action.toggle key).perform e.respond v).1
      let refreshed := (Action.refresh.perform
        (e.answer (.setPickedUp n a.awardeeId was)).1.respond toggled).1
      ∃ c₁ c₂, toggled.cell? key = some c₁ ∧ refreshed.cell? key = some c₂ ∧
        c₁.awardeeId = some a.awardeeId ∧
          (c₂.awardeeId = c₁.awardeeId →
            c₂.pickedUp = c₁.pickedUp ∧ c₂.prevPickedUp = c₁.prevPickedUp)

/-- If what is told is what is listed, then a refresh keeps it. -/
theorem Toggled.refreshKeeps {n : UInt64} {was : Bool} {status : PickupStatus} {x : Award}
    (h : e.Toggled n a was status x) (hpicked : status.pickedUp = x.pickedUp)
    (hprev : status.prevPickedUp = x.prevPickedUp) : e.RefreshKeeps n a was := by
  intro v key c hevent hrendered hcell hholder hwas toggled refreshed
  rcases h.listed n false with ⟨data, hgot, -, honly⟩
  have htoggled : toggled = v.showStatus key status :=
    congrArg Prod.fst (View.perform_toggle hevent hcell hholder (hwas ▸ h.told))
  have hrefreshed : refreshed = toggled.fill data.awards := by
    refine congrArg Prod.fst (View.perform_refresh ?_ ?_ hgot)
    · rw [htoggled]
      exact hevent
    · rw [htoggled]
      exact hrendered
  have hshown : toggled.cell? key = some (c.telling status) := by
    rw [htoggled, View.cell?_showStatus, hcell, Option.map_some]
  have hfilled : refreshed.cell? key =
      some ((data.awards.filter (·.key = key)).foldl Cell.showing (c.telling status)) := by
    rw [hrefreshed, View.cell?_fill, hshown, Option.map_some]
  refine ⟨_, _, hshown, hfilled, hholder, fun hsame => ?_⟩
  rcases Cell.foldl_showing_cases (c.telling status) (data.awards.filter (·.key = key)) with
    hnone | ⟨y, hy, heq⟩
  · rw [hnone]
    exact ⟨rfl, rfl⟩
  · rw [heq] at hsame ⊢
    obtain rfl := honly y (List.mem_of_mem_filter hy) (Option.some.inj (hsame.trans hholder))
    exact ⟨hpicked.symm, hprev.symm⟩

/-! ## What is told is what is listed -/

/-- If the award was taken back from a former awardee, then by a request. -/
theorem Linked.exists_taken_back {xs : List Deed} (h : e.Linked (xs.flatMap Deed.takenBack))
    (ha : a ∈ e.awardees) (hgiven : e.GivenBack a) :
    ∃ prev m, a.prevAwardee = some prev ∧ .request (.setPickedUp m prev true) ∈ xs := by
  rcases hgiven with ⟨q, hq, hlink, hgiven⟩
  rcases h.links a ha _ hlink with ⟨p, hp, -, hpicked⟩
  obtain rfl : q = p := Option.some.inj ((h.awardee?_eq hq).symm.trans hp)
  rw [hgiven] at hpicked
  rcases List.mem_flatMap.1 (hpicked.resolve_left Bool.false_ne_true) with ⟨x, hx, hid⟩
  match x with
  | .request (.setPickedUp m prev true) =>
      obtain rfl := List.mem_singleton.1 hid
      exact ⟨_, m, hlink, hx⟩

/-- In every history of an event that began without links, when the award of an active awardee
changes hands, the answer and the award that is listed right afterwards tell the same about
the awardee.  They tell the same about a former awardee except when the award is taken back
and was already taken back from the former awardee. -/
theorem pickup_matches_listing (h : e.Unlinked) {xs : List Deed} (hadmits : e.AdmitsAll xs)
    (hd : d ∈ (e.history xs).divisions) (ha : a ∈ (e.history xs).awardees)
    (hactive : a.active = true) (hdiv : a.divId = d.divId) (n : UInt64) (was : Bool) :
    ((e.history xs).GivenBack a →
      ∃ prev m, a.prevAwardee = some prev ∧ .request (.setPickedUp m prev true) ∈ xs) ∧
    ∃ status x, (e.history xs).Toggled n a was status x ∧
      status.pickedUp = x.pickedUp ∧
      (status.prevPickedUp = x.prevPickedUp ↔ ¬(was = true ∧ (e.history xs).GivenBack a)) ∧
      (¬(was = true ∧ (e.history xs).GivenBack a) → (e.history xs).RefreshKeeps n a was) := by
  have hlinked := h.linked.history hadmits
  rw [List.nil_append] at hlinked
  have htoggled := hlinked.toggled ha hactive hd hdiv n was
  have hprev := hlinked.prevPickedUp_eq_iff ha hactive n was
  exact ⟨hlinked.exists_taken_back ha, _, _, htoggled, rfl, hprev,
    fun hnot => htoggled.refreshKeeps rfl (hprev.2 hnot)⟩

/-- A division with one place. -/
def openDivision : Division :=
  { divId := 10, rsuDivId := 101, name := "Open", numAwards := 1 }

/-- An event with one award, which nobody has picked up. -/
def onePlace : Event where
  divisions := [openDivision]
  awardees := [{ awardeeId := 100, divId := 10, place := 1, name := "Ada", bib := "7" }]

/-- Who comes in the place of the awardee. -/
def newcomer : Awardee :=
  { awardeeId := 200, divId := 10, place := 1, name := "Bea", bib := "8" }

/-- The award is picked up by the one awardee and then by the other. -/
def pickedUpTwice : List Deed :=
  [.request (.setPickedUp 1 100 false), .replace newcomer, .request (.setPickedUp 1 200 false)]

/-- There are no links before anybody was replaced. -/
theorem unlinked_onePlace : onePlace.Unlinked where
  awardees := by decide
  divisions := by decide
  links := by decide

/-- The new awardee as on record after that. -/
def successor : Awardee :=
  { newcomer with pickedUp := true, prevAwardee := some 100 }

/-- When the award is taken back from the new awardee, the former one still has it. -/
theorem pickup_matches_listing_successor :
    onePlace.AdmitsAll pickedUpTwice ∧
      successor ∈ (onePlace.history pickedUpTwice).awardees ∧
      ¬(onePlace.history pickedUpTwice).GivenBack successor ∧
      ∃ status x, (onePlace.history pickedUpTwice).Toggled 1 successor true status x ∧
        status = { pickedUp := false, prevPickedUp := true } ∧ x.prevPickedUp = true ∧
        (onePlace.history pickedUpTwice).RefreshKeeps 1 successor true := by
  have hadmits : onePlace.AdmitsAll pickedUpTwice :=
    ⟨trivial, ⟨by decide, rfl⟩, trivial, trivial⟩
  have hmem : successor ∈ (onePlace.history pickedUpTwice).awardees := by decide
  have hgiven : ¬(onePlace.history pickedUpTwice).GivenBack successor := by
    unfold GivenBack
    decide
  have hdivision : openDivision ∈ (onePlace.history pickedUpTwice).divisions := by decide
  rcases (pickup_matches_listing unlinked_onePlace hadmits hdivision hmem rfl rfl 1 true).2 with
    ⟨status, x, htoggled, -, hagree, hkeeps⟩
  obtain rfl : { pickedUp := false, prevPickedUp := true } = status :=
    Except.ok.inj htoggled.told
  have hnot : ¬(true = true ∧ (onePlace.history pickedUpTwice).GivenBack successor) :=
    fun h => hgiven h.2
  exact ⟨hadmits, hmem, hgiven, _, x, htoggled, rfl, (hagree.2 hnot).symm, hkeeps hnot⟩

/-- The award is taken back from the former awardee, who does not have it any more. -/
def givenBackLate : List Deed :=
  pickedUpTwice ++ [.request (.setPickedUp 1 100 true)]

/-- What is told about a former awardee from whom the award was taken back is not what is
listed. -/
theorem pickup_differs_from_listing :
    onePlace.Unlinked ∧ onePlace.AdmitsAll givenBackLate ∧
      successor ∈ (onePlace.history givenBackLate).awardees ∧ successor.active = true ∧
      openDivision ∈ (onePlace.history givenBackLate).divisions ∧
      successor.divId = openDivision.divId ∧
      ∃ status x, (onePlace.history givenBackLate).Toggled 1 successor true status x ∧
        status.prevPickedUp = true ∧ x.prevPickedUp = false := by
  have hadmits : onePlace.AdmitsAll givenBackLate :=
    ⟨trivial, ⟨by decide, rfl⟩, trivial, trivial, trivial⟩
  have hmem : successor ∈ (onePlace.history givenBackLate).awardees := by decide
  have hdivision : openDivision ∈ (onePlace.history givenBackLate).divisions := by decide
  have hlinked := unlinked_onePlace.linked.history hadmits
  exact ⟨unlinked_onePlace, hadmits, hmem, rfl, hdivision, rfl, _, _,
    hlinked.toggled hmem rfl hdivision rfl 1 true, rfl, by decide⟩

end Event
end Store
end AwardsDesk
