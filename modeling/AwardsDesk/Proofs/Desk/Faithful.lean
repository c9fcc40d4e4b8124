import AwardsDesk.Proofs.Board.Layout
import AwardsDesk.Proofs.Desk.Run
import AwardsDesk.Proofs.Store.Records
import Mathlib.Logic.Function.Iterate

/-!
# Views that are true to a store

A view is true to a store when every cell shows what is on record there for the event that
is shown.  An answer of the store keeps a view true to it: what the request has made of a
record is shown in the one cell of its awardee, and the awards of a refresh are those on
record.  As the state of an award is sent as it is shown, a toggle turns over what is on
record.

Main definitions:

- Definitions {lit}`Cell.TrueTo` and {lit}`View.TrueTo`: what is shown is on record.
- Function {lit}`Board.toggles`: how often bodies have toggled the award of an awardee.

Main results:

- Theorem {lit}`View.TrueTo.finish`: an answer of the store keeps a view true to it.
- Theorem {lit}`View.TrueTo.pickedUp?_finish`: what a request makes of the record of an award.
-/

namespace AwardsDesk

open Board (Request Error Outcome Action)

/-! ## Cells of a layout -/

namespace Board

/-- A cell of a layout is the empty cell of one of its divisions. -/
theorem View.cell?_layOut {v : View} {rows : List (List (Option Division))} {key : CellKey}
    {c : Cell} (h : (v.layOut rows).cell? key = some c) :
    ∃ row ∈ rows, ∃ d, some d ∈ row ∧ key.rsuDivId = d.rsuDivId ∧
      ∃ place, c = d.emptyCell place := by
  rw [cell?, layOut, Division.find?_foldl_addCells, Cells.find?, Option.or_none,
    Option.map_eq_some_iff] at h
  rcases h with ⟨d, hfind, rfl⟩
  have hkey : key ∈ d.keys := by simpa using List.find?_some hfind
  rcases List.mem_flatten.1 (List.mem_reverse.1 (List.mem_of_find?_eq_some hfind)) with
    ⟨row', hrow', hmem⟩
  rcases List.mem_map.1 hrow' with ⟨row, hrow, rfl⟩
  exact ⟨row, hrow, d, by simpa using hmem, (Division.mem_keys.1 hkey).1, key.place, rfl⟩

/-! ## Being true to a store -/

/-- A cell shows what is on record in an event: it is a cell of one of the divisions, and if
it shows a holder, then one who is on record there with the same division and place, the same
state of the award, and the same notes. -/
def Cell.TrueTo (e : Store.Event) (key : CellKey) (c : Cell) : Prop :=
  ∃ d ∈ e.divisions, c.divId = d.divId ∧ key.rsuDivId = d.rsuDivId ∧
    ∀ awardee, c.awardeeId = some awardee →
      ∃ a, e.awardee? awardee = some a ∧ a.divId = d.divId ∧ a.place = key.place ∧
        c.pickedUp = a.pickedUp ∧ c.notes = shownNotes a.notes

/-- Every cell shows what is on record in an event. -/
def View.TrueToEvent (e : Store.Event) (v : View) : Prop :=
  ∀ key c, v.cell? key = some c → c.TrueTo e key

/-- Every cell shows what is on record in the event that is shown. -/
def View.TrueTo (s : Store) (v : View) : Prop :=
  ∀ key c, v.cell? key = some c →
    ∃ id e, v.eventId = some id ∧ s.event? id = some e ∧ c.TrueTo e key

namespace Cell.TrueTo

variable {e : Store.Event} {key key' : CellKey} {c c' : Cell}

/-- Two cells that show the same holder are the same cell. -/
theorem key_eq (hd : e.Distinct) (h : c.TrueTo e key) (h' : c'.TrueTo e key') {awardee : UInt64}
    (hc : c.awardeeId = some awardee) (hc' : c'.awardeeId = some awardee) : key = key' := by
  rcases h with ⟨d, hmem, -, hkey, hholder⟩
  rcases h' with ⟨d', hmem', -, hkey', hholder'⟩
  rcases hholder awardee hc with ⟨a, ha, hdiv, hplace, -⟩
  rcases hholder' awardee hc' with ⟨a', ha', hdiv', hplace', -⟩
  obtain rfl : a = a' := Option.some.inj (ha.symm.trans ha')
  obtain rfl : d = d' := hd.eq_of_divId hmem hmem' (hdiv.symm.trans hdiv')
  rcases key with ⟨div, place⟩
  rcases key' with ⟨div', place'⟩
  obtain rfl : div = div' := hkey.trans hkey'.symm
  obtain rfl : place = place' := hplace.symm.trans hplace'
  rfl

/-- A cell is true to an event after a request if it shows what the request has made of the
record of its holder. -/
theorem answer (h : c.TrueTo e key) (r : Request) (hdiv : c'.divId = c.divId)
    (hholder : c'.awardeeId = c.awardeeId)
    (hshows : ∀ a, c.awardeeId = some a.awardeeId → c.pickedUp = a.pickedUp →
      c.notes = shownNotes a.notes →
      c'.pickedUp = (Store.Event.amend r a).pickedUp ∧
        c'.notes = shownNotes (Store.Event.amend r a).notes) :
    c'.TrueTo (e.answer r).1 key := by
  rcases h with ⟨d, hmem, hcell, hkey, hrecord⟩
  refine ⟨d, ?_, hdiv.trans hcell, hkey, fun awardee hawardee => ?_⟩
  · rw [Store.Event.answer_divisions]
    exact hmem
  · rw [hholder] at hawardee
    rcases hrecord awardee hawardee with ⟨a, ha, hdivision, hplace, hpicked, hnotes⟩
    have hid : a.awardeeId = awardee := by simpa using List.find?_some ha
    have hnew := hshows a (hid ▸ hawardee) hpicked hnotes
    refine ⟨Store.Event.amend r a, ?_, ?_, ?_, hnew⟩
    · rw [Store.Event.answer_awardee?, ha, Option.map_some]
    · rw [Store.Event.amend_divId, hdivision]
    · rw [Store.Event.amend_place, hplace]

end Cell.TrueTo

/-! ## Answers of an event -/

namespace View.TrueToEvent

variable {e : Store.Event} {v : View}

/-- The divisions of an event are laid out in cells that are true to it. -/
theorem layOut (e : Store.Event) (v : View) :
    (v.layOut (Store.divisionRows e.byPriority)).TrueToEvent e := by
  intro key c hc
  rcases cell?_layOut hc with ⟨row, hrow, d, hd, hkey, place, rfl⟩
  have hmem := Store.Event.mem_byPriority.1 (Store.mem_divisionRows hrow hd)
  refine ⟨d, hmem, rfl, hkey, ?_⟩
  intro awardee hawardee
  simp [Division.emptyCell] at hawardee

/-- An award of an event is shown as it is on record. -/
theorem showAward (h : v.TrueToEvent e) (hd : e.Distinct) {x : Award} (hx : x ∈ e.awards) :
    (v.showAward x).TrueToEvent e := by
  intro key c hc
  have hcell := (Cells.find?_modify v.cells ⟨x.rsuDivId, x.place⟩ key _).symm.trans hc
  by_cases hkey : key = ⟨x.rsuDivId, x.place⟩
  · rw [if_pos hkey] at hcell
    rcases Option.map_eq_some_iff.1 hcell with ⟨old, hold, rfl⟩
    rcases h key old hold with ⟨d, hmem, hdiv, hrsu, -⟩
    rcases Store.Event.mem_awards_iff.1 hx with ⟨d', hmem', a, ha, -, hdivision, rfl⟩
    obtain rfl : d = d' := by
      apply hd.eq_of_rsuDivId hmem hmem'
      rw [← hrsu, hkey]
      rfl
    refine ⟨d, hmem, hdiv, hrsu, ?_⟩
    intro awardee hawardee
    obtain rfl : a.awardeeId = awardee := Option.some.inj hawardee
    exact ⟨a, hd.awardee?_eq ha, hdivision, by rw [hkey]; rfl, rfl, rfl⟩
  · rw [if_neg hkey] at hcell
    exact h key c hcell

/-- The awards of an event are shown as they are on record. -/
theorem fill (h : v.TrueToEvent e) (hd : e.Distinct) {awards : List Award}
    (hawards : ∀ x ∈ awards, x ∈ e.awards) : (v.fill awards).TrueToEvent e := by
  unfold View.fill
  induction awards generalizing v with
  | nil => exact h
  | cons x awards ih =>
      have hx := hawards x List.mem_cons_self
      exact ih (h.showAward hd hx) fun y hy => hawards y (List.mem_cons_of_mem x hy)

/-- A view stays true to an event when what a request makes of the record of an awardee is
shown in the cell of the awardee. -/
theorem modify (h : v.TrueToEvent e) (hd : e.Distinct) {r : Request} {awardee : UInt64}
    (hothers : ∀ a : Store.Awardee, a.awardeeId ≠ awardee → Store.Event.amend r a = a)
    {key : CellKey} {c : Cell} (hcell : v.cell? key = some c)
    (hholder : c.awardeeId = some awardee) {f : Cell → Cell}
    (hf : (f c).divId = c.divId ∧ (f c).awardeeId = c.awardeeId)
    (hshows : ∀ a : Store.Awardee, a.awardeeId = awardee → c.pickedUp = a.pickedUp →
      c.notes = shownNotes a.notes →
      (f c).pickedUp = (Store.Event.amend r a).pickedUp ∧
        (f c).notes = shownNotes (Store.Event.amend r a).notes) :
    TrueToEvent (e.answer r).1 { v with cells := v.cells.modify key f } := by
  intro key' c' hc'
  have hfind := (Cells.find?_modify v.cells key key' f).symm.trans hc'
  have hold := h key c hcell
  by_cases hkey : key' = key
  · subst hkey
    rw [if_pos rfl] at hfind
    rcases Option.map_eq_some_iff.1 hfind with ⟨d, hd', rfl⟩
    obtain rfl : c = d := Option.some.inj (hcell.symm.trans hd')
    refine hold.answer r hf.1 hf.2 ?_
    intro a ha
    exact hshows a (Option.some.inj (ha.symm.trans hholder))
  · rw [if_neg hkey] at hfind
    have hother := h key' c' hfind
    refine hother.answer r rfl rfl ?_
    intro a ha hpicked hnotes
    -- The awardee is shown in one cell only, so the record of this one has not changed.
    have hne : a.awardeeId ≠ awardee := by
      rintro rfl
      exact hkey (hother.key_eq hd hold ha hholder)
    rw [hothers a hne]
    exact ⟨hpicked, hnotes⟩

/-- An answer of the event keeps a view true to it. -/
theorem finish (h : v.TrueToEvent e) (hd : e.Distinct) {w : Await} (hshown : w.Shown v) :
    (w.finish (e.answer w.request).2 v).1.TrueToEvent (e.answer w.request).1 := by
  cases w with
  | awards event needDivisions =>
      cases needDivisions with
      | false => exact h.fill hd fun _ hx => hx
      | true => exact (layOut e v).fill hd fun _ hx => hx
  | status event awardee was key =>
      rcases hshown with ⟨-, c, hcell, hholder, -⟩
      rcases (h key c hcell) with ⟨d, -, -, -, hrecord⟩
      rcases hrecord awardee hholder with ⟨a, ha, -⟩
      have hview : ((Await.status event awardee was key).finish
          (e.answer (.setPickedUp event awardee was)).2 v).1 =
            v.showStatus key { pickedUp := !was, prevPickedUp := was && a.prevAwardee.isSome } := by
        simp only [Store.Event.answer, ha, Await.finish]
      rw [hview]
      refine h.modify hd ?_ hcell hholder ⟨rfl, rfl⟩ ?_
      · intro b hb
        simp [Store.Event.amend, hb]
      · intro b hb _ hnotes
        simp [Store.Event.amend, hb, hnotes]
  | notes event awardee key =>
      have hsame : (e.answer (.fetchNotes event awardee)).1 = e := by
        simp only [Store.Event.answer]
        split <;> rfl
      rw [hsame]
      cases (e.answer (.fetchNotes event awardee)).2 with
      | error err => exact h
      | ok text => exact h
  | saved event awardee text key =>
      rcases awardeeAt_eq_some_iff.1 hshown.2 with ⟨c, hcell, hholder⟩
      rcases (h key c hcell) with ⟨d, -, -, -, hrecord⟩
      rcases hrecord awardee hholder with ⟨a, ha, -⟩
      have hview : ((Await.saved event awardee text key).finish
          (e.answer (.saveNotes event awardee text)).2 v).1 = v.closeEditor.showNotes key text := by
        simp only [Store.Event.answer, ha, Await.finish]
      rw [hview]
      have hclosed : v.closeEditor.TrueToEvent e := h
      refine hclosed.modify hd ?_ hcell hholder ⟨rfl, rfl⟩ ?_
      · intro b hb
        simp [Store.Event.amend, hb]
      · intro b hb hpicked _
        simp [Store.Event.amend, hb, hpicked]

end View.TrueToEvent

/-! ## Answers of a store -/

/-- A request under way is about the event that is shown. -/
theorem Await.Shown.eventId_eq {w : Await} {v : View} (h : w.Shown v) :
    v.eventId = some (Store.requestEvent w.request) := by
  cases w with
  | awards event needDivisions => exact h.1
  | status event awardee was key => exact h.1
  | notes event awardee key => exact h.1
  | saved event awardee text key => exact h.1

namespace View.TrueTo

variable {s s' : Store} {v v' : View} {w : Await}

/-- A cell of a view is true to the event that is shown. -/
theorem toEvent (h : v.TrueTo s) {id : UInt64} {e : Store.Event} (hid : v.eventId = some id)
    (he : s.event? id = some e) : v.TrueToEvent e := by
  intro key c hc
  rcases h key c hc with ⟨id', e', hid', he', hcell⟩
  obtain rfl : id = id' := Option.some.inj (hid.symm.trans hid')
  obtain rfl : e = e' := Option.some.inj (he.symm.trans he')
  exact hcell

/-- A view that is true to the event that it shows is true to the store. -/
theorem of_event {id : UInt64} {e : Store.Event} (hid : v.eventId = some id)
    (he : s.event? id = some e) (h : v.TrueToEvent e) : v.TrueTo s :=
  fun key c hc => ⟨id, e, hid, he, h key c hc⟩

/-- A view without cells is true to every store. -/
theorem of_empty (h : v.cells = []) : v.TrueTo s := by
  intro key c hc
  simp [cell?, h, Cells.find?] at hc

/-- A view that shows the same is true to a store with the same events. -/
theorem congr (h : v.TrueTo s) (halike : v'.Alike v) (hsame : ∀ id, s'.event? id = s.event? id) :
    v'.TrueTo s' := by
  intro key c hc
  rw [halike.cell?_eq] at hc
  rcases h key c hc with ⟨id, e, hid, he, hcell⟩
  exact ⟨id, e, halike.eventId.trans hid, (hsame id).trans he, hcell⟩

/-- A view that shows the same is true to the same store. -/
theorem alike (h : v.TrueTo s) (halike : v'.Alike v) : v'.TrueTo s :=
  h.congr halike fun _ => rfl

/-- The first half of an action keeps a view true. -/
theorem begin_ended (h : v.TrueTo s) {a : Action} {result : Except Error Outcome}
    (hbegin : a.begin v = .ended v' result) : v'.TrueTo s := by
  rcases Action.begin_ended_cases hbegin with ⟨event, rfl, -⟩ | ⟨rfl | rfl, -⟩
  · obtain ⟨rfl, -⟩ := Begun.ended.inj hbegin
    exact of_empty rfl
  · exact h
  · exact h.alike v.alike_closeEditor

/-- An answer of the store keeps a view true to it. -/
theorem finish (h : v.TrueTo s) (hd : s.Distinct) (hshown : w.Shown v) :
    (w.finish (s.finish w.request).2 v).1.TrueTo (s.finish w.request).1 := by
  rcases Store.finish_cases s w.request with ⟨⟨err, herror⟩, hsame⟩ | ⟨e, he, hanswer, hchange⟩
  · have hresult : (w.finish (.error err) v).2 = .error err := by
      cases w <;> rfl
    rw [herror]
    exact h.congr (Await.alike_of_finish hresult) hsame
  · have hid := hshown.eventId_eq
    have hevent := (h.toEvent hid he).finish (hd _ e he) hshown
    rw [hanswer]
    refine of_event ((w.eventId_finish _ v).trans hid) ?_ hevent
    rw [hchange, if_pos rfl]

end View.TrueTo

/-! ## Toggles -/

/-- Whether a body has toggled the award of an awardee. -/
def Body.toggles (event awardee : UInt64) (x : Body) : Bool :=
  match x.asked, x.result with
  | some (.status e a _ _, _), .ok _ => e == event && a == awardee
  | _, _ => false

/-- How often bodies have toggled the award of an awardee. -/
def toggles (event awardee : UInt64) (xs : List Body) : Nat :=
  xs.countP (·.toggles event awardee)

/-- A body toggles an award when it has asked for that and has not failed. -/
theorem Body.toggles_iff {x : Body} {event awardee : UInt64} :
    x.toggles event awardee = true ↔
      (∃ was key respond, x.asked = some (.status event awardee was key, respond)) ∧
        ∃ o, x.result = .ok o := by
  constructor
  · intro h
    unfold Body.toggles at h
    split at h
    · rename_i e a was key respond o hasked hresult
      obtain ⟨rfl, rfl⟩ : e = event ∧ a = awardee := by simpa using h
      exact ⟨⟨was, key, respond, hasked⟩, o, hresult⟩
    · simp at h
  · rintro ⟨⟨was, key, respond, hasked⟩, o, hresult⟩
    simp [Body.toggles, hasked, hresult]

/-- What one body makes of the state of an award. -/
theorem iterate_toggles_singleton (x : Body) (event awardee : UInt64) (picked : Bool) :
    not^[toggles event awardee [x]] picked =
      if x.toggles event awardee then !picked else picked := by
  cases h : x.toggles event awardee <;> simp [toggles, h]

/-- Bodies of which one after another toggles awards. -/
theorem toggles_append (event awardee : UInt64) (xs more : List Body) :
    toggles event awardee (xs ++ more) = toggles event awardee xs + toggles event awardee more :=
  List.countP_append

/-- A request turns over the record of an award if it is there to toggle it, and else leaves
it. -/
theorem View.TrueToEvent.pickedUp_amend {e : Store.Event} {v : View} (h : v.TrueToEvent e)
    {w : Await} (hshown : w.Shown v) {awardee : UInt64} {a : Store.Awardee}
    (hrecord : e.awardee? awardee = some a) {x : Body} {respond : Responder}
    (hasked : x.asked = some (w, respond))
    (hresult : x.result = (w.finish (e.answer w.request).2 v).2) :
    (Store.Event.amend w.request a).pickedUp =
      if x.toggles (Store.requestEvent w.request) awardee then !a.pickedUp else a.pickedUp := by
  have hid : a.awardeeId = awardee := by simpa using List.find?_some hrecord
  cases w with
  | awards event needDivisions => simp [Body.toggles, hasked, Store.Event.amend]
  | notes event holder key => simp [Body.toggles, hasked, Store.Event.amend]
  | saved event holder text key =>
      simp only [Body.toggles, hasked, Store.Event.amend]
      split <;> rfl
  | status event holder was key =>
      by_cases hholder : holder = awardee
      · -- The state that is shown is the one on record, so the opposite is recorded.
        subst hholder
        rcases hshown with ⟨-, c, hcell, hshows, hwas⟩
        rcases h key c hcell with ⟨d, -, -, -, hrecords⟩
        rcases hrecords holder hshows with ⟨a', ha', -, -, hpicked, -⟩
        obtain rfl : a = a' := Option.some.inj (hrecord.symm.trans ha')
        have hok : ∃ o, x.result = .ok o := by
          rw [hresult]
          simp only [Store.Event.answer, hrecord]
          exact ⟨_, rfl⟩
        have htoggles : x.toggles event holder = true :=
          Body.toggles_iff.2 ⟨⟨was, key, respond, hasked⟩, hok⟩
        simp [Store.requestEvent, htoggles, Store.Event.amend, hid, ← hwas, hpicked]
      · have hne : a.awardeeId ≠ holder := fun heq => hholder (heq.symm.trans hid)
        have htoggles : x.toggles event awardee = false := by
          rw [← Bool.not_eq_true, Body.toggles_iff, hasked]
          rintro ⟨⟨was', key', respond', heq⟩, -⟩
          simp [hholder] at heq
        simp [Store.requestEvent, htoggles, Store.Event.amend, hne]

end Board

/-- Whether an awardee has the award, as it is on record. -/
def Store.pickedUp? (s : Store) (event awardee : UInt64) : Option Bool :=
  (s.awardee? event awardee).map Store.Awardee.pickedUp

/-- What is on record of an award depends on the events alone. -/
theorem Store.pickedUp?_congr {s s' : Store} {event : UInt64}
    (h : s'.event? event = s.event? event) (awardee : UInt64) :
    s'.pickedUp? event awardee = s.pickedUp? event awardee := by
  simp only [pickedUp?, awardee?, h]

namespace Board

/-- The record of an award is turned over by the bodies that toggle it, and by nothing
else. -/
theorem View.TrueTo.pickedUp?_finish {s : Store} {v : View} (h : v.TrueTo s) {w : Await}
    (hshown : w.Shown v) {x : Body} {respond : Responder} (hasked : x.asked = some (w, respond))
    (hresult : x.result = (w.finish (s.finish w.request).2 v).2) (event awardee : UInt64) :
    (s.finish w.request).1.pickedUp? event awardee =
      (s.pickedUp? event awardee).map not^[toggles event awardee [x]] := by
  simp only [funext (iterate_toggles_singleton x event awardee)]
  have hkept : x.toggles event awardee = false →
      (s.finish w.request).1.event? event = s.event? event →
      (s.finish w.request).1.pickedUp? event awardee =
        (s.pickedUp? event awardee).map fun picked =>
          if x.toggles event awardee then !picked else picked := by
    intro htoggles hsame
    simp [Store.pickedUp?_congr hsame, htoggles]
  rcases Store.finish_cases s w.request with ⟨⟨err, herror⟩, hsame⟩ | ⟨e, he, hanswer, hchange⟩
  · refine hkept ?_ (hsame event)
    have hfailed : x.result = .error err := by
      rw [hresult, herror]
      cases w <;> rfl
    rw [← Bool.not_eq_true, Body.toggles_iff, hfailed]
    rintro ⟨-, o, ho⟩
    contradiction
  · by_cases hevent : event = Store.requestEvent w.request
    · have hold : s.awardee? event awardee = e.awardee? awardee := by
        rw [Store.awardee?, hevent, he, Option.bind_some]
      have hnew : (s.finish w.request).1.awardee? event awardee =
          (e.awardee? awardee).map (Store.Event.amend w.request) := by
        rw [Store.awardee?, hchange, if_pos hevent, Option.bind_some,
          Store.Event.answer_awardee?]
      rw [Store.pickedUp?, Store.pickedUp?, hold, hnew]
      cases hrecord : e.awardee? awardee with
      | none => rfl
      | some a =>
          rw [hanswer] at hresult
          have hon := h.toEvent hshown.eventId_eq he
          have hpicked := hon.pickedUp_amend hshown hrecord hasked hresult
          simp only [Option.map_some, hpicked, hevent]
    · refine hkept ?_ (by rw [hchange, if_neg hevent])
      rw [← Bool.not_eq_true, Body.toggles_iff, hasked]
      rintro ⟨⟨was, key, respond', heq⟩, -⟩
      obtain ⟨rfl, -⟩ : w = .status event awardee was key ∧ respond = respond' := by
        simpa using heq
      exact hevent rfl

end Board
end AwardsDesk
