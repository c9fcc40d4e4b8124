import AwardsDesk.Proofs.Desk.Drift
import AwardsDesk.Proofs.Store.Display

/-!
# First refreshes

From the selection of an event to the first refresh that succeeds a board shows nothing but the
event, so whatever else is done meanwhile finds nothing to change: all that the backend is asked
for are the awards of the event, and asking for them changes no record.  So the first refresh
shows the event as it was on record when it was selected, and as it still is on record
afterwards.

Main definitions:

- Structure {lit}`Body.Passes` and definition {lit}`Board.FirstRefreshed`: an event is selected
  and then refreshed, with other bodies in between.
- Definition {lit}`Desk.Recorded`: the backend of a desk has an event on record.

Main results:

- Theorem {lit}`Board.FirstRefreshed.serial_eq`: what is asked, and what is shown in the end.
- Theorem {lit}`Desk.Recorded.play`: a desk that only asks for awards leaves the records.
- Theorem {lit}`Desk.first_refresh_shows`: the first refresh shows the store.
-/

namespace AwardsDesk

open Board (Action Await View Body Responder)

/-! ## Views before the first refresh -/

namespace Board

variable {event : UInt64} {x : Body} {xs : List Body} {v : View}

/-- Just after an event was selected a refresh asks for its awards and divisions, and nothing
else asks for anything. -/
theorem Action.asking_selected {a : Action} {w : Await}
    (h : a.begin { eventId := some event } = .asking w) :
    a = .refresh ∧ w = .awards event true := by
  cases Action.asks_of_begin h with
  | refresh event shown => exact ⟨rfl, by cases shown; rfl⟩
  | toggle event awardee key c shown cell holder => simp [View.cell?, Cells.find?] at cell
  | openNote event awardee key shown holder =>
      simp [View.awardeeAt, View.cell?, Cells.find?] at holder
  | saveNote event awardee key text shown target => simp [View.noteTarget] at target

/-- Just after an event was selected an action that asks for nothing shows nothing, unless it
selects another event. -/
theorem Action.ended_selected {a : Action} {result : Except Error Outcome}
    (ha : ∀ e, a ≠ .selectEvent e)
    (h : a.begin { eventId := some event } = .ended v result) : v = { eventId := some event } := by
  rcases Action.begin_ended_cases h with ⟨e, rfl, -⟩ | ⟨rfl | rfl, -⟩
  · exact absurd rfl (ha e)
  · rfl
  · rfl

namespace Body

/-- A body asks for nothing but the awards and divisions of an event. -/
def AsksAwards (event : UInt64) (x : Body) : Prop :=
  ∀ w respond, x.asked = some (w, respond) → w = .awards event true

/-- What was asked just after an event was selected. -/
theorem asked_selected (hagrees : x.Agrees { eventId := some event } ∨ x.FindsNoNote)
    {w : Await} {respond : Responder} (hasked : x.asked = some (w, respond)) :
    w = .awards event true ∧ x.action.begin { eventId := some event } = .asking w ∧
      x.result = (w.finish (respond w.request) { eventId := some event }).2 := by
  rcases hagrees with hagrees | ⟨hnone, -⟩
  · simp only [Agrees, hasked] at hagrees
    exact ⟨(Action.asking_selected hagrees.1).2, hagrees⟩
  · simp [hasked] at hnone

/-- A body selects no event, and is no refresh that succeeds. -/
structure Passes (x : Body) : Prop where
  selects : ∀ event, x.action ≠ .selectEvent event
  refreshes : x.action = .refresh → ∀ o, x.result ≠ .ok o

/-- Just after an event was selected a body that passes shows nothing. -/
theorem Passes.show_selected (h : x.Passes)
    (hagrees : x.Agrees { eventId := some event } ∨ x.FindsNoNote) :
    x.show { eventId := some event } = { eventId := some event } := by
  cases hbegin : x.action.begin { eventId := some event } with
  | ended v result =>
      simp only [Body.show, hbegin]
      exact Action.ended_selected h.selects hbegin
  | asking w =>
      cases hasked : x.asked with
      | none => simp only [Body.show, hbegin, hasked]
      | some asked =>
          obtain ⟨haction, rfl⟩ := Action.asking_selected hbegin
          rcases asked with ⟨w, respond⟩
          obtain ⟨rfl, -, hresult⟩ := asked_selected hagrees hasked
          simp only [Body.show, hbegin, hasked]
          cases hanswer : respond (Await.awards event true).request with
          | error e => rfl
          | ok data =>
              rw [hanswer] at hresult
              exact absurd hresult (h.refreshes haction _)

/-- Just after an event was selected a refresh that succeeds shows the awards that it got, in
the divisions that it got. -/
theorem refresh_selected (hagrees : x.Agrees { eventId := some event } ∨ x.FindsNoNote)
    (haction : x.action = .refresh) {o : Outcome} (ho : x.result = .ok o) :
    ∃ respond data, x.asked = some (.awards event true, respond) ∧
      respond (.fetchAwards event true) = .ok data ∧
      x.show { eventId := some event } =
        (View.layOut { eventId := some event } (data.divisions.getD [])).fill data.awards := by
  have hbegin : x.action.begin { eventId := some event } = .asking (.awards event true) := by
    rw [haction]
    rfl
  cases hasked : x.asked with
  | none =>
      rcases hagrees with hagrees | ⟨-, hnone⟩
      · simp [Agrees, hasked, hbegin] at hagrees
      · simp [ho] at hnone
  | some asked =>
      rcases asked with ⟨w, respond⟩
      obtain ⟨rfl, -, hresult⟩ := asked_selected hagrees hasked
      cases hanswer : respond (Await.awards event true).request with
      | error e =>
          rw [hanswer, ho] at hresult
          contradiction
      | ok data =>
          refine ⟨respond, data, rfl, hanswer, ?_⟩
          simp only [Body.show, hbegin, hasked, hanswer]
          rfl

end Body

/-- While bodies pass just after an event was selected nothing is shown. -/
theorem serial_selected (hxs : ∀ x ∈ xs, x.Passes)
    (hagrees : ∀ before x after, xs = before ++ x :: after →
      x.Agrees (serial { eventId := some event } before) ∨ x.FindsNoNote) :
    serial { eventId := some event } xs = { eventId := some event } ∧
      ∀ x ∈ xs, x.Agrees { eventId := some event } ∨ x.FindsNoNote := by
  induction xs with
  | nil => exact ⟨rfl, by simp⟩
  | cons x xs ih =>
      have hx := hagrees [] x xs rfl
      have hshow := (hxs x List.mem_cons_self).show_selected hx
      have hrest := ih (fun y hy => hxs y (List.mem_cons_of_mem x hy)) fun before y after hsplit => by
        have hy := hagrees (x :: before) y after (by rw [hsplit]; rfl)
        rwa [serial, List.foldl_cons, hshow] at hy
      rw [serial, List.foldl_cons, hshow]
      exact ⟨hrest.1, List.forall_mem_cons.2 ⟨hx, hrest.2⟩⟩

/-! ## First refreshes -/

/-- Bodies from the selection of an event to the first refresh that succeeds: those in between
select no event, and are no refreshes that succeed. -/
def FirstRefreshed (event : UInt64) (xs : List Body) : Prop :=
  ∃ select between refresh, xs = select :: (between ++ [refresh]) ∧
    select.action = .selectEvent event ∧ (∀ x ∈ between, x.Passes) ∧
    refresh.action = .refresh ∧ ∃ o, refresh.result = .ok o

/-- Up to the first refresh the backend is asked for nothing but the awards of the event, and
in the end the awards that it gave are shown in the divisions that it gave. -/
theorem FirstRefreshed.serial_eq (h : FirstRefreshed event xs)
    (hagrees : ∀ before x after, xs = before ++ x :: after →
      x.Agrees (serial v before) ∨ x.FindsNoNote) :
    (∀ x ∈ xs, x.AsksAwards event) ∧
      ∃ x ∈ xs, ∃ respond data, x.asked = some (.awards event true, respond) ∧
        respond (.fetchAwards event true) = .ok data ∧
        serial v xs =
          (View.layOut { eventId := some event } (data.divisions.getD [])).fill data.awards := by
  rcases h with ⟨select, between, refresh, rfl, hselect, hbetween, hrefresh, o, ho⟩
  have hfirst : select.show v = { eventId := some event } := by
    simp only [Body.show, hselect, Action.begin]
  have hcons : ∀ ys, serial v (select :: ys) = serial { eventId := some event } ys := by
    intro ys
    rw [serial, List.foldl_cons, hfirst, serial]
  have hquiet : select.asked = none := by
    rcases hagrees [] select _ rfl with hagree | hnone
    · cases hasked : select.asked with
      | none => rfl
      | some asked => simp [Body.Agrees, hasked, hselect, Action.begin] at hagree
    · exact hnone.1
  -- The selection leaves a view on which the bodies in between find nothing, so each of them, and
  -- the refresh after them, sees the view that the selection left.
  obtain ⟨hserial, hpassed⟩ := serial_selected hbetween fun before y after hsplit => by
    have hy := hagrees (select :: before) y (after ++ [refresh]) (by simp [hsplit])
    rwa [hcons] at hy
  have hlast : refresh.Agrees { eventId := some event } ∨ refresh.FindsNoNote := by
    have hy := hagrees (select :: between) refresh [] (by simp)
    rwa [hcons, hserial] at hy
  constructor
  · intro x hx w respond hasked
    rcases List.mem_cons.1 hx with rfl | hx
    · simp [hquiet] at hasked
    · rcases List.mem_append.1 hx with hx | hx
      · exact (Body.asked_selected (hpassed x hx) hasked).1
      · obtain rfl := List.mem_singleton.1 hx
        exact (Body.asked_selected hlast hasked).1
  · rcases Body.refresh_selected hlast hrefresh ho with ⟨respond, data, hasked, hgot, hshow⟩
    refine ⟨refresh, by simp, respond, data, hasked, hgot, ?_⟩
    rw [hcons, serial_append, hserial]
    exact hshow

end Board

/-! ## Records -/

namespace Desk

variable {d : Desk} {u : View} {event : UInt64} {e : Store.Event}

/-- The backend of a desk is a store that has an event on record. -/
def Recorded (event : UInt64) (e : Store.Event) (d : Desk) : Prop :=
  ∃ s, d.backend = .store s ∧ s.event? event = some e

/-- A body was answered by a store that has an event on record, if it has asked anything. -/
def AnsweredFrom (event : UInt64) (e : Store.Event) (x : Body) : Prop :=
  ∀ w respond, x.asked = some (w, respond) →
    ∃ s : Store, s.event? event = some e ∧ respond = fun r => (s.finish r).2

namespace Recorded

/-- A move leaves the record of an event when nothing but its awards is asked for, and what is
asked for is answered from the record. -/
theorem move (h : d.Recorded event e) (hstep : d.board.InStep u) (m : Move)
    (hasks : ∀ x ∈ d.board.bodies (d.boardEvent? m).toList, x.AsksAwards event) :
    (d.move m).Recorded event e ∧
      ∀ x ∈ d.board.bodies (d.boardEvent? m).toList, AnsweredFrom event e x := by
  rcases h with ⟨s, hstore, hevent⟩
  rcases moved hstep m with ⟨hbackend, hnone, -⟩ |
    ⟨w, x, -, hended, hasked, -, -, hbackend⟩
  · rcases hbackend s hstore with ⟨s', hs', hsame⟩
    refine ⟨⟨s', hs', (hsame event).trans hevent⟩, fun x hx w respond hasked => ?_⟩
    simp [hnone x hx] at hasked
  · rw [hended] at hasks ⊢
    obtain rfl := hasks x (List.mem_singleton_self x) w _ hasked
    rw [hstore] at hasked hbackend
    refine ⟨⟨_, hbackend, (Store.finish_fetchAwards hevent true).1⟩, ?_⟩
    intro y hy w respond hasked'
    obtain rfl := List.mem_singleton.1 hy
    obtain ⟨-, rfl⟩ := Prod.mk.inj (Option.some.inj (hasked.symm.trans hasked'))
    exact ⟨s, hevent, rfl⟩

/-- Moves leave the record of an event when nothing but its awards is asked for. -/
theorem play (h : d.Recorded event e) (hstep : d.board.InStep u) (ms : List Move)
    (hasks : ∀ x ∈ d.board.bodies (d.boardRun ms), x.AsksAwards event) :
    (d.play ms).Recorded event e ∧
      ∀ x ∈ d.board.bodies (d.boardRun ms), AnsweredFrom event e x := by
  induction ms generalizing d u with
  | nil => exact ⟨h, by simp [boardRun, Board.bodies]⟩
  | cons m ms ih =>
      rw [boardRun, Board.bodies_append, List.forall_mem_append] at hasks ⊢
      have hfirst := h.move hstep m hasks.1
      have hrest := ih hfirst.1 (hstep.run _) hasks.2
      exact ⟨hrest.1, hfirst.2, hrest.2⟩

end Recorded

/-- The bodies that end in a run. -/
def bodies (d : Desk) (es : List Event) : List Body :=
  d.board.bodies (d.boardRun (d.moveRun es))

/-- After an event of the store is selected on a board in use and then refreshed, the board shows
the event as it is on record, whatever users and pollers try to do in between. -/
theorem first_refresh_shows {b : Board} (hnew : b.IsNew) (past : List Board.Event) {d : Desk}
    (hboard : d.board = b.run past) {s : Store} (hstore : d.backend = .store s)
    (hevent : s.event? event = some e) (he : e.Unambiguous) {es : List Event}
    (hrefreshed : Board.FirstRefreshed event (d.bodies es)) :
    let v := (d.run es).board.view
    v.eventId = some event ∧ v.divisionsRendered = true ∧ v.ShowsEvent e ∧
      (d.run es).Recorded event e := by
  intro v
  have hstep : d.board.InStep _ := hboard ▸ hnew.inStep.run past
  rcases hrefreshed.serial_eq fun _ _ _ => hstep.agrees_run with
    ⟨hasks, x, hx, respond, data, hasked, hgot, hserial⟩
  have hrecorded : d.Recorded event e := ⟨s, hstore, hevent⟩
  rcases hrecorded.play hstep (d.moveRun es) hasks with ⟨hend, hanswered⟩
  rcases hanswered x hx _ _ hasked with ⟨s', hs', rfl⟩
  obtain rfl := (Store.finish_fetchAwards hs' true).2 data hgot
  -- The board shows what the bodies would have shown one after another.
  have hplay := run_eq_play hstep es
  have hview : v.Alike ((View.layOut { eventId := some event }
      (Store.divisionRows e.byPriority)).fill e.awards) := by
    have halike := (hstep.run (d.boardRun (d.moveRun es))).follows.alike
    rw [← board_play, ← hplay] at halike
    exact halike.trans (.of_eq hserial)
  have hlaid := ((View.laidOut_layOut rfl (Store.divisionRows e.byPriority)).fill
    e.awards).of_alike hview
  exact ⟨hlaid.event, hlaid.rendered, (he.showsEvent _).of_alike hview, hplay ▸ hend⟩

/-- An event with two divisions, in which the first award of one has passed to another awardee. -/
def passedOn : Store.Event where
  divisions :=
    [{ divId := 1, rsuDivId := 101, name := "Women", numAwards := 2, gender := some "F" },
      { divId := 2, rsuDivId := 102, name := "Men", numAwards := 1, gender := some "M" }]
  awardees :=
    [{ awardeeId := 7, divId := 1, place := 1, name := "Ada", bib := "12", active := false },
      { awardeeId := 8, divId := 1, place := 1, name := "Eva", bib := "14" }]

/-- A new board on a store with {lit}`passedOn`, which takes 10 milliseconds to answer. -/
def passedOnDesk : Desk where
  board := { gate := { name := "awards", options := {} } }
  backend := .store { events := [(1, passedOn)] }
  latency := 10

/-- The event is selected; one refresh meets a failure, and the next one succeeds. -/
def refreshing : List Event :=
  [.start 0 (.selectEvent 1), .fail "down",
    .start 0 .refresh, .resume 10 { job := 1, due := some 10 },
    .start 20 .refresh, .resume 30 { job := 2, due := some 30 }]

/-- After the refresh that succeeds the award is shown with the awardee to whom it has passed. -/
theorem first_refresh_shows_passedOn :
    passedOn.Unambiguous ∧ Board.FirstRefreshed 1 (passedOnDesk.bodies refreshing) ∧
      (passedOnDesk.run refreshing).board.view.ShowsEvent passedOn ∧
      ∃ c, (passedOnDesk.run refreshing).board.view.cell? ⟨101, 1⟩ = some c ∧
        c.name = some "Eva" := by
  have hevent : passedOn.Unambiguous := by
    constructor <;> simp [passedOn]
  have hrefreshed : Board.FirstRefreshed 1 (passedOnDesk.bodies refreshing) := by
    refine ⟨_, [_], _, rfl, rfl, ?_, rfl, _, rfl⟩
    refine List.forall_mem_singleton.2 ⟨fun e => ?_, fun _ o => ?_⟩
    · exact nofun
    · exact nofun
  have hnew : passedOnDesk.board.IsNew := .plain "awards" {}
  obtain ⟨-, -, hshows, -⟩ :=
    first_refresh_shows hnew [] rfl rfl rfl hevent hrefreshed
  have hcell := hshows.cells _ List.mem_cons_self 1 (by decide) (by decide)
  rcases hcell with ⟨c, hc, hplace⟩
  have htaken := hplace.taken { awardeeId := 8, divId := 1, place := 1, name := "Eva", bib := "14" }
    (by simp [passedOn]) rfl rfl rfl
  exact ⟨hevent, hrefreshed, hshows, c, hc, htaken.2.1⟩

end Desk
end AwardsDesk
