import AwardsDesk.Proofs.Board.Sound
import AwardsDesk.Proofs.Desk.Faithful

/-!
# No drift

A board never drifts from its store.  Every change of a record by the board is shown before
the gate is given back, and nobody else who has the gate sees the board in between, so what
is shown is what is on record, whoever toggles awards, saves notes, selects events, gives up
or polls at the same time.  No toggle is lost either.

Main definitions:

- Inductive type {lit}`Desk.Moved`: what a move does.
- Structure {lit}`Desk.Faithful`: the invariant of a desk with a store.

Main results:

- Theorem {lit}`Desk.moved`: a move asks nothing and leaves all records, or is the answer to a
  request.
- Theorems {lit}`Desk.Faithful.move` and {lit}`Desk.Faithful.play`: moves keep a desk
  faithful.
- Theorem {lit}`Watch.no_drift_after`: so does every run of a desk with pollers, and an award
  is turned over as often as it was toggled.
-/

namespace AwardsDesk

open Board (Request Error Outcome Action Await View Body Responder toggles)

/-! ## Boards -/

namespace Board

variable {b b' : Board} {u : View} {s : Store}

/-- The bodies of a run go on where those of another one ended. -/
theorem bodies_append (b : Board) (es more : List Event) :
    b.bodies (es ++ more) = b.bodies es ++ (b.run es).bodies more := by
  induction es generalizing b with
  | nil => rfl
  | cons e es ih => simp [bodies, ih]

/-- What happens without an answer keeps the view true to the store. -/
theorem Change.trueTo {reply : Option Advance} {es : List Gate.Event} {x : Option Body}
    (c : b.Change b' reply es x) (hquiet : ∀ y, x = some y → y.asked = none)
    (h : b.view.TrueTo s) : b'.view.TrueTo s := by
  cases c with
  | idle reply es still told quiet => exact h
  | outside e strange => exact h
  | queued now a early => exact h
  | gone j mem e about v reply fate =>
      rcases fate with ⟨rfl, -⟩ | ⟨rfl, -⟩
      · exact h.alike (j.action.alike_afterGateError b.view)
      · exact h
  | asking enters w begins => exact h.alike (.of_eq enters.view_eq)
  | done enters v result begins => exact h.begin_ended begins
  | answered j mem w stage respond =>
      have hnone := hquiet _ rfl
      contradiction

/-- The answer to the request of a job ends its body, and is shown. -/
theorem InStep.answered (h : b.InStep u) {id : Nat} {r : Request} (hrequest : b.request? id = some r)
    (respond : Responder) :
    ∃ w x, r = w.request ∧ w.Shown b.view ∧ b.body? (.answer id respond) = some x ∧
      x.asked = some (w, respond) ∧ x.result = (w.finish (respond w.request) b.view).2 ∧
      (b.step (.answer id respond)).1.view = (w.finish (respond w.request) b.view).1 := by
  have hsome : (b.request? id).isSome := by
    simp [hrequest]
  rcases job?_of_request? hsome with ⟨j, t, w, hjob, hstage⟩
  rcases mem_of_job? hjob with ⟨hmem, rfl⟩
  have hshown := h.shown hmem hstage
  have hanswer := h.answer_eq hjob hstage respond
  rcases j with ⟨id, action, stage⟩
  obtain rfl : stage = .calling t w := hstage
  let x : Body := ⟨t, action, some (w, respond), (w.finish (respond w.request) b.view).2⟩
  refine ⟨w, x, ?_, hshown, ?_, rfl, rfl, ?_⟩
  · simpa [request?, hjob, eq_comm] using hrequest
  · simp only [body?, hjob, hanswer]
    rfl
  · simp only [Board.step, hanswer]
    rfl

/-- No body ends when there is no request to be answered. -/
theorem body?_answer_of_none {id : Nat} (h : b.request? id = none) (respond : Responder) :
    b.body? (.answer id respond) = none := by
  unfold request? at h
  simp only [body?]
  split
  · rename_i hjob
    simp [hjob] at h
  · rfl

end Board

/-! ## Moves -/

namespace Desk

variable {d : Desk} {s : Store} {u : View}

/-- What a move does at a desk: it asks nothing and leaves the events of a store and what is
shown of them, or it is the answer of the backend to the request of a job. -/
inductive Moved (d : Desk) (m : Move) : Prop where
  | quiet
      (backend : ∀ s, d.backend = .store s →
        ∃ s', (d.move m).backend = .store s' ∧ ∀ id, s'.event? id = s.event? id)
      (asked : ∀ x ∈ d.board.bodies (d.boardEvent? m).toList, x.asked = none)
      (shown : ∀ s, d.board.view.TrueTo s → (d.move m).board.view.TrueTo s)
  | answered (w : Await) (x : Body) (shown : w.Shown d.board.view)
      (ended : d.board.bodies (d.boardEvent? m).toList = [x])
      (asked : x.asked = some (w, fun r => (d.backend.finish r).2))
      (result : x.result = (w.finish (d.backend.finish w.request).2 d.board.view).2)
      (view : (d.move m).board.view = (w.finish (d.backend.finish w.request).2 d.board.view).1)
      (backend : (d.move m).backend = (d.backend.finish w.request).1)

/-- A move that is nothing for the board asks nothing. -/
theorem moved_of_backend {m : Move} (hboard : d.boardEvent? m = none)
    (hbackend : ∀ s, d.backend = .store s →
      ∃ s', d.backendAfter m = .store s' ∧ ∀ id, s'.event? id = s.event? id) : d.Moved m := by
  have hmove : (d.move m).board = d.board := by
    rw [move, hboard]
    rfl
  refine .quiet hbackend ?_ fun s h => hmove ▸ h
  rw [hboard]
  exact fun x hx => absurd hx List.not_mem_nil

/-- A move without an answer asks nothing. -/
theorem moved_of_quiet (h : d.board.InStep u) {m : Move} {e : Board.Event}
    (hboard : d.boardEvent? m = some e) (hanswer : ∀ job respond, e ≠ .answer job respond)
    (hbackend : d.backendAfter m = d.backend) : d.Moved m := by
  have hbodies : d.board.bodies (d.boardEvent? m).toList = (d.board.body? e).toList := by
    rw [hboard]
    exact List.append_nil _
  have hmove : (d.move m).board = (d.board.step e).1 := by
    rw [move, hboard]
    rfl
  have hquiet : ∀ y, d.board.body? e = some y → y.asked = none := by
    intro y hy
    cases hasked : y.asked with
    | none => rfl
    | some asked =>
        rcases (Board.of_body? hy).2 asked.1 asked.2 hasked with ⟨id, heq, -⟩
        exact absurd heq (hanswer id asked.2)
  refine .quiet (fun s hs => ⟨s, hbackend.trans hs, fun _ => rfl⟩) ?_ fun s hs => ?_
  · rw [hbodies]
    exact fun x hx => hquiet x (by simpa using hx)
  · rw [hmove]
    exact (h.change e).trueTo hquiet hs

/-- A request that is answered is the one of a job, if there is one. -/
theorem moved_of_answer (h : d.board.InStep u) (job : Nat) : d.Moved (.answer job) := by
  have hboard : d.boardEvent? (.answer job) =
      some (.answer job fun r => (d.backend.finish r).2) := rfl
  cases hrequest : d.board.request? job with
  | none =>
      have hbodies : d.board.bodies (d.boardEvent? (.answer job)).toList = [] := by
        rw [hboard]
        simp [Board.bodies, Board.body?_answer_of_none hrequest]
      refine .quiet (fun s hs => ⟨s, ?_, fun _ => rfl⟩) ?_ fun s hs => ?_
      · rw [move_answer_of_none hrequest]
        exact hs
      · rw [hbodies]
        exact fun x hx => absurd hx List.not_mem_nil
      · rw [move_answer_of_none hrequest]
        exact hs
  | some r =>
      rcases h.answered hrequest (fun r => (d.backend.finish r).2) with
        ⟨w, x, rfl, hshown, hbody, hasked, hresult, hview⟩
      have hbodies : d.board.bodies (d.boardEvent? (.answer job)).toList = [x] := by
        rw [hboard]
        simp [Board.bodies, hbody]
      refine .answered w x hshown hbodies hasked hresult hview ?_
      simp only [move, backendAfter, hrequest]

/-- A move does nothing else. -/
theorem moved (h : d.board.InStep u) (m : Move) : d.Moved m := by
  cases m with
  | start now a => exact moved_of_quiet h rfl (by simp) rfl
  | resume now job => exact moved_of_quiet h rfl (by simp) rfl
  | cancel job => exact moved_of_quiet h rfl (by simp) rfl
  | outside e => exact moved_of_quiet h rfl (by simp) rfl
  | answer job => exact moved_of_answer h job
  | request r =>
      refine moved_of_backend rfl fun s hs => ⟨s.begin, ?_, fun _ => rfl⟩
      simp only [backendAfter, hs, Backend.begin]
  | fail reason =>
      refine moved_of_backend rfl fun s hs => ⟨s.armFailure reason, ?_, fun _ => rfl⟩
      simp only [backendAfter, hs, Backend.arm]

/-! ## Faithful desks -/

/-- The backend of a desk is a store in which no number is given twice, its board is in step,
and shows what is on record. -/
structure Faithful (d : Desk) (s : Store) (u : View) : Prop where
  backend : d.backend = .store s
  distinct : s.Distinct
  inStep : d.board.InStep u
  shown : d.board.view.TrueTo s

/-- What bodies have made of the records of awards. -/
def Turned (s s' : Store) (xs : List Body) : Prop :=
  ∀ event awardee,
    s'.pickedUp? event awardee = (s.pickedUp? event awardee).map not^[toggles event awardee xs]

/-- Records stay when nothing is asked and the store has the same events. -/
theorem turned_of_same {s s' : Store} {xs : List Body} (h : ∀ id, s'.event? id = s.event? id)
    (hxs : ∀ x ∈ xs, x.asked = none) : Turned s s' xs := by
  intro event awardee
  have hzero : toggles event awardee xs = 0 := by
    refine List.countP_eq_zero.2 fun x hx => ?_
    simp [Body.toggles, hxs x hx]
  rw [Store.pickedUp?_congr (h event), hzero]
  simp

/-- Bodies turn over what others have left. -/
theorem Turned.append {s s' s'' : Store} {xs more : List Body} (h : Turned s s' xs)
    (h' : Turned s' s'' more) : Turned s s'' (xs ++ more) := by
  intro event awardee
  rw [h' event awardee, h event awardee, Option.map_map, Board.toggles_append, Nat.add_comm,
    Function.iterate_add]

namespace Faithful

/-- What a move leaves of a faithful desk: a faithful desk, with the records turned over by
the body that has ended. -/
def Left (d : Desk) (s : Store) (u : View) (m : Move) : Prop :=
  ∃ s', (d.move m).Faithful s' (Board.serial u (d.board.bodies (d.boardEvent? m).toList)) ∧
    Turned s s' (d.board.bodies (d.boardEvent? m).toList)

/-- Every move keeps a desk faithful. -/
theorem move (h : d.Faithful s u) (m : Move) : Left d s u m := by
  have hstep := h.inStep.run (d.boardEvent? m).toList
  rcases moved h.inStep m with ⟨hbackend, hasked, hview⟩ |
    ⟨w, x, hshown, hended, hasked, hresult, hview, hbackend⟩
  · rcases hbackend s h.backend with ⟨s', hs', hsame⟩
    refine ⟨s', ⟨hs', ?_, hstep, ?_⟩, turned_of_same hsame hasked⟩
    · intro id e he
      exact h.distinct id e ((hsame id).symm.trans he)
    · exact (hview s h.shown).congr (.refl _) hsame
  · have hfinish : d.backend.finish w.request =
        (.store (s.finish w.request).1, (s.finish w.request).2) := by
      rw [h.backend]
      rfl
    rw [hfinish] at hresult hview hbackend
    refine ⟨(s.finish w.request).1, ⟨hbackend, h.distinct.finish w.request, hstep, ?_⟩, ?_⟩
    · exact hview ▸ h.shown.finish h.distinct hshown
    · rw [hended]
      exact h.shown.pickedUp?_finish hshown hasked hresult

/-- Moves keep a desk faithful. -/
theorem play (h : d.Faithful s u) (ms : List Move) :
    ∃ s', (d.play ms).Faithful s' (Board.serial u (d.board.bodies (d.boardRun ms))) ∧
      Turned s s' (d.board.bodies (d.boardRun ms)) := by
  induction ms generalizing d s u with
  | nil => exact ⟨s, h, turned_of_same (fun _ => rfl) (by simp [boardRun, Board.bodies])⟩
  | cons m ms ih =>
      rcases h.move m with ⟨s', hnext, hturned⟩
      rcases ih hnext with ⟨s'', hend, hlater⟩
      rw [boardRun, Board.bodies_append, Board.serial_append]
      exact ⟨s'', hend, hturned.append hlater⟩

end Faithful
end Desk

/-! ## Pollers -/

namespace Watch

/-- What happens to the board in a run. -/
def boardRun (w : Watch) (es : List Event) : List Board.Event :=
  w.desk.boardRun (w.desk.moveRun (w.deskRun es))

/-- The bodies that end in a run. -/
def bodies (w : Watch) (es : List Event) : List Body :=
  w.desk.board.bodies (w.boardRun es)

/-- A run of a desk with pollers is made of moves. -/
theorem desk_eq_play {w : Watch} {u : View} (h : w.desk.board.InStep u) (es : List Event) :
    (w.after es).desk = w.desk.play (w.desk.moveRun (w.deskRun es)) := by
  rw [desk_after]
  exact Desk.run_eq_play h _

/-- In every run of a new board on a store that gives no number twice, with pollers, the board
shows what is on record for the event that is shown, and asks only about that event; and the
award of an awardee has been turned over as often as it was toggled, on record as well as in
every cell that shows it. -/
theorem no_drift_after {w : Watch} {s : Store} (hnew : w.desk.board.IsNew)
    (hstore : w.desk.backend = .store s) (hdistinct : s.Distinct) (es : List Event) :
    let b := (w.after es).desk.board
    b = w.desk.board.run (w.boardRun es) ∧
      ∃ s', (w.after es).desk.backend = .store s' ∧ b.view.TrueTo s' ∧
        (∀ job r, b.request? job = some r → b.view.eventId = some (Store.requestEvent r)) ∧
        ∀ event awardee,
          let turn := not^[toggles event awardee (w.bodies es)]
          s'.pickedUp? event awardee = (s.pickedUp? event awardee).map turn ∧
            ∀ key c, b.view.eventId = some event → b.view.cell? key = some c →
              c.awardeeId = some awardee →
              some c.pickedUp = (s.pickedUp? event awardee).map turn := by
  intro b
  have hplay := desk_eq_play hnew.inStep es
  have hempty : w.desk.board.view.TrueTo s := by
    rcases hnew.eq with ⟨name, options, event, heq⟩
    rw [heq]
    exact View.TrueTo.of_empty rfl
  have hbegin : w.desk.Faithful s w.desk.board.view := ⟨hstore, hdistinct, hnew.inStep, hempty⟩
  rcases hbegin.play (w.desk.moveRun (w.deskRun es)) with ⟨s', hend, hturned⟩
  rw [← hplay] at hend
  refine ⟨?_, s', hend.backend, hend.shown, ?_, ?_⟩
  · have hboard := congrArg Desk.board hplay
    rw [Desk.board_play] at hboard
    exact hboard
  · intro job r hrequest
    rcases hend.inStep.answered hrequest (fun r => (w.desk.backend.finish r).2) with
      ⟨a, x, rfl, hshown, -⟩
    exact hshown.eventId_eq
  · intro event awardee turn
    have hrecord := hturned event awardee
    refine ⟨hrecord, ?_⟩
    intro key c hevent hcell hholder
    rcases hend.shown key c hcell with ⟨id, e, hid, he, d, -, -, -, hrecords⟩
    rcases hrecords awardee hholder with ⟨a, ha, -, -, hpicked, -⟩
    obtain rfl : event = id := Option.some.inj (hevent.symm.trans hid)
    have hfound : s'.pickedUp? event awardee = some a.pickedUp := by
      rw [Store.pickedUp?, Store.awardee?, he, Option.bind_some, ha]
      rfl
    exact (congrArg some hpicked).trans (hfound.symm.trans hrecord)

/-- A store with the award of one awardee. -/
def oneAward : Store where
  events := [(1,
    { divisions := [Board.openDivision]
      awardees := [{ awardeeId := 7, divId := 1, place := 1, name := "Ada", bib := "12" }] })]

/-- A new board on {lit}`oneAward`, which takes 10 milliseconds to answer. -/
def oneAwardWatch : Watch where
  desk :=
    { board := { gate := { name := "awards", options := {} } }
      backend := .store oneAward
      latency := 10 }

/-- A poller refreshes the board; one toggle succeeds, the next one meets a failure, and the
last one is given up while the store looks into it. -/
def toggling : List Event :=
  [.desk (.start 0 (.selectEvent 1)), .addPoller 5000, .pass 0, .pass 10,
    .desk (.start 20 (.toggle ⟨101, 1⟩)), .desk (.start 20 (.toggle ⟨101, 1⟩)),
    .desk (.resume 30 { job := 2, due := some 30 }), .desk (.fail "down"),
    .desk (.resume 30 { job := 3 }), .desk (.resume 40 { job := 3, due := some 40 }),
    .desk (.start 50 (.toggle ⟨101, 1⟩)), .desk (.cancel { job := 4, due := some 60 })]

/-- An award that was toggled once is shown turned over, and is so on record. -/
theorem no_drift_toggled :
    toggles 1 7 (oneAwardWatch.bodies toggling) = 1 ∧
      ((oneAwardWatch.after toggling).desk.board.view.cell? ⟨101, 1⟩).map Board.Cell.pickedUp =
        some true ∧
      ∃ s', (oneAwardWatch.after toggling).desk.backend = .store s' ∧
        s'.pickedUp? 1 7 = some true := by
  have hcount : toggles 1 7 (oneAwardWatch.bodies toggling) = 1 := by
    decide +kernel
  have hshown : ((oneAwardWatch.after toggling).desk.board.view.cell? ⟨101, 1⟩).map
      Board.Cell.pickedUp = some true := by
    decide +kernel
  have hdistinct : oneAward.Distinct := by
    intro id e he
    simp only [Store.event?, oneAward, List.lookup_cons, List.lookup_nil] at he
    split at he
    · obtain rfl := Option.some.inj he
      constructor <;> simp
    · simp at he
  have hnew : oneAwardWatch.desk.board.IsNew := .plain "awards" {}
  have hdrift := no_drift_after hnew rfl hdistinct toggling
  rcases hdrift with ⟨-, s', hstore, -, -, hturned⟩
  have hrecord := (hturned 1 7).1
  rw [hcount] at hrecord
  exact ⟨hcount, hshown, s', hstore, hrecord⟩

end Watch
end AwardsDesk
