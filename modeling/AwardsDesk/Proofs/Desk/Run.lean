import AwardsDesk.Desk.Watch
import AwardsDesk.Proofs.Board.Shown

/-!
# Runs of a desk

What happens to a desk, with its pollers or without.  Every event at a desk is made of
moves, each of which does one thing to the board or to the backend: an action is started, a
request begins, its answer is shown.  What moves keep, every run of a desk keeps.

Main definitions:

- Inductive type {lit}`Desk.Move` and functions {lit}`Desk.move` and {lit}`Desk.play`.
- Inductive type {lit}`Desk.Event` and functions {lit}`Desk.step` and {lit}`Desk.run`.
- Inductive type {lit}`Watch.Event` and functions {lit}`Watch.step` and {lit}`Watch.after`.

Main results:

- Theorem {lit}`Desk.board_play`: what moves do to the board is a run of it.
- Theorem {lit}`Desk.run_eq_play`: every run of a desk is made of moves.
- Theorem {lit}`Watch.desk_after`: what pollers do at a desk is a run of it.
-/

namespace AwardsDesk

open Board (Request Error Outcome Action)

/-! ## Moves -/

/-- The next request to end will fail, if the backend is a store. -/
def Backend.arm : Backend → String → Backend
  | store s, reason => store (s.armFailure reason)
  | wire w, _ => wire w

namespace Desk

/-- One thing that is done to the board or the backend of a desk. -/
inductive Move where
  /-- An action is started. -/
  | start (now : Nat) (a : Action)
  /-- A job that waits for the gate goes on. -/
  | resume (now job : Nat)
  /-- A request begins. -/
  | request (r : Request)
  /-- The request of a job ends, and the job hears from the backend. -/
  | answer (job : Nat)
  /-- A job is given up. -/
  | cancel (job : Nat)
  /-- Somebody else uses the gate. -/
  | outside (e : Gate.Event)
  /-- The next request to end will fail. -/
  | fail (reason : String)

/-- What a move is for the board. -/
def boardEvent? (d : Desk) : Move → Option Board.Event
  | .start now a => some (.start now a)
  | .resume now job => some (.resume now job)
  | .request _ => none
  | .answer job => some (.answer job fun r => (d.backend.finish r).2)
  | .cancel job => some (.cancel job)
  | .outside e => some (.outside e)
  | .fail _ => none

/-- The backend after a move. -/
def backendAfter (d : Desk) : Move → Backend
  | .request r => d.backend.begin r
  | .answer job =>
    match d.board.request? job with
    | some r => (d.backend.finish r).1
    | none => d.backend
  | .fail reason => d.backend.arm reason
  | _ => d.backend

/-- One move. -/
def move (d : Desk) (m : Move) : Desk :=
  { d with board := d.board.run (d.boardEvent? m).toList, backend := d.backendAfter m }

/-- Move after move. -/
def play (d : Desk) (ms : List Move) : Desk :=
  ms.foldl move d

/-- What moves are for the board. -/
def boardRun (d : Desk) : List Move → List Board.Event
  | [] => []
  | m :: ms => (d.boardEvent? m).toList ++ boardRun (d.move m) ms

/-- Moves from one on. -/
@[simp]
theorem play_cons (d : Desk) (m : Move) (ms : List Move) :
    d.play (m :: ms) = (d.move m).play ms :=
  rfl

/-- Moves go on where others ended. -/
theorem play_append (d : Desk) (ms more : List Move) :
    d.play (ms ++ more) = (d.play ms).play more := by
  simp [play]

/-- What moves do to the board is a run of it. -/
theorem board_play (d : Desk) (ms : List Move) :
    (d.play ms).board = d.board.run (d.boardRun ms) := by
  induction ms generalizing d with
  | nil => rfl
  | cons m ms ih =>
      rw [play_cons, ih, boardRun, Board.run_append]
      rfl

/-! ## Events -/

/-- Something that happens at a desk. -/
inductive Event where
  /-- An action is started. -/
  | start (now : Nat) (a : Action)
  /-- An action goes on. -/
  | resume (now : Nat) (e : Errand)
  /-- An action is given up. -/
  | cancel (e : Errand)
  /-- Somebody else uses the gate. -/
  | outside (e : Gate.Event)
  /-- The next request to end will fail. -/
  | fail (reason : String)

/-- One event. -/
def step (d : Desk) : Event → Desk
  | .start now a => (d.start now a).1
  | .resume now e => (d.resume now e).1
  | .cancel e => d.cancel e
  | .outside e => { d with board := d.board.outside e }
  | .fail reason => { d with backend := d.backend.arm reason }

/-- Event after event. -/
def run (d : Desk) (es : List Event) : Desk :=
  es.foldl step d

/-- The moves by which a request that has just been made is followed. -/
def followMoves (latency : Nat) : Board.Advance → List Move
  | .asking job r => .request r :: if latency = 0 then [.answer job] else []
  | _ => []

/-- The moves of an event. -/
def moves (d : Desk) : Event → List Move
  | .start now a => .start now a :: followMoves d.latency (d.board.start now a).2
  | .resume now e =>
    match e.due with
    | some due => if due ≤ now then [.answer e.job] else []
    | none => .resume now e.job :: followMoves d.latency (d.board.resume now e.job).2
  | .cancel e => [.cancel e.job]
  | .outside e => [.outside e]
  | .fail reason => [.fail reason]

/-- The moves of a run. -/
def moveRun (d : Desk) : List Event → List Move
  | [] => []
  | e :: es => d.moves e ++ moveRun (d.step e) es

/-- An answer to no request changes nothing. -/
theorem move_answer_of_none {d : Desk} {job : Nat} (h : d.board.request? job = none) :
    d.move (.answer job) = d := by
  have hanswer : ∀ respond, (d.board.answer job respond).1 = d.board := by
    intro respond
    unfold Board.answer
    unfold Board.request? at h
    split
    · rename_i hjob
      simp [hjob] at h
    · rfl
  simp only [move, boardEvent?, backendAfter, h, Option.toList, Board.run_cons, Board.run_nil,
    Board.step, hanswer]

/-- A request under way is answered in one move. -/
theorem answer_eq_move {d : Desk} {job : Nat} {r : Request} (h : d.board.request? job = some r) :
    (d.answer job r).1 = d.move (.answer job) := by
  simp only [move, boardEvent?, backendAfter, h, Option.toList, Board.run_cons, Board.run_nil,
    Board.step, answer]
  split <;> rfl

/-- A request that has just been made is followed in moves. -/
theorem follow_eq_play (d : Desk) (now : Nat) {advance : Board.Advance}
    (h : ∀ job r, advance = .asking job r → d.board.request? job = some r) :
    (d.follow now advance).1 = d.play (followMoves d.latency advance) := by
  cases advance with
  | ended result => rfl
  | waiting job => rfl
  | asking job r =>
      have hrequest : (d.move (.request r)).board.request? job = some r := h job r rfl
      simp only [follow, followMoves]
      split
      · exact answer_eq_move hrequest
      · rfl

/-- An event is made of moves. -/
theorem step_eq_play {d : Desk} {s : Board.View} (h : d.board.InStep s) (e : Event) :
    d.step e = d.play (d.moves e) := by
  cases e with
  | start now a =>
      have hfollow := follow_eq_play { d with board := (d.board.start now a).1 } now
        fun job r hasking => h.request?_of_asking (.start now a) (congrArg some hasking)
      exact hfollow
  | resume now e =>
      simp only [step, moves, resume]
      cases e.due with
      | none =>
          have hfollow := follow_eq_play { d with board := (d.board.resume now e.job).1 } now
            fun job r hasking => h.request?_of_asking (.resume now e.job) (congrArg some hasking)
          exact hfollow
      | some due =>
          by_cases hdue : due ≤ now
          · simp only [if_pos hdue]
            cases hrequest : d.board.request? e.job with
            | none => exact (move_answer_of_none hrequest).symm
            | some r => exact answer_eq_move hrequest
          · simp only [if_neg hdue]
            rfl
  | cancel e => rfl
  | outside e => rfl
  | fail reason => rfl

/-- A move leaves the board in step with some view. -/
theorem inStep_play {d : Desk} {s : Board.View} (h : d.board.InStep s) (ms : List Move) :
    (d.play ms).board.InStep (Board.serial s (d.board.bodies (d.boardRun ms))) := by
  rw [board_play]
  exact h.run _

/-- Every run of a desk is made of moves. -/
theorem run_eq_play {d : Desk} {s : Board.View} (h : d.board.InStep s) (es : List Event) :
    d.run es = d.play (d.moveRun es) := by
  induction es generalizing d s with
  | nil => rfl
  | cons e es ih =>
      have hstep := step_eq_play h e
      have hnext : (d.step e).board.InStep _ := hstep ▸ inStep_play h (d.moves e)
      rw [moveRun, play_append, ← hstep]
      exact ih hnext

end Desk

/-! ## Pollers -/

namespace Watch

/-- Something that happens at a desk with pollers. -/
inductive Event where
  /-- Somebody does something at the desk. -/
  | desk (e : Desk.Event)
  /-- A poller is started. -/
  | addPoller (period : Nat)
  /-- A poller is told to stop. -/
  | signal (poller : Nat)
  /-- The pollers and their cycles go on as far as they can. -/
  | pass (now : Nat)

/-- One event. -/
def step (w : Watch) : Event → Watch
  | .desk e => { w with desk := w.desk.step e }.wakeGranted
  | .addPoller period => (w.addPoller period).1
  | .signal poller => w.signal poller
  | .pass now => w.run now

/-- Event after event. -/
def after (w : Watch) (es : List Event) : Watch :=
  es.foldl step w

/-- What a cycle does at the desk when it goes on. -/
def Cycle.event (now : Nat) (c : Cycle) : Desk.Event :=
  match c.errand with
  | none => .start now .refresh
  | some e => .resume now e

/-- What a ticker or a cycle does at the desk when it runs. -/
def taskEvents (w : Watch) (now : Nat) : Task → List Desk.Event
  | .ticker _ => []
  | .cycle id => ((w.cycle? id).map (Cycle.event now)).toList

/-- What the tasks that are awake do at the desk in a number of turns. -/
def turnEvents (now : Nat) : Nat → Watch → List Desk.Event
  | 0, _ => []
  | turns + 1, w =>
    match w.agenda.woken with
    | [] => []
    | t :: rest =>
      let w := { w with agenda.woken := rest }
      w.taskEvents now t ++ turnEvents now turns (w.runTask now t)

/-- What happens at the desk in an event. -/
def deskEvents (w : Watch) : Event → List Desk.Event
  | .desk e => [e]
  | .addPoller _ => []
  | .signal _ => []
  | .pass now => turnEvents now (w.turns now) { w with agenda := w.agenda.ring now }

/-- What happens at the desk in a run. -/
def deskRun (w : Watch) : List Event → List Desk.Event
  | [] => []
  | e :: es => w.deskEvents e ++ deskRun (w.step e) es

/-- Waking a cycle does nothing at the desk. -/
@[simp]
theorem desk_wakeGranted (w : Watch) : w.wakeGranted.desk = w.desk := by
  unfold wakeGranted
  repeat' split
  all_goals rfl

/-- Starting cycles does nothing at the desk. -/
@[simp]
theorem desk_spawn (w : Watch) (n k : Nat) : (w.spawn n k).desk = w.desk := by
  induction k generalizing w with
  | zero => rfl
  | succ k ih => exact ih _

/-- A ticker does nothing at the desk itself. -/
@[simp]
theorem desk_runTicker (w : Watch) (now n : Nat) : (w.runTicker now n).desk = w.desk := by
  unfold runTicker
  cases w.pollers[n]? with
  | none => rfl
  | some p => exact desk_spawn _ n _

/-- What a cycle does when it goes on is one thing. -/
theorem Cycle.desk_go (c : Cycle) (d : Desk) (now : Nat) :
    (c.go d now).1 = d.step (c.event now) := by
  unfold Cycle.go Cycle.event
  cases c.errand with
  | none => rfl
  | some e => rfl

/-- A cycle that goes on does one thing at the desk. -/
theorem desk_runCycle (w : Watch) (now : Nat) (c : Cycle) :
    (w.runCycle now c).desk = w.desk.step (c.event now) := by
  rw [← Cycle.desk_go]
  simp only [runCycle]
  split <;> rfl

/-- What a task does at the desk. -/
theorem desk_runTask (w : Watch) (now : Nat) (t : Task) :
    (w.runTask now t).desk = w.desk.run (w.taskEvents now t) := by
  cases t with
  | ticker n => exact desk_runTicker w now n
  | cycle id =>
      simp only [runTask, taskEvents]
      cases w.cycle? id with
      | none => rfl
      | some c =>
          simp only [desk_wakeGranted, desk_runCycle]
          rfl

/-- What the tasks that are awake do at the desk. -/
theorem desk_runTurns (now turns : Nat) (w : Watch) :
    (runTurns now turns w).desk = w.desk.run (turnEvents now turns w) := by
  induction turns generalizing w with
  | zero => rfl
  | succ turns ih =>
      simp only [runTurns, turnEvents]
      cases w.agenda.woken with
      | nil => rfl
      | cons t rest =>
          simp only [ih, desk_runTask, Desk.run, List.foldl_append]

/-- What happens at the desk in an event is what happens to it. -/
theorem desk_step (w : Watch) (e : Event) : (w.step e).desk = w.desk.run (w.deskEvents e) := by
  cases e with
  | desk e => exact desk_wakeGranted _
  | addPoller period => rfl
  | signal poller =>
      simp only [step, deskEvents, signal]
      split <;> rfl
  | pass now => exact desk_runTurns now _ _

/-- What happens at the desk in a run is what happens to it. -/
theorem desk_after (w : Watch) (es : List Event) :
    (w.after es).desk = w.desk.run (w.deskRun es) := by
  induction es generalizing w with
  | nil => rfl
  | cons e es ih =>
      have hafter : w.after (e :: es) = (w.step e).after es := rfl
      rw [hafter, ih, desk_step, deskRun, Desk.run, Desk.run, Desk.run, List.foldl_append]

end Watch
end AwardsDesk
