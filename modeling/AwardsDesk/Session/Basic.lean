import AwardsDesk.Progress

/-!
# Sessions

A session runs calls in a world under a clock.  A call that cannot end at once is
pending under its name, and goes on when the session settles: the world's own tasks
run as far as they can, then each pending call in order does, and this is repeated
until no call ends.

Main definitions:

- Class {lit}`Callable`: a world with calls.
- Function {lit}`Session.settle`: lets every pending call go on.
- Function {lit}`Session.run`: one step of a session, with the calls that ended in it.

Main results:

- Theorem {lit}`Session.length_sweep`: no pending call is lost; each goes on waiting
  or ends.
-/

namespace AwardsDesk

/-- Why a step of a session was refused. -/
inductive Refusal where
  | unknownGate
  | unknownTicket
  | unknownCall
  | unknownPoller
  | unknownStep
  | nameInUse
  | periodNotPositive
deriving DecidableEq, Repr

/-- The refusal in words. -/
def Refusal.message : Refusal → String
  | unknownGate => "unknown gate"
  | unknownTicket => "unknown ticket"
  | unknownCall => "unknown call"
  | unknownPoller => "unknown poller"
  | unknownStep => "unknown step"
  | nameInUse => "name in use"
  | periodNotPositive => "period must be positive"

/-- A world {lit}`σ` with calls {lit}`κ`: the steps {lit}`δ` that it takes, some of which
start calls, and the results {lit}`ρ`. -/
class Callable (σ κ : Type) (δ ρ : outParam Type) where
  /-- The world's own tasks run as far as they can. -/
  background : (now : Nat) → σ → σ
  /-- The name under which a step starts a call. -/
  callName? : δ → Option String
  /-- Whether the world keeps something under a name. -/
  keeps : σ → String → Bool
  /-- A step is taken; a call that it starts goes as far as it can. -/
  act : (now : Nat) → σ → δ → Except Refusal (σ × Progress κ ρ)
  /-- A call goes on as far as it can. -/
  resume : (now : Nat) → σ → κ → σ × Progress κ ρ
  /-- A call is given up. -/
  abandon : σ → κ → σ
  /-- A call has ended, and the world keeps what it brought. -/
  keep : σ → String → ρ → σ

/-- A call under way, by name and by number of start. -/
structure Pending (κ : Type) where
  name : String
  serial : Nat
  call : κ

/-- A call that has ended, and when. -/
structure Ended (ρ : Type) where
  name : String
  serial : Nat
  time : Nat
  result : ρ

/-- A session: the clock, the world, the calls under way in order of their start,
and how many calls have been started. -/
structure Session (σ κ : Type) where
  clock : Nat := 0
  world : σ
  pending : List (Pending κ) := []
  started : Nat := 0

/-- What is left after each pending call went on once. -/
structure Swept (σ κ ρ : Type) where
  world : σ
  pending : List (Pending κ) := []
  ended : List (Ended ρ) := []

/-- A step of a session other than the passing of time under observation. -/
inductive Step (δ : Type) where
  /-- The clock jumps. -/
  | skip (ms : Nat)
  /-- A pending call is given up. -/
  | cancel (call : String)
  | act (step : δ)
  /-- A step that there is not. -/
  | unknown

/-- Something that happens in a session and after which it settles. -/
inductive Move (δ : Type) where
  /-- The clock runs, the session settling after each millisecond. -/
  | advance (ms : Nat)
  | step (s : Step δ)
  /-- Several steps with no settling between them. -/
  | batch (steps : List (Step δ))

/-- What a step gives. -/
inductive Reply (ρ : Type) where
  | nothing
  | result (r : ρ)
  /-- A call was started and has not ended. -/
  | pending (serial : Nat)
  | refused (why : Refusal)

/-- What a move gives. -/
inductive MoveReply (ρ : Type) where
  | one (reply : Reply ρ)
  | many (replies : List (Reply ρ))

/-- What is known after a move: its reply, and the other calls that ended in it. -/
structure Report (ρ : Type) where
  reply : MoveReply ρ
  ended : List (Ended ρ)
  time : Nat

namespace Session

variable {σ δ κ ρ : Type} [Callable σ κ δ ρ]

/-! ## Settling -/

/-- Lets each call of a list go on once, in order. -/
def sweep (now : Nat) : List (Pending κ) → σ → Swept σ κ ρ
  | [], world => { world }
  | p :: rest, world =>
    match Callable.resume now world p.call with
    | (world, .waiting call) =>
      let s := sweep now rest world
      { s with pending := { p with call } :: s.pending }
    | (world, .ended result) =>
      let s := sweep now rest (Callable.keep κ world p.name result)
      { s with ended := { name := p.name, serial := p.serial, time := now, result } :: s.ended }

/-- Each call goes on waiting or ends. -/
theorem length_sweep (now : Nat) (ps : List (Pending κ)) (w : σ) :
    (sweep now ps w).pending.length + (sweep now ps w).ended.length = ps.length := by
  induction ps generalizing w with
  | nil => rfl
  | cons p rest ih =>
    rcases h : Callable.resume now w p.call with ⟨w', call | result⟩
    · have := ih w'
      simp only [sweep, h, List.length_cons]
      omega
    · have := ih (Callable.keep κ w' p.name result)
      simp only [sweep, h, List.length_cons]
      omega

/-- Lets every call go on until none ends any more. -/
def settle (s : Session σ κ) : Session σ κ × List (Ended ρ) :=
  let swept := sweep s.clock s.pending (Callable.background κ s.clock s.world)
  let next := { s with world := swept.world, pending := swept.pending }
  if swept.ended = [] then (next, [])
  else
    let (last, more) := settle next
    (last, swept.ended ++ more)
termination_by s.pending.length
decreasing_by
  have hl := length_sweep s.clock s.pending (Callable.background κ s.clock s.world)
  have := List.length_pos_iff.2 ‹_›
  simp only [swept] at this ⊢
  omega

/-- The clock runs for a number of milliseconds, the session settling after each.  The
calls that ended are added, last first, to those given. -/
def advance : Nat → Session σ κ → List (Ended ρ) → Session σ κ × List (Ended ρ)
  | 0, s, ended => (s, ended)
  | ms + 1, s, ended =>
    let (s, more) := settle { s with clock := s.clock + 1 }
    advance ms s (more.reverse ++ ended)

/-! ## Steps -/

/-- Whether a call of this name is under way. -/
def isPending (s : Session σ κ) (name : String) : Bool :=
  s.pending.any (·.name == name)

/-- Whether a step would start a call under a name that is taken. -/
def nameTaken (s : Session σ κ) (step : δ) : Bool :=
  match Callable.callName? σ κ step with
  | some name => s.isPending name || Callable.keeps κ s.world name
  | none => false

/-- Takes a step of the world. -/
def act (s : Session σ κ) (step : δ) : Session σ κ × Reply ρ :=
  if s.nameTaken step then (s, .refused .nameInUse)
  else
    match Callable.act s.clock s.world step with
    | .error why => (s, .refused why)
    | .ok (world, progress) =>
      let name := Callable.callName? σ κ step
      match progress, name with
      | .ended r, none => ({ s with world }, .result r)
      | .ended r, some name => ({ s with world := Callable.keep κ world name r }, .result r)
      | .waiting call, name =>
        ({ s with
            world
            pending := s.pending ++ [{ name := name.getD "", serial := s.started, call }]
            started := s.started + 1 },
          .pending s.started)

/-- Gives up the pending call of a name. -/
def cancel (s : Session σ κ) (name : String) : Session σ κ × Reply ρ :=
  match s.pending.find? (·.name == name) with
  | none => (s, .refused .unknownCall)
  | some p =>
    ({ s with
        world := Callable.abandon s.world p.call
        pending := s.pending.eraseP (·.name == name) },
      .nothing)

/-- Takes one step, without settling. -/
def step (s : Session σ κ) : Step δ → Session σ κ × Reply ρ
  | .skip ms => ({ s with clock := s.clock + ms }, .nothing)
  | .cancel name => s.cancel name
  | .act d => s.act d
  | .unknown => (s, .refused .unknownStep)

/-- Takes steps one after another, without settling. -/
def steps (s : Session σ κ) : List (Step δ) → Session σ κ × List (Reply ρ)
  | [] => (s, [])
  | d :: rest =>
    let (s, reply) := s.step d
    let (s, replies) := s.steps rest
    (s, reply :: replies)

/-! ## Moves -/

/-- The reply of a step whose call has ended meanwhile is the call's result. -/
def complete (ended : List (Ended ρ)) : Reply ρ → Reply ρ
  | .pending serial =>
    match ended.find? (·.serial == serial) with
    | some e => .result e.result
    | none => .pending serial
  | reply => reply

/-- Whether a call was started by the step with this reply. -/
def startedBy (reply : Reply ρ) (e : Ended ρ) : Bool :=
  match reply with
  | .pending serial => serial == e.serial
  | _ => false

/-- Makes a move and settles.  A call that is started and ends in a single step is
the reply; a call that ends later is listed, also one started in a batch. -/
def run (s : Session σ κ) : Move δ → Session σ κ × Report ρ
  | .advance ms =>
    let (s, ended) := s.advance ms []
    let (s, more) := s.settle
    (s, { reply := .one .nothing, ended := ended.reverse ++ more, time := s.clock })
  | .step d =>
    let (s, reply) := s.step d
    let (s, ended) := s.settle
    (s,
      { reply := .one (complete ended reply)
        ended := ended.filter fun e => !startedBy reply e
        time := s.clock })
  | .batch ds =>
    let (s, replies) := s.steps ds
    let (s, ended) := s.settle
    (s, { reply := .many replies, ended, time := s.clock })

end Session
end AwardsDesk
