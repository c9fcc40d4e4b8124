import AwardsDesk.Desk.Watch
import AwardsDesk.Session.Basic

/-!
# Sessions with a board

Actions on a board, requests straight to its backend, tickets of its gate taken by
hand, and pollers.  The view is reported when it has changed.

Main definitions:

- Structure {lit}`BoardSession.World`: a desk with pollers, and what is kept by name.
- Function {lit}`BoardSession.run`: a move, with what it shows of the board.
-/

namespace AwardsDesk
namespace BoardSession

open Board (Request Error Action)

/-- A desk with pollers, the tickets kept by name, and the pollers by name. -/
structure World where
  watch : Watch
  tickets : List (String × Nat) := []
  names : List (String × Nat) := []
deriving Repr, Inhabited

/-- A call under way. -/
inductive Call where
  | action (e : Desk.Errand)
  /-- A request straight to the backend, and when it is answered. -/
  | request (r : Request) (due : Nat)
  /-- A request for a ticket of the gate. -/
  | ticket (request : Nat)
  /-- The end of a poller. -/
  | stop (poller : Nat)
deriving Repr

/-- What a step or a call brings. -/
inductive Outcome where
  | nothing
  | action (o : Board.Outcome)
  | awards (d : AwardsData)
  | status (s : PickupStatus)
  | text (s : String)
  | ticket (id : Nat)
  | stats (s : Poller.Stats)
  | awardee (a : Option Store.Awardee)
  | error (e : Error)
  | gateError (e : Gate.Error)

/-- A change of the store by hand. -/
inductive Entry where
  | division (d : Division)
  | awardee (a : Store.Awardee)
  | replacement (a : Store.Awardee)

/-- A step of a session with a board. -/
inductive Command where
  | action (name : String) (a : Action)
  | request (name : String) (r : Request)
  | acquire (name : String)
  | lock (ticket : String)
  | unlock (ticket : String)
  | drop (ticket : String)
  | startPoller (poller : String) (period : Nat)
  | stats (poller : String)
  | signal (poller : String)
  | dropPoller (poller : String)
  | stopPoller (name poller : String)
  | enter (event : UInt64) (entry : Entry)
  | failNext (reason : String)
  | awardee (event id : UInt64)

/-- The name under which a step starts a call. -/
def Command.callName? : Command → Option String
  | .action name _ => some name
  | .request name _ => some name
  | .acquire name => some name
  | .stopPoller name _ => some name
  | _ => none

namespace World

/-- The board. -/
def board (w : World) : Board :=
  w.watch.desk.board

/-- The backend. -/
def backend (w : World) : Backend :=
  w.watch.desk.backend

/-- Changes the desk. -/
def withDesk (w : World) (desk : Desk) : World :=
  { w with watch := { w.watch with desk } }

/-- Changes the gate of the board. -/
def withGate (w : World) (gate : Gate) : World :=
  w.withDesk { w.watch.desk with board := { w.board with gate } }

/-- Changes the backend. -/
def withBackend (w : World) (backend : Backend) : World :=
  w.withDesk { w.watch.desk with backend }

/-- The ticket kept under a name. -/
def ticket? (w : World) (name : String) : Except Refusal Nat :=
  match w.tickets.lookup name with
  | some id => .ok id
  | none => .error .unknownTicket

/-- The poller of a name. -/
def poller? (w : World) (name : String) : Except Refusal Nat :=
  match w.names.lookup name with
  | some n => .ok n
  | none => .error .unknownPoller

/-- Forgets the name of a poller. -/
def forgetPoller (w : World) (name : String) : World :=
  { w with names := w.names.eraseP (·.1 == name) }

/-- The store, if the backend is one. -/
def store? (w : World) : Except Refusal Store :=
  match w.backend with
  | .store s => .ok s
  | .wire _ => .error .unknownStep

/-- What an action brought. -/
def outcomeOf : Except Error Board.Outcome → Outcome
  | .ok o => .action o
  | .error e => .error e

/-- What a request brought. -/
def answerOf : (r : Request) → Except Error r.Answer → Outcome
  | _, .error e => .error e
  | .fetchAwards .., .ok (d : AwardsData) => .awards d
  | .setPickedUp .., .ok (s : PickupStatus) => .status s
  | .fetchNotes .., .ok (s : String) => .text s
  | .saveNotes .., .ok (s : String) => .text s

/-- Tells how far an action got. -/
def actionProgress (w : World) : Desk × Desk.Run → World × Progress Call Outcome
  | (desk, .waiting e) => (w.withDesk desk, .waiting (.action e))
  | (desk, .ended result) => (w.withDesk desk, .ended (outcomeOf result))

/-- A request straight to the backend ends. -/
def finishRequest (w : World) (r : Request) : World × Progress Call Outcome :=
  let (backend, answer) := w.backend.finish r
  (w.withBackend backend, .ended (answerOf r answer))

/-- Changes the ticket of a name, unless that is an error. -/
def changeTicket (w : World) (id : Nat) (change : Gate → Nat → Except Gate.Error Gate) :
    World × Progress Call Outcome :=
  match change w.board.gate id with
  | .ok gate => (w.withGate gate, .ended .nothing)
  | .error e => (w, .ended (.gateError e))

/-- Tells a poller of a name to stop, if there is one. -/
def signalNamed (w : World) (name : String) : World :=
  match w.names.lookup name with
  | some n => { w with watch := w.watch.signal n }
  | none => w

/-- Waits for the end of a poller that was told to stop.  One that is over already
brings its count at once. -/
def awaitStop (w : World) (n : Nat) : World × Progress Call Outcome :=
  if w.watch.isOver n then (w, .ended (.stats (w.watch.poller n).stats))
  else (w, .waiting (.stop n))

/-- A step is taken. -/
def act (now : Nat) (w : World) : Command → Except Refusal (World × Progress Call Outcome)
  | .action _ a => .ok (w.actionProgress (w.watch.desk.start now a))
  | .request _ r =>
    let w := w.withBackend (w.backend.begin r)
    if w.watch.desk.latency = 0 then .ok (w.finishRequest r)
    else .ok (w, .waiting (.request r (now + w.watch.desk.latency)))
  | .acquire _ =>
    let (gate, admission) := w.board.gate.acquire now
    match admission with
    | .granted id => .ok (w.withGate gate, .ended (.ticket id))
    | .queued id => .ok (w.withGate gate, .waiting (.ticket id))
  | .lock ticket => do
    let id ← w.ticket? ticket
    return w.changeTicket id Gate.lock
  | .unlock ticket => do
    let id ← w.ticket? ticket
    return w.changeTicket id Gate.unlock
  | .drop ticket => do
    let id ← w.ticket? ticket
    let w := w.withGate (w.board.gate.drop id)
    return ({ w with tickets := w.tickets.eraseP (·.1 == ticket) }, .ended .nothing)
  | .startPoller name period =>
    if period = 0 then .error .periodNotPositive
    else
      let w := (w.signalNamed name).forgetPoller name
      let (watch, n) := w.watch.addPoller period
      .ok ({ w with watch, names := (name, n) :: w.names }, .ended .nothing)
  | .stats name => do
    let n ← w.poller? name
    return (w, .ended (.stats (w.watch.poller n).stats))
  | .signal name => do
    let n ← w.poller? name
    return ({ w with watch := w.watch.signal n }, .ended .nothing)
  | .dropPoller name => do
    let n ← w.poller? name
    return ({ w with watch := w.watch.signal n }.forgetPoller name, .ended .nothing)
  | .stopPoller _ name => do
    let n ← w.poller? name
    return ({ w with watch := w.watch.signal n }.forgetPoller name).awaitStop n
  | .enter event entry => do
    let s ← w.store?
    let s := match entry with
      | .division d => s.addDivision event d
      | .awardee a => s.addAwardee event a
      | .replacement a => s.replaceAwardee event a
    return (w.withBackend (.store s), .ended .nothing)
  | .failNext reason => do
    let s ← w.store?
    return (w.withBackend (.store (s.armFailure reason)), .ended .nothing)
  | .awardee event id => do
    let s ← w.store?
    return (w, .ended (.awardee (s.awardee? event id)))

/-- A call goes on as far as it can. -/
def resume (now : Nat) (w : World) : Call → World × Progress Call Outcome
  | .action e => w.actionProgress (w.watch.desk.resume now e)
  | .request r due =>
    if due ≤ now then w.finishRequest r else (w, .waiting (.request r due))
  | .ticket request =>
    let (gate, turn) := w.board.gate.resume now request
    let w := w.withGate gate
    match turn with
    | .granted => (w, .ended (.ticket request))
    | .timedOut => (w, .ended (.gateError gate.timeoutError))
    | .waiting => (w, .waiting (.ticket request))
  | .stop n => w.awaitStop n

/-- A call is given up. -/
def abandon (w : World) : Call → World
  | .action e => w.withDesk (w.watch.desk.cancel e)
  | .request .. => w
  | .ticket request => w.withGate (w.board.gate.cancel request)
  | .stop _ => w

/-- A ticket is kept under the name of the call that brought it. -/
def keep (w : World) (name : String) : Outcome → World
  | .ticket id => { w with tickets := (name, id) :: w.tickets }
  | _ => w

/-- The cycle that was granted the gate meanwhile is woken. -/
def attend (w : World) : World :=
  { w with watch := w.watch.wakeGranted }

end World

instance : Callable World Call Command Outcome where
  background now w := { w with watch := w.watch.run now }
  callName? := Command.callName?
  keeps w name := w.tickets.any (·.1 == name)
  act now w c := (World.act now w c).map fun (w, progress) => (w.attend, progress)
  resume now w k :=
    let (w, progress) := World.resume now w k
    (w.attend, progress)
  abandon w k := (World.abandon w k).attend
  keep := World.keep

/-! ## Reports -/

/-- What is told of the requests made. -/
inductive Traffic where
  /-- The number of all requests, and of those under way at most. -/
  | counts (calls maxInFlight : Nat)
  /-- The requests of this move. -/
  | requests (rs : List Request)

/-- What is known after a move. -/
structure Report where
  base : AwardsDesk.Report Outcome
  gate : Gate
  /-- The view, if it has changed since it was last told. -/
  view : Option Board.View
  traffic : Traffic

/-- A session, and the view last told. -/
structure State where
  session : Session World Call
  told : Option Board.View := none

/-- A session at its beginning. -/
def State.initial (board : Board) (backend : Backend) (latency : Nat) : State where
  session := { world := { watch := { desk := { board, backend, latency } } } }

/-- The requests made, which are forgotten if they are told one by one. -/
def takeTraffic (w : World) : World × Traffic :=
  match w.backend with
  | .store s => (w, .counts s.calls s.maxInFlight)
  | .wire wire => (w.withBackend (.wire { wire with requests := [] }), .requests wire.requests)

/-- Makes a move and tells what it shows of the board. -/
def run (s : State) (m : Move Command) : State × Report :=
  let (session, base) := s.session.run m
  let (world, traffic) := takeTraffic session.world
  let view := world.board.view
  ({ session := { session with world }, told := some view },
    { base
      gate := world.board.gate
      view := if s.told = some view then none else some view
      traffic })

end BoardSession
end AwardsDesk
