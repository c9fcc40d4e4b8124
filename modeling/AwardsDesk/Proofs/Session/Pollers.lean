import AwardsDesk.Proofs.Desk.Accounting
import AwardsDesk.Proofs.Gate.Run
import AwardsDesk.Proofs.Session.Run
import AwardsDesk.Session.Boards

/-!
# Pollers of a session

In a session with a board pollers are started, told to stop and waited for, while calls on
the board, tickets of its gate, requests to its backend and changes of its store come in
between.  Whatever a session does is something that happens to its desk and pollers, so
their accounts add up at every moment; and when a call that waits for the end of a poller
brings the count, that count is final.

Main definitions:

- Inductive type {lit}`World.Handled`: what steps and calls do to pollers.
- Definition {lit}`Final`: what a poller has counted adds up, and is what it will always
  have counted.

Main results:

- Theorem {lit}`lasting`: whatever a session does happens to its desk and pollers.
- Theorem {lit}`accounts_played`: the accounts of pollers, in every session.
-/

namespace AwardsDesk

namespace BoardSession

/-! ## What a session does -/

namespace World

variable {w w' : World} {now : Nat}

/-- A desk and pollers as they are some time later. -/
def Later (w w' : World) : Prop :=
  w.watch.Later w'.watch

/-- What a step does to the pollers and their names, or a call that goes on or is given up:
something happens at the desk, a poller of some name is told to stop, or one is started, which
replaces the one of its name. -/
inductive Handled (w w' : World) : Prop where
  | desk (desk : Desk) (watch : w'.watch = { w.watch with desk })
      (names : ∀ x ∈ w'.names, x ∈ w.names)
  | signal {name : String} {n : Nat} (found : w.names.lookup name = some n)
      (watch : w'.watch = w.watch.signal n) (names : ∀ x ∈ w'.names, x ∈ w.names)
  | start {name : String} {period : Nat} (positive : 0 < period)
      (watch : w'.watch = ((w.signalNamed name).watch.addPoller period).1)
      (names : ∀ x ∈ w'.names, x ∈ w.names ∨ x.2 = w.watch.pollers.length)

/-- The desk is another one. -/
theorem handled_withDesk (w : World) (desk : Desk) : w.Handled (w.withDesk desk) :=
  .desk desk rfl fun _ hx => hx

/-- Nothing is done. -/
theorem Handled.refl (w : World) : w.Handled w :=
  w.handled_withDesk w.watch.desk

/-- An action got somewhere. -/
theorem exists_actionProgress (w : World) (r : Desk × Desk.Run) :
    ∃ desk, (w.actionProgress r).1 = w.withDesk desk := by
  rcases r with ⟨desk, e | result⟩
  · exact ⟨desk, rfl⟩
  · exact ⟨desk, rfl⟩

/-- A ticket of the gate is used. -/
theorem exists_changeTicket (w : World) (id : Nat)
    (change : Gate → Nat → Except Gate.Error Gate) :
    ∃ desk, (w.changeTicket id change).1 = w.withDesk desk := by
  unfold changeTicket
  split
  · exact ⟨_, rfl⟩
  · exact ⟨w.watch.desk, rfl⟩

/-- Waiting for the end of a poller changes nothing. -/
theorem fst_awaitStop (w : World) (n : Nat) : (w.awaitStop n).1 = w := by
  unfold awaitStop
  split <;> rfl

/-- No poller comes or goes when the one of a name is told to stop. -/
theorem length_signalNamed (w : World) (name : String) :
    (w.signalNamed name).watch.pollers.length = w.watch.pollers.length := by
  unfold signalNamed
  split
  · exact Watch.length_signal w.watch _
  · rfl

/-- No name comes or goes when the poller of one is told to stop. -/
theorem names_signalNamed (w : World) (name : String) : (w.signalNamed name).names = w.names := by
  unfold signalNamed
  split <;> rfl

/-- A poller is known by its name. -/
theorem lookup_of_poller? {name : String} {n : Nat} (h : w.poller? name = .ok n) :
    w.names.lookup name = some n := by
  unfold poller? at h
  split at h
  · rename_i hfound
    exact Except.ok.inj h ▸ hfound
  · cases h

/-- A name that is forgotten was known. -/
theorem mem_names_forgetPoller {name : String} {x : String × Nat}
    (h : x ∈ (w.forgetPoller name).names) : x ∈ w.names :=
  List.mem_of_mem_eraseP h

/-- A step is taken. -/
theorem handled_act {c : Command} {progress : Progress Call Outcome}
    (hact : act now w c = .ok (w', progress)) : w.Handled w' := by
  cases c with
  | action name a =>
      obtain rfl := congrArg Prod.fst (Except.ok.inj hact)
      rcases w.exists_actionProgress (w.watch.desk.start now a) with ⟨desk, heq⟩
      exact heq ▸ w.handled_withDesk desk
  | request name r =>
      simp only [act] at hact
      split at hact
      · obtain rfl := congrArg Prod.fst (Except.ok.inj hact)
        exact .desk _ rfl fun _ hx => hx
      · obtain rfl := congrArg Prod.fst (Except.ok.inj hact)
        exact w.handled_withDesk _
  | acquire name =>
      simp only [act] at hact
      split at hact
      · obtain rfl := congrArg Prod.fst (Except.ok.inj hact)
        exact w.handled_withDesk _
      · obtain rfl := congrArg Prod.fst (Except.ok.inj hact)
        exact w.handled_withDesk _
  | lock ticket =>
      obtain ⟨id, -, hact⟩ := exists_of_bind_ok hact
      obtain rfl := congrArg Prod.fst (Except.ok.inj hact)
      rcases w.exists_changeTicket id Gate.lock with ⟨desk, heq⟩
      exact heq ▸ w.handled_withDesk desk
  | unlock ticket =>
      obtain ⟨id, -, hact⟩ := exists_of_bind_ok hact
      obtain rfl := congrArg Prod.fst (Except.ok.inj hact)
      rcases w.exists_changeTicket id Gate.unlock with ⟨desk, heq⟩
      exact heq ▸ w.handled_withDesk desk
  | drop ticket =>
      obtain ⟨id, -, hact⟩ := exists_of_bind_ok hact
      obtain rfl := congrArg Prod.fst (Except.ok.inj hact)
      exact .desk _ rfl fun _ hx => hx
  | startPoller name period =>
      simp only [act] at hact
      split at hact
      · simp at hact
      · rename_i hperiod
        obtain rfl := congrArg Prod.fst (Except.ok.inj hact)
        refine .start (Nat.pos_of_ne_zero hperiod) rfl fun x hx => ?_
        rcases List.mem_cons.1 hx with rfl | hx
        · exact Or.inr (w.length_signalNamed name)
        · exact Or.inl (w.names_signalNamed name ▸ mem_names_forgetPoller hx)
  | stats name =>
      obtain ⟨n, -, hact⟩ := exists_of_bind_ok hact
      obtain rfl := congrArg Prod.fst (Except.ok.inj hact)
      exact .refl w
  | signal name =>
      obtain ⟨n, hfound, hact⟩ := exists_of_bind_ok hact
      obtain rfl := congrArg Prod.fst (Except.ok.inj hact)
      exact .signal (lookup_of_poller? hfound) rfl fun _ hx => hx
  | dropPoller name =>
      obtain ⟨n, hfound, hact⟩ := exists_of_bind_ok hact
      obtain rfl := congrArg Prod.fst (Except.ok.inj hact)
      exact .signal (lookup_of_poller? hfound) rfl fun _ hx => mem_names_forgetPoller hx
  | stopPoller call name =>
      obtain ⟨n, hfound, hact⟩ := exists_of_bind_ok hact
      obtain rfl := congrArg Prod.fst (Except.ok.inj hact)
      rw [fst_awaitStop]
      exact .signal (lookup_of_poller? hfound) rfl fun _ hx => mem_names_forgetPoller hx
  | enter event entry | failNext reason =>
      obtain ⟨s, -, hact⟩ := exists_of_bind_ok hact
      obtain rfl := congrArg Prod.fst (Except.ok.inj hact)
      exact w.handled_withDesk _
  | awardee event id =>
      obtain ⟨s, -, hact⟩ := exists_of_bind_ok hact
      obtain rfl := congrArg Prod.fst (Except.ok.inj hact)
      exact .refl w

/-- A call that goes on does something at the desk. -/
theorem exists_resume (w : World) (now : Nat) (k : Call) :
    ∃ desk, (w.resume now k).1 = w.withDesk desk := by
  cases k with
  | action e => exact w.exists_actionProgress _
  | request r due =>
      simp only [resume]
      split
      · exact ⟨_, rfl⟩
      · exact ⟨w.watch.desk, rfl⟩
  | ticket request =>
      simp only [resume]
      split <;> exact ⟨_, rfl⟩
  | stop n =>
      simp only [resume, fst_awaitStop]
      exact ⟨w.watch.desk, rfl⟩

/-- A call goes on. -/
theorem handled_resume (w : World) (now : Nat) (k : Call) : w.Handled (w.resume now k).1 := by
  rcases w.exists_resume now k with ⟨desk, heq⟩
  exact heq ▸ w.handled_withDesk desk

/-- A call is given up. -/
theorem handled_abandon (w : World) (k : Call) : w.Handled (w.abandon k) := by
  cases k with
  | action e => exact w.handled_withDesk _
  | request r due => exact .refl w
  | ticket request => exact w.handled_withDesk _
  | stop n => exact .refl w

/-- A poller of a name is told to stop. -/
theorem later_signalNamed (w : World) (name : String) : w.Later (w.signalNamed name) := by
  unfold signalNamed
  split
  · exact Watch.Later.deed w.watch (.signal _)
  · exact Watch.Later.refl w.watch

/-- What is done happens to the desk and the pollers. -/
theorem Handled.later (h : w.Handled w') : w.Later w' := by
  unfold Later
  cases h with
  | desk desk watch names => exact watch ▸ .deed w.watch (.outside desk w.watch.agenda)
  | signal found watch names => exact watch ▸ .deed w.watch (.signal _)
  | @start name period positive watch names =>
      exact watch ▸ (w.later_signalNamed name).trans (.deed _ (.addPoller period))

/-- A cycle that was granted the gate meanwhile is woken. -/
theorem later_attend (w : World) : w.Later w.attend :=
  Watch.Later.wakeGranted w.watch

end World

/-- Whatever a session does happens to its desk and pollers. -/
theorem lasting : Session.Lasting Call World.Later where
  refl w := Watch.Later.refl w.watch
  trans := Watch.Later.trans
  background now w := Watch.Later.run w.watch now
  act := by
    intro now w c w' progress hact
    simp only [Callable.act] at hact
    cases htaken : World.act now w c with
    | error why => simp [htaken, Except.map] at hact
    | ok taken =>
        obtain ⟨w₁, progress₁⟩ := taken
        rw [htaken] at hact
        obtain rfl := congrArg Prod.fst (Except.ok.inj hact)
        exact (World.handled_act htaken).later.trans w₁.later_attend
  resume now w k := (w.handled_resume now k).later.trans (World.later_attend _)
  abandon w k := (w.handled_abandon k).later.trans (World.later_attend _)
  keep w name o := by
    cases o <;> exact Watch.Later.refl w.watch

/-! ## The end of a poller -/

/-- The poller whose end a call waits for. -/
def Call.poller? : Call → Option Nat
  | .stop n => some n
  | _ => none

/-- What a poller has counted adds up without any cycle under way, and whatever the session
does next, none is under way any more and the count stays the same. -/
def Final (s : Session World Call) (n : Nat) (count : Poller.Stats) : Prop :=
  count.started = count.succeeded + count.failed + count.timedOut ∧
    ∀ acts, (s.play acts).world.watch.Closed n count

/-- What a call brings when it ends: the final count of a poller if it waited for the end of
one, and no count otherwise. -/
def Brings (s : Session World Call) : Option Nat → Outcome → Prop
  | some n, r => ∃ count, r = .stats count ∧ Final s n count
  | none, r => ∀ count, r ≠ .stats count

/-- What becomes of a call that stops the poller of a name: it brings the final count at
once, or it is pending and waits for the end of that poller. -/
def Stops (s : Session World Call) (name poller : String) : Prop :=
  match s.step (.act (.stopPoller name poller)) with
  | (s', .result r) => ∃ n, s.world.names.lookup poller = some n ∧ Brings s' (some n) r
  | (s', .pending serial) =>
    ∃ n, s.world.names.lookup poller = some n ∧ { name, serial, call := .stop n } ∈ s'.pending
  | (_, .refused _) => True
  | (_, .nothing) => False

/-- A call that waits for the end of a poller goes on doing so, and no other call comes to
do so. -/
theorem poller?_of_waiting {now : Nat} {w : World} {k k' : Call}
    (hwaiting : (w.resume now k).2 = .waiting k') : k'.poller? = k.poller? := by
  cases k with
  | action e =>
      simp only [World.resume, World.actionProgress] at hwaiting
      split at hwaiting
      · obtain rfl := Progress.waiting.inj hwaiting
        rfl
      · simp at hwaiting
  | request r due =>
      simp only [World.resume] at hwaiting
      split at hwaiting
      · simp [World.finishRequest] at hwaiting
      · obtain rfl := Progress.waiting.inj hwaiting
        rfl
  | ticket request =>
      simp only [World.resume] at hwaiting
      split at hwaiting
      · simp at hwaiting
      · simp at hwaiting
      · obtain rfl := Progress.waiting.inj hwaiting
        rfl
  | stop n =>
      simp only [World.resume, World.awaitStop] at hwaiting
      split at hwaiting
      · simp at hwaiting
      · obtain rfl := Progress.waiting.inj hwaiting
        rfl

/-- A poller whose end was waited for is over, and its count is brought. -/
theorem of_awaitStop {w : World} {n : Nat} {r : Outcome}
    (hended : (w.awaitStop n).2 = .ended r) :
    w.watch.isOver n = true ∧ r = .stats (w.watch.poller n).stats := by
  unfold World.awaitStop at hended
  split at hended
  · rename_i hover
    exact ⟨hover, (Progress.ended.inj hended).symm⟩
  · simp at hended

/-- No other call brings a count. -/
theorem ne_stats_of_ended {now : Nat} {w : World} {k : Call} {r : Outcome}
    (hk : k.poller? = none) (hended : (w.resume now k).2 = .ended r) (count : Poller.Stats) :
    r ≠ .stats count := by
  rintro rfl
  cases k with
  | action e =>
      rcases hrun : w.watch.desk.resume now e with ⟨desk, x | result⟩
      · simp [World.resume, World.actionProgress, hrun] at hended
      · cases result <;> simp [World.resume, World.actionProgress, World.outcomeOf, hrun] at hended
  | request r due =>
      simp only [World.resume] at hended
      split at hended
      · simp only [World.finishRequest, Progress.ended.injEq] at hended
        unfold World.answerOf at hended
        split at hended <;> simp at hended
      · simp at hended
  | ticket request =>
      simp only [World.resume] at hended
      split at hended <;> simp at hended
  | stop n => simp [Call.poller?] at hk

/-- A session's world as it is some time after its beginning has its books right. -/
theorem exists_ledger {b : Board} {backend : Backend} {latency : Nat} {w : World}
    (hw : (State.initial b backend latency).session.world.Later w) :
    ∃ log, w.watch.Ledger log := by
  obtain ⟨ds, hds⟩ := hw
  have hledger := Watch.ledger_deeds { board := b, backend, latency } ds
  rw [← hds]
  exact ⟨_, hledger⟩

/-- The count of a poller that is over is final ever after. -/
theorem final_of_isOver {w : World} {log : List Watch.Ending} (hledger : w.watch.Ledger log)
    {n : Nat} (hover : w.watch.isOver n = true) {s : Session World Call}
    (hlater : w.Later s.world) : Final s n (w.watch.poller n).stats := by
  have hclosed := hledger.closed hover
  constructor
  · have hbalance := hledger.balance n
    rw [hclosed.none_underWay] at hbalance
    exact hbalance
  · intro acts
    obtain ⟨ds, hds⟩ := lasting.trans hlater (lasting.play s acts)
    rw [← hds]
    exact hclosed.course (w.watch.course_deeds ds)

/-- A call that stops a poller brings its final count or waits for its end. -/
theorem stops_of_later {b : Board} {backend : Backend} {latency : Nat} {s : Session World Call}
    (hs : (State.initial b backend latency).session.world.Later s.world) (name poller : String) :
    Stops s name poller := by
  unfold Stops
  simp only [Session.step, Session.act]
  by_cases htaken : s.nameTaken (Command.stopPoller name poller)
  · simp only [if_pos htaken]
  · simp only [if_neg htaken, Callable.act, Callable.callName?, Command.callName?]
    cases hlookup : s.world.names.lookup poller with
    | none =>
        have hact : World.act s.clock s.world (.stopPoller name poller) =
            .error .unknownPoller := by
          simp [World.act, World.poller?, hlookup, bind, Except.bind]
        simp only [hact, Except.map]
    | some n =>
        let w := { s.world with watch := s.world.watch.signal n }.forgetPoller poller
        have hact : World.act s.clock s.world (.stopPoller name poller) = .ok (w.awaitStop n) := by
          simp [World.act, World.poller?, hlookup, bind, Except.bind, pure, Except.pure, w]
        have hw : s.world.Later w := Watch.Later.deed s.world.watch (.signal n)
        obtain ⟨log, hledger⟩ := exists_ledger (hs.trans hw)
        by_cases hover : w.watch.isOver n = true
        · have hawait : w.awaitStop n = (w, .ended (.stats (w.watch.poller n).stats)) :=
            if_pos hover
          simp only [hact, hawait, Except.map]
          exact ⟨n, rfl, _, rfl, final_of_isOver hledger hover w.later_attend⟩
        · have hawait : w.awaitStop n = (w, .waiting (.stop n)) := if_neg hover
          simp only [hact, hawait, Except.map]
          exact ⟨n, rfl, List.mem_append_right _ (List.mem_singleton_self _)⟩

/-- The accounts of pollers add up in every session with a board, whichever backend it has
and whatever else happens.  At every moment the cycles of a poller that were started are
those that succeeded, failed or timed out and those under way, each once and by what its
refresh came to; a session goes through such moments only; and a call that waits for the end
of a poller brings its final count. -/
theorem accounts_played (b : Board) (backend : Backend) (latency : Nat) :
    let desk : Desk := { board := b, backend, latency }
    (∀ ds, ({ desk } : Watch).Accounts ds) ∧
      ∀ acts,
        let s := (State.initial b backend latency).session.play acts
        (∃ ds, s.world.watch = ({ desk } : Watch).deeds ds) ∧
          (∀ e ∈ s.settle.2, ∃ p ∈ s.pending, p.name = e.name ∧ p.serial = e.serial ∧
            Brings s.settle.1 p.call.poller? e.result) ∧
          ∀ name poller, Stops s name poller := by
  intro desk
  refine ⟨Watch.accounts_deeds desk, ?_⟩
  intro acts s
  have hs : (State.initial b backend latency).session.world.Later s.world :=
    lasting.play _ acts
  refine ⟨?_, ?_, ?_⟩
  · obtain ⟨ds, hds⟩ := hs
    exact ⟨ds, hds.symm⟩
  · intro e he
    obtain ⟨p, hp, hname, hserial, w, k, hk, hw, hended, hlater⟩ :=
      lasting.exists_of_mem_settle Call.poller?
        (fun now w k k' hwaiting => poller?_of_waiting hwaiting) he
    refine ⟨p, hp, hname, hserial, ?_⟩
    rw [← hk]
    cases k with
    | stop n =>
        obtain ⟨hover, hresult⟩ := of_awaitStop hended
        obtain ⟨log, hledger⟩ := exists_ledger (hs.trans hw)
        exact ⟨_, hresult, final_of_isOver hledger hover hlater⟩
    | action e => exact ne_stats_of_ended (k := .action e) rfl hended
    | request r due => exact ne_stats_of_ended (k := .request r due) rfl hended
    | ticket request => exact ne_stats_of_ended (k := .ticket request) rfl hended
  · intro name poller
    exact stops_of_later hs name poller

end BoardSession
end AwardsDesk
