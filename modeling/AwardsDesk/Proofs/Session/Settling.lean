import AwardsDesk.Proofs.Gate.Halls
import AwardsDesk.Proofs.Session.Run
import AwardsDesk.Session.Gates

/-!
# Waiting and settling

In a session with gates every request that waits has a pending call behind it, and a
settling lets every pending call go on.  So whatever happened since the last settling,
however far the clock jumped, after a settling nobody waits whose time is over.

Main definitions:

- Function {lit}`Call.requests`: the request that a call waits for.
- Structure {lit}`Orderly`: the gates are those of runs, and no waiting request is left
  alone.
- Definition {lit}`Settled`: every waiting request has time left.

Main results:

- Theorem {lit}`Orderly.play`: steps and settlings in any order keep a session orderly.
- Theorem {lit}`Orderly.settle`: an orderly session is settled when it settles.
- Theorem {lit}`exact_timeouts_played`: the timeouts of gates are exact.
-/

namespace AwardsDesk

namespace GateSession

variable {α : Type}

/-! ## Calls -/

/-- The request that a call waits for. -/
def Call.requests : Call α → List Gate.Hold
  | .request t => [t]
  | .task t => t.requests

/-- The requests that pending calls wait for. -/
def requests (ps : List (Pending (Call α))) : List Gate.Hold :=
  ps.flatMap fun p => p.call.requests

namespace World

variable {w w' : World} {now : Nat}

/-- What became of a task is what becomes of its call. -/
theorem taskProgress_spec (w : World) (r : Gate.Hall × Gate.Task.Run α) :
    (w.taskProgress r).1.hall = r.1 ∧
      (w.taskProgress r).2.calls.flatMap Call.requests =
        r.2.calls.flatMap Gate.Task.requests := by
  rcases r with ⟨hall, t | (e | v)⟩
  · exact ⟨rfl, rfl⟩
  · cases e <;> exact ⟨rfl, rfl⟩
  · exact ⟨rfl, rfl⟩

/-- A call goes on, and the request that it waited for is served. -/
theorem goes_resume (hw : w.hall.Coherent) (now : Nat) (c : Call α) :
    w.hall.Goes now c.requests ((w.resume now c).2.calls.flatMap Call.requests)
      (w.resume now c).1.hall := by
  cases c with
  | task t =>
      rcases w.taskProgress_spec (t.resume w.hall now) with ⟨hhall, hrequests⟩
      rw [resume, hhall, hrequests]
      exact Gate.Task.goes_resume hw now t
  | request t =>
      have hresume := Gate.goes_resume hw now t.gate t.ticket
      cases hturn : ((w.hall.gate t.gate).resume now t.ticket).2 with
      | waiting | granted | timedOut =>
          simp only [resume, hturn] at hresume ⊢
          exact hresume

/-- A request for a ticket that goes on brings what its gate tells it: the ticket, or the
error that names the gate and its timeout. -/
theorem resume_request (w : World) (now : Nat) (t : Gate.Hold) :
    (w.resume now (.request t : Call α)).2 =
      match ((w.hall.gate t.gate).step (.resume now t.ticket)).2 with
      | .turned .granted => .ended (.ticket t (w.hall.gate t.gate).name)
      | .turned .timedOut =>
          .ended (.error (.timeout (w.hall.gate t.gate).name
            (w.hall.gate t.gate).options.timeout))
      | _ => .waiting (.request t) := by
  rcases Gate.settings_step (w.hall.gate t.gate) (.resume now t.ticket) with ⟨hname, hoptions⟩
  simp only [Gate.step] at hname hoptions ⊢
  cases hturn : ((w.hall.gate t.gate).resume now t.ticket).2 with
  | waiting => simp only [resume, hturn]
  | granted => simp only [resume, hturn, hname]
  | timedOut => simp only [resume, hturn, Gate.timeoutError, hname, hoptions]

/-- A call is given up, and so is the request that it waited for. -/
theorem goes_abandon (hw : w.hall.Coherent) (now : Nat) (c : Call α) :
    w.hall.Goes now c.requests [] (w.abandon c).hall := by
  cases c with
  | task t => exact Gate.Task.goes_cancel hw now t
  | request t => exact Gate.goes_cancel hw now t.gate t.ticket

/-- What a call brought does not touch the gates. -/
@[simp]
theorem hall_keep (w : World) (name : String) (o : Outcome α) :
    (w.keep name o).hall = w.hall := by
  cases o <;> rfl

/-- A step of the world lets its gates go on, the call that it starts joining those who
wait, or adds a gate with usable options. -/
def Takes (now : Nat) (w w' : World) (progress : Progress (Call α) (Outcome α)) : Prop :=
  w.hall.Goes now [] (progress.calls.flatMap Call.requests) w'.hall ∨
    ∃ name options, options.Usable ∧ w'.hall = (w.hall.add { name, options }).1 ∧
      progress.calls = []

/-- A step that does not touch the gates and starts no call that waits. -/
theorem takes_same {progress : Progress (Call α) (Outcome α)} (hhall : w'.hall = w.hall)
    (hended : progress.calls = []) : Takes now w w' progress := by
  left
  rw [hhall, hended]
  exact Gate.Hall.Goes.refl now w.hall

/-- A gate that a manager binds is a new one. -/
theorem hall_of_bind {m m' : Gate.Manager} {h h' : Gate.Hall} {name : String}
    {options : Gate.Options} {n : Nat} (hbind : m.bind h name options = .ok (m', h', n)) :
    options.Usable ∧ h' = (h.add { name, options }).1 := by
  unfold Gate.Manager.bind at hbind
  cases hmake : Gate.make name options with
  | error e => simp [hmake, Except.map] at hbind
  | ok g =>
      rcases Gate.usable_of_make hmake with ⟨husable, rfl⟩
      simp only [hmake, Except.map, Except.ok.injEq, Prod.mk.injEq] at hbind
      exact ⟨husable, hbind.2.1.symm⟩

/-- A gate of the manager is one that there is, or a new one. -/
theorem takes_bindManaged {handle : String}
    {r : Except Gate.Error (Gate.Manager × Gate.Hall × Nat)} {o : Outcome α}
    (hbound : w.bindManaged handle r = (w', o))
    (hr : ∀ m h n, r = .ok (m, h, n) → h = w.hall ∨
      ∃ name options, options.Usable ∧ h = (w.hall.add { name, options }).1) :
    Takes (α := α) now w w' (.ended o) := by
  cases r with
  | error e =>
      rcases Prod.mk.inj hbound with ⟨rfl, -⟩
      exact takes_same rfl rfl
  | ok made =>
      rcases made with ⟨m, h, n⟩
      rcases Prod.mk.inj hbound with ⟨rfl, -⟩
      rcases hr m h n rfl with hsame | ⟨name, options, husable, hadd⟩
      · exact takes_same hsame rfl
      · exact Or.inr ⟨name, options, husable, hadd, rfl⟩

/-- A change of a ticket's gate lets that gate go on. -/
theorem takes_changeTicket {t : Gate.Hold} {change : Gate → Nat → Except Gate.Error Gate}
    {o : Outcome α} (hchanged : w.changeTicket t change = (w', o))
    (hchange : ∀ g, change (w.hall.gate t.gate) t.ticket = .ok g →
      w.hall.Goes now [] [] (w.hall.put t.gate g)) :
    Takes (α := α) now w w' (.ended o) := by
  unfold changeTicket at hchanged
  cases hresult : change (w.hall.gate t.gate) t.ticket with
  | error e =>
      rw [hresult] at hchanged
      rcases Prod.mk.inj hchanged with ⟨rfl, -⟩
      exact takes_same rfl rfl
  | ok g =>
      rw [hresult] at hchanged
      rcases Prod.mk.inj hchanged with ⟨rfl, -⟩
      exact Or.inl (hchange g hresult)

/-- What a step of the world does to its gates. -/
theorem takes_act {c : Command α} {progress : Progress (Call α) (Outcome α)}
    (hact : act now w c = .ok (w', progress)) : Takes now w w' progress := by
  cases c with
  | make handle name options =>
      rw [act] at hact
      cases hmake : Gate.make name options with
      | error e =>
          rw [hmake] at hact
          rcases Prod.mk.inj (Except.ok.inj hact) with ⟨rfl, rfl⟩
          exact takes_same rfl rfl
      | ok g =>
          rw [hmake] at hact
          rcases Gate.usable_of_make hmake with ⟨husable, rfl⟩
          rcases Prod.mk.inj (Except.ok.inj hact) with ⟨rfl, rfl⟩
          exact Or.inr ⟨name, options, husable, rfl, rfl⟩
  | register handle name options =>
      rcases Prod.mk.inj (Except.ok.inj hact) with ⟨rfl, rfl⟩
      refine takes_bindManaged rfl fun m h n hregister => Or.inr ⟨name, options, ?_⟩
      unfold Gate.Manager.register at hregister
      split at hregister
      · simp at hregister
      · exact hall_of_bind hregister
  | get handle name =>
      rcases Prod.mk.inj (Except.ok.inj hact) with ⟨rfl, rfl⟩
      refine takes_bindManaged rfl fun m h n hget => ?_
      unfold Gate.Manager.get at hget
      split at hget
      · simp only [Except.ok.injEq, Prod.mk.injEq] at hget
        exact Or.inl hget.2.1.symm
      · exact Or.inr ⟨name, w.manager.defaults, hall_of_bind hget⟩
  | names =>
      rcases Prod.mk.inj (Except.ok.inj hact) with ⟨rfl, rfl⟩
      exact takes_same rfl rfl
  | share handle gate =>
      rcases exists_of_bind_ok hact with ⟨n, -, hact⟩
      rcases Prod.mk.inj (Except.ok.inj hact) with ⟨rfl, rfl⟩
      exact takes_same rfl rfl
  | sameGate a b =>
      rcases exists_of_bind_ok hact with ⟨m, -, hact⟩
      rcases exists_of_bind_ok hact with ⟨n, -, hact⟩
      rcases Prod.mk.inj (Except.ok.inj hact) with ⟨rfl, rfl⟩
      exact takes_same rfl rfl
  | describeGate gate =>
      rcases exists_of_bind_ok hact with ⟨n, -, hact⟩
      rcases Prod.mk.inj (Except.ok.inj hact) with ⟨rfl, rfl⟩
      exact takes_same rfl rfl
  | acquire name gate =>
      rcases exists_of_bind_ok hact with ⟨n, -, hact⟩
      have hacquire := Gate.goes_acquire w.hall now n
      cases hadmission : ((w.hall.gate n).acquire now).2 with
      | granted id | queued id =>
          simp only [hadmission] at hact hacquire
          rcases Prod.mk.inj (Except.ok.inj hact) with ⟨rfl, rfl⟩
          exact Or.inl hacquire
  | withLock name gate nested work =>
      rcases exists_of_bind_ok hact with ⟨n, -, hact⟩
      rcases exists_of_bind_ok hact with ⟨inner, -, hact⟩
      rcases w.taskProgress_spec (Gate.Task.start w.hall now (n :: inner) work) with
        ⟨hhall, hrequests⟩
      rw [Except.ok.inj hact] at hhall hrequests
      left
      rw [hhall, hrequests]
      exact Gate.Task.goes_start w.hall now (n :: inner) work
  | lock ticket =>
      rcases exists_of_bind_ok hact with ⟨t, -, hact⟩
      rcases Prod.mk.inj (Except.ok.inj hact) with ⟨rfl, rfl⟩
      exact takes_changeTicket rfl fun g hlock => Gate.goes_lock hlock
  | unlock ticket =>
      rcases exists_of_bind_ok hact with ⟨t, -, hact⟩
      rcases Prod.mk.inj (Except.ok.inj hact) with ⟨rfl, rfl⟩
      exact takes_changeTicket rfl fun g hunlock => Gate.goes_unlock hunlock
  | ticketState ticket =>
      rcases exists_of_bind_ok hact with ⟨t, -, hact⟩
      rcases Prod.mk.inj (Except.ok.inj hact) with ⟨rfl, rfl⟩
      exact takes_same rfl rfl
  | drop ticket =>
      rcases exists_of_bind_ok hact with ⟨t, -, hact⟩
      rcases Prod.mk.inj (Except.ok.inj hact) with ⟨rfl, rfl⟩
      exact Or.inl (Gate.goes_drop t)

end World

/-! ## Orderly sessions -/

/-- The gates of a session are those of runs under its clock, and every request in hand has
a pending call behind it. -/
structure Orderly (s : Session World (Call α)) : Prop where
  runs : s.world.hall.RunsBy s.clock
  attended : ∀ t, s.world.hall.Waits t → t ∈ requests s.pending

/-- Every request in hand at any gate has time left. -/
def Settled (s : Session World (Call α)) : Prop :=
  ∀ n, ∀ w ∈ (s.world.hall.gate n).waiting, s.clock < w.deadline

/-- A session at its beginning, with the options of gates made on request. -/
def initial (defaults : Gate.Options) : Session World (Call α) where
  world := { manager := { defaults } }

/-- Each pending call goes on once, and all requests that they waited for are served. -/
theorem goes_sweep {w : World} {now : Nat} (hw : w.hall.RunsBy now)
    (ps : List (Pending (Call α))) :
    w.hall.Goes now (requests ps) (requests (Session.sweep now ps w).pending)
      (Session.sweep now ps w).world.hall := by
  induction ps generalizing w with
  | nil => exact Gate.Hall.Goes.refl now w.hall
  | cons p rest ih =>
      have hfirst := World.goes_resume hw.coherent now p.call
      rw [Session.sweep]
      change w.hall.Goes now (p.call.requests ++ requests rest) _ _
      cases hresume : w.resume now p.call with
      | mk w' progress =>
          rw [hresume] at hfirst
          have hw' : w'.hall.RunsBy now := hfirst.runsBy hw
          cases progress with
          | waiting call =>
              simp only [Callable.resume, hresume]
              have hrest := hfirst.trans (ih hw')
              simpa [Progress.calls, requests] using hrest
          | ended result =>
              have hkeep : (w'.keep p.name result).hall = w'.hall := w'.hall_keep p.name result
              simp only [Callable.resume, hresume, Callable.keep]
              refine hfirst.trans ?_
              rw [← hkeep] at hw' ⊢
              exact ih hw'

namespace Orderly

variable {s s' : Session World (Call α)}

/-- A session at its beginning is orderly. -/
theorem initial (defaults : Gate.Options) : Orderly (α := α) (initial defaults) where
  runs n hn := absurd hn (Nat.not_lt_zero n)
  attended t ht := absurd ht.lt_length (Nat.not_lt_zero t.gate)

/-- A session stays orderly when its gates go on, those who are not served keep their
calls, and calls are behind those who join. -/
theorem of_goes (h : Orderly s) {served joined : List Gate.Hold}
    (hgoes : s.world.hall.Goes s.clock served joined s'.world.hall) (hclock : s'.clock = s.clock)
    (hkeep : ∀ t ∈ requests s.pending, t ∉ served → t ∈ requests s'.pending)
    (hjoined : joined ⊆ requests s'.pending) : Orderly s' where
  runs := hclock ▸ hgoes.runsBy h.runs
  attended t ht := by
    rcases hgoes.waits t ht with ⟨hold, hnot⟩ | hnew
    · exact hkeep t (h.attended t hold) hnot
    · exact hjoined hnew

/-- The clock jumps. -/
theorem skip (h : Orderly s) (ms : Nat) : Orderly { s with clock := s.clock + ms } where
  runs n hn := (h.runs n hn).mono (Nat.le_add_right s.clock ms)
  attended := h.attended

/-- A pending call is given up. -/
theorem cancel (h : Orderly s) (name : String) : Orderly (s.cancel name).1 := by
  unfold Session.cancel
  cases hfind : s.pending.find? (·.name == name) with
  | none => exact h
  | some p =>
      rcases List.find?_eq_some_iff_append.1 hfind with ⟨hname, before, after, hsplit, hbefore⟩
      have herase : s.pending.eraseP (·.name == name) = before ++ after := by
        rw [hsplit, List.eraseP_append_right _ (by simpa using hbefore),
          List.eraseP_cons_of_pos (by exact hname)]
      refine h.of_goes (World.goes_abandon h.runs.coherent s.clock p.call) rfl ?_
        (List.nil_subset _)
      intro t ht hnot
      change t ∈ requests (s.pending.eraseP (·.name == name))
      rw [herase, requests, List.flatMap_append, List.mem_append]
      rw [hsplit, requests, List.flatMap_append, List.flatMap_cons, List.mem_append,
        List.mem_append] at ht
      rcases ht with ht | ht | ht
      · exact Or.inl ht
      · exact absurd ht hnot
      · exact Or.inr ht

/-- A step of the world that starts no call that waits. -/
theorem of_ended (h : Orderly s) {w : World} {o : Outcome α}
    (htakes : World.Takes s.clock s.world w (.ended o)) (hhall : s'.world.hall = w.hall)
    (hclock : s'.clock = s.clock) (hpending : s'.pending = s.pending) : Orderly s' := by
  rcases htakes with hgoes | ⟨name, options, husable, hadd, -⟩
  · refine h.of_goes (hhall ▸ hgoes) hclock ?_ (List.nil_subset _)
    intro t ht _
    exact hpending ▸ ht
  · constructor
    · rw [hhall, hadd, hclock]
      exact h.runs.add name husable
    · intro t ht
      rw [hhall, hadd] at ht
      exact hpending ▸ h.attended t (Gate.Hall.waits_add ht)

/-- A step of the world is taken. -/
theorem act (h : Orderly s) (c : Command α) : Orderly (s.act c).1 := by
  unfold Session.act
  split
  · exact h
  · cases hact : World.act s.clock s.world c with
    | error why =>
        simp only [Callable.act, hact]
        exact h
    | ok taken =>
        rcases taken with ⟨w, progress⟩
        have htakes := World.takes_act hact
        simp only [Callable.act, hact]
        cases progress with
        | ended r =>
            cases hname : Callable.callName? World (Call α) c with
            | none => exact h.of_ended htakes rfl rfl rfl
            | some name => exact h.of_ended htakes (w.hall_keep name r) rfl rfl
        | waiting call =>
            rcases htakes with hgoes | ⟨-, -, -, -, hended⟩
            · refine h.of_goes hgoes rfl ?_ ?_
              · intro t ht _
                rw [requests, List.flatMap_append]
                exact List.mem_append_left _ ht
              · rw [requests, List.flatMap_append]
                exact List.subset_append_right _ _
            · simp [Progress.calls] at hended

/-- A step is taken. -/
theorem step (h : Orderly s) (d : Step (Command α)) : Orderly (s.step d).1 := by
  cases d with
  | skip ms => exact h.skip ms
  | cancel name => exact h.cancel name
  | act c => exact h.act c
  | unknown => exact h

/-- When every pending call has gone on once, nobody in hand is left whose time is over. -/
theorem sweep (h : Orderly s) :
    let swept := Session.sweep s.clock s.pending s.world
    let next := { s with world := swept.world, pending := swept.pending }
    Orderly next ∧ Settled next := by
  intro swept next
  have hgoes := goes_sweep h.runs s.pending
  constructor
  · refine h.of_goes hgoes rfl ?_ (List.Subset.refl _)
    exact fun t ht hnot => absurd ht hnot
  · intro n w hw
    exact hgoes.lt_deadline h.runs h.attended hw

/-- After a settling a session is orderly and settled, and no time has passed. -/
theorem settle (h : Orderly s) :
    Orderly s.settle.1 ∧ Settled s.settle.1 ∧ s.settle.1.clock = s.clock := by
  induction s using Session.settle.induct with
  | case1 s swept hended =>
      rcases h.sweep with ⟨hnext, hsettled⟩
      rw [Session.settle, if_pos hended]
      exact ⟨hnext, hsettled, rfl⟩
  | case2 s swept next hended last more hlast ih =>
      rcases ih h.sweep.1 with ⟨hnext, hsettled, hclock⟩
      have hsettle : s.settle.1 = next.settle.1 := by
        rw [Session.settle, if_neg hended]
      rw [hsettle]
      exact ⟨hnext, hsettled, hclock⟩

/-- A session stays orderly whatever it does. -/
theorem play (h : Orderly s) (acts : List (Session.Act (Command α))) :
    Orderly (s.play acts) := by
  induction acts generalizing s with
  | nil => exact h
  | cons a acts ih =>
      rw [Session.play_cons]
      cases a with
      | step d => exact ih (h.step d)
      | settle => exact ih h.settle.1

end Orderly

/-- A session is settled after every move. -/
theorem settled_run {s : Session World (Call α)} (h : Orderly s) (m : Move (Command α)) :
    Settled (s.run m).1 := by
  have hlast : ∃ acts, m.acts = acts ++ [.settle] := by
    cases m with
    | advance ms => exact ⟨_, rfl⟩
    | step d => exact ⟨[.step d], rfl⟩
    | batch ds => exact ⟨_, rfl⟩
  rcases hlast with ⟨acts, hacts⟩
  rw [Session.run_eq_play, hacts, Session.play_append]
  exact (h.play acts).settle.2.1

/-- The timeouts of gates are exact in every run, whoever goes on in whichever order.  In a
session with gates, whatever steps it takes, however its clock advances and whenever it
settles, each gate is that of a run under its clock, a request for a ticket brings what its
gate tells it, and after every settling and every move each request in hand has a deadline
later than the clock. -/
theorem exact_timeouts_played :
    (∀ name options es, Gate.ExactTimeouts { name, options } es) ∧
      ∀ (α : Type) (defaults : Gate.Options) (acts : List (Session.Act (Command α))),
        let s := (initial (α := α) defaults).play acts
        s.world.hall.RunsBy s.clock ∧
          (∀ t, (s.world.resume s.clock (.request t : Call α)).2 =
            match ((s.world.hall.gate t.gate).step (.resume s.clock t.ticket)).2 with
            | .turned .granted => .ended (.ticket t (s.world.hall.gate t.gate).name)
            | .turned .timedOut =>
                .ended (.error (.timeout (s.world.hall.gate t.gate).name
                  (s.world.hall.gate t.gate).options.timeout))
            | _ => .waiting (.request t)) ∧
          (∀ n, ∀ w ∈ (s.settle.1.world.hall.gate n).waiting, s.clock < w.deadline) ∧
          ∀ m n, ∀ w ∈ ((s.run m).1.world.hall.gate n).waiting, (s.run m).1.clock < w.deadline := by
  refine ⟨Gate.exactTimeouts, ?_⟩
  intro α defaults acts s
  have hs : Orderly s := (Orderly.initial defaults).play acts
  rcases hs.settle with ⟨-, hsettled, hclock⟩
  refine ⟨hs.runs, s.world.resume_request s.clock, ?_, ?_⟩
  · intro n w hw
    rw [← hclock]
    exact hsettled n w hw
  · intro m n w hw
    exact settled_run hs m n w hw

/-- Two requests wait for a gate with a timeout of ten milliseconds. -/
def twoWaiting : List Gate.Event :=
  [.acquire 0, .lock 1, .acquire 3, .acquire 5]

/-- The first of two waiting requests times out at its deadline and not before, and is a
ticket long after its deadline if the gate is given back before it is looked at. -/
theorem exact_timeouts_twoWaiting :
    let new : Gate := { name := "gate", options := { timeoutMs := 10 } }
    Gate.Timely twoWaiting ∧
      ((new.run twoWaiting).step (.resume 12 2)).2 = .turned .waiting ∧
      ((new.run twoWaiting).step (.resume 13 2)).2 = .turned .timedOut ∧
      2 ∉ new.grants (twoWaiting ++ .resume 13 2 :: [.unlock 1, .resume 14 3]) ∧
      ((new.run (twoWaiting ++ [.unlock 1])).step (.resume 90 2)).2 = .turned .granted := by
  intro new
  have hexact := fun es => exact_timeouts_played.1 "gate" { timeoutMs := 10 } es
  have hqueued : Gate.QueuedAt (new.trace twoWaiting) 2 3 := by
    unfold Gate.QueuedAt
    decide +kernel
  have hqueued' : Gate.QueuedAt (new.trace (twoWaiting ++ [.unlock 1])) 2 3 := by
    unfold Gate.QueuedAt
    decide +kernel
  have hearly := (hexact twoWaiting).turn 3 2 12 hqueued (by decide +kernel)
  have hlate := (hexact twoWaiting).turn 3 2 13 hqueued (by decide +kernel)
  have hgranted := (hexact (twoWaiting ++ [.unlock 1])).turn 3 2 90 hqueued' (by decide +kernel)
  have hout : ((new.run twoWaiting).step (.resume 13 2)).2 = .turned .timedOut :=
    hlate.trans (by decide +kernel)
  refine ⟨by decide, hearly.trans (by decide +kernel), hout, ?_, ?_⟩
  · exact ((hexact twoWaiting).gone 2 13 [.unlock 1, .resume 14 3] hout).1
  · exact hgranted.trans (by decide +kernel)

end GateSession
end AwardsDesk
