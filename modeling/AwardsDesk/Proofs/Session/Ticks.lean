import AwardsDesk.Proofs.Desk.Ticks
import AwardsDesk.Proofs.Session.Pollers

/-!
# Ticks in a session

A session with a board lets its tasks run whenever it settles.  Between settlings the clock may run
by single milliseconds or jump, calls go on, and pollers are started and told to stop.  Whatever
happens, a poller that has settled has started one cycle when its ticker first ran and one for every
period since, until it is told to stop; from then on it starts none.

Main definitions:

- Structure {lit}`World.Orderly`: no ticker is forgotten, and every name is that of a poller.

Main results:

- Theorem {lit}`kept_of_handled`: what every session keeps.
- Theorem {lit}`settled_play`: no ticker is due in a session that has settled.
- Theorem {lit}`no_tick_lost`: the number of cycles that a poller has started.
-/

namespace AwardsDesk
namespace BoardSession

open Poller (Clockwork)

namespace World

variable {w w' : World} {n now : Nat} {C : Nat → Clockwork → Prop}

/-- No ticker is forgotten, and every name is that of a poller. -/
structure Orderly (w : World) : Prop where
  attended : w.watch.Attended
  named : ∀ x ∈ w.names, x.2 < w.watch.pollers.length

/-- A poller that has a name is there. -/
theorem Orderly.lt_length (h : w.Orderly) {name : String} (hn : w.names.lookup name = some n) :
    n < w.watch.pollers.length := by
  obtain ⟨before, after, heq, -⟩ := List.lookup_eq_some_iff.1 hn
  exact h.named (name, n) (by simp [heq])

/-- The poller of a name is told to stop, if there is one. -/
theorem signalNamed_cases (w : World) (name : String) :
    (w.signalNamed name).watch = w.watch ∨
      ∃ n, w.names.lookup name = some n ∧ (w.signalNamed name).watch = w.watch.signal n := by
  unfold signalNamed
  split
  · rename_i n hn
    exact Or.inr ⟨n, hn, rfl⟩
  · exact Or.inl rfl

/-- The poller of a name is told to stop, and no ticker is forgotten. -/
theorem Orderly.attended_signalNamed (h : w.Orderly) (name : String) :
    (w.signalNamed name).watch.Attended := by
  rcases w.signalNamed_cases name with heq | ⟨n, hn, heq⟩
  · exact heq.symm ▸ h.attended
  · exact heq.symm ▸ h.attended.signal (h.lt_length hn)

/-- What steps and calls do forgets no ticker. -/
theorem Handled.orderly (h : w.Handled w') (hw : w.Orderly) : w'.Orderly := by
  cases h with
  | desk desk watch names =>
      refine ⟨watch.symm ▸ hw.attended.withDesk desk, fun x hx => ?_⟩
      rw [watch]
      exact hw.named x (names x hx)
  | signal found watch names =>
      refine ⟨watch.symm ▸ hw.attended.signal (hw.lt_length found), fun x hx => ?_⟩
      rw [watch, Watch.length_signal]
      exact hw.named x (names x hx)
  | start positive watch names =>
      refine ⟨watch.symm ▸ (hw.attended_signalNamed _).addPoller positive, fun x hx => ?_⟩
      rw [watch, Watch.length_addPoller, length_signalNamed]
      rcases names x hx with hx | hx
      · exact Nat.lt_succ_of_lt (hw.named x hx)
      · exact hx ▸ Nat.lt_succ_self _

/-- A poller that is there stays, and its clockwork keeps what it does. -/
theorem Handled.regular (h : w.Handled w') (hC : Watch.Regular C) (hn : n < w.watch.pollers.length)
    (hclock : C now (w.watch.clockwork n)) :
    n < w'.watch.pollers.length ∧ C now (w'.watch.clockwork n) := by
  cases h with
  | desk desk watch names => exact watch.symm ▸ ⟨hn, hclock⟩
  | @signal name m found watch names =>
      rw [watch, Watch.length_signal]
      exact ⟨hn, hC.signal m hclock⟩
  | @start name period positive watch names =>
      have hsignal : n < (w.signalNamed name).watch.pollers.length ∧
          C now ((w.signalNamed name).watch.clockwork n) := by
        rw [length_signalNamed]
        refine ⟨hn, ?_⟩
        rcases w.signalNamed_cases name with heq | ⟨m, -, heq⟩
        · exact heq.symm ▸ hclock
        · exact heq.symm ▸ hC.signal m hclock
      rw [watch, Watch.length_addPoller, Watch.clockwork, Watch.poller_addPoller hsignal.1]
      exact ⟨Nat.lt_succ_of_lt hsignal.1, hsignal.2⟩

/-- The tasks run as far as they can. -/
theorem Orderly.run (h : w.Orderly) (now : Nat) :
    Orderly { w with watch := w.watch.run now } where
  attended := (h.attended.run now).1
  named x hx := (h.attended.length_run now).symm ▸ h.named x hx

/-- A cycle that was granted the gate meanwhile is woken. -/
theorem Orderly.attend (h : w.Orderly) : w.attend.Orderly where
  attended := h.attended.wakeGranted
  named x hx := by
    rw [World.attend, Watch.pollers_wakeGranted]
    exact h.named x hx

end World

/-! ## What every session keeps -/

/-- What is kept when tasks run, when steps and calls do what they do, and when a cycle is woken is
kept in every session. -/
theorem kept_of_handled {I : Nat → World → Prop}
    (hrun : ∀ {now w}, I now w → I now { w with watch := w.watch.run now })
    (hhandled : ∀ {now} {w w' : World}, w.Handled w' → I now w → I now w')
    (hattend : ∀ {now w}, I now w → I now w.attend) : Session.Kept Call I where
  background := hrun
  act := by
    intro now w c w' progress hw hact
    simp only [Callable.act] at hact
    cases htaken : World.act now w c with
    | error why => simp [htaken, Except.map] at hact
    | ok taken =>
        rw [htaken] at hact
        obtain rfl := congrArg Prod.fst (Except.ok.inj hact)
        exact hattend (hhandled (World.handled_act htaken) hw)
  resume {now w} k hw := hattend (hhandled (w.handled_resume now k) hw)
  abandon k hw := hattend (hhandled (World.handled_abandon _ k) hw)
  keep {now w} name o hw := by
    refine hhandled (.desk w.watch.desk ?_ fun x hx => ?_) hw
    · cases o <;> rfl
    · cases o <;> exact hx

/-- No session forgets a ticker. -/
theorem kept_orderly : Session.Kept Call fun _ (w : World) => w.Orderly :=
  kept_of_handled (fun {now _} hw => hw.run now) World.Handled.orderly World.Orderly.attend

/-- A poller that is there, and what its clockwork keeps. -/
structure Keeps (C : Nat → Clockwork → Prop) (n now : Nat) (w : World) : Prop where
  orderly : w.Orderly
  lt_length : n < w.watch.pollers.length
  clockwork : C now (w.watch.clockwork n)

/-- In every session the clockwork of a poller keeps what it does. -/
theorem kept_regular {C : Nat → Clockwork → Prop} (hC : Watch.Regular C) (n : Nat) :
    Session.Kept Call (Keeps C n) := by
  apply kept_of_handled
  · intro now w hw
    refine ⟨hw.orderly.run now, ?_, hC.run hw.orderly.attended hw.lt_length hw.clockwork⟩
    exact (hw.orderly.attended.length_run now).symm ▸ hw.lt_length
  · intro now w w' h hw
    rcases h.regular hC hw.lt_length hw.clockwork with ⟨hn, hclock⟩
    exact ⟨h.orderly hw.orderly, hn, hclock⟩
  · intro now w hw
    refine ⟨hw.orderly.attend, ?_, ?_⟩
    · rw [World.attend, Watch.pollers_wakeGranted]
      exact hw.lt_length
    · rw [World.attend, Watch.clockwork_wakeGranted]
      exact hw.clockwork

/-- No ticker is due after something was done at the desk and a cycle was woken. -/
theorem settled_attend {now : Nat} {w : World} (h : w.watch.Settled now) (desk : Desk) :
    (w.withDesk desk).attend.watch.Settled now := by
  intro n hn
  rw [World.attend, Watch.pollers_wakeGranted] at hn
  rw [World.attend, Watch.clockwork_wakeGranted]
  exact h n hn

/-- When a session has settled, no ticker is due. -/
theorem settled_settle {s : Session World Call} (hs : s.world.Orderly) :
    s.settle.1.world.watch.Settled s.clock := by
  refine (kept_orderly.settled (J := fun now w => w.watch.Settled now) ?_ ?_ ?_ hs).2
  · exact fun {now w} hw => (hw.attended.run now).2
  · intro now w k hw
    rcases w.exists_resume now k with ⟨desk, heq⟩
    simp only [Callable.resume]
    exact heq.symm ▸ settled_attend hw desk
  · intro now w name o hw
    cases o <;> exact hw

/-- A session that has just settled is a session, and then a settling. -/
theorem settled_play {s : Session World Call} (hs : s.world.Orderly)
    {acts : List (Session.Act Command)} (hlast : acts.getLast? = some .settle) :
    (s.play acts).world.watch.Settled (s.play acts).clock := by
  obtain ⟨init, rfl⟩ := List.getLast?_eq_some_iff.1 hlast
  have horderly := kept_orderly.play (fun _ hw => hw) hs init
  have hsettled := settled_settle horderly
  rw [← Session.clock_settle] at hsettled
  rw [Session.play_append]
  exact hsettled

/-- At its beginning a session has no tickers to forget. -/
theorem orderly_initial (b : Board) (backend : Backend) (latency : Nat) :
    (State.initial b backend latency).session.world.Orderly where
  attended :=
    { nodup := .nil
      woken := fun _ ht => absurd ht List.not_mem_nil
      alarms := fun _ hx => absurd hx List.not_mem_nil
      period_pos := fun _ hn => absurd hn (Nat.not_lt_zero _)
      unstarted := fun _ _ => rfl
      awaited := fun _ hn => absurd hn (Nat.not_lt_zero _) }
  named _ hx := absurd hx List.not_mem_nil

/-! ## The number of ticks -/

/-- A ticker that first ran at a time, and is on time unless it was told to stop. -/
structure Timed (period start now : Nat) (c : Clockwork) : Prop where
  period_eq : c.period = period
  onTime : c.told = false → c.OnTime start now

/-- A ticker keeps to its time. -/
theorem regular_timed (period start : Nat) : Watch.Regular (Timed period start) where
  told h := ⟨h.period_eq, (Watch.Regular.onTime start).told h.onTime⟩
  ticked hperiod h :=
    ⟨(Watch.Regular.period period).ticked hperiod h.period_eq,
      (Watch.Regular.onTime start).ticked hperiod h.onTime⟩

/-- A poller that first ran at a time, is not told to stop and has settled has started one cycle
then and one for every period since; if it was told to stop its ticker has stopped. -/
structure OnSchedule (p : Poller) (period start now : Nat) : Prop where
  period_eq : p.period = period
  started : p.told = false → p.stats.started = 1 + (now - start) / period
  stopped : p.told = true → p.ticker = .stopped

/-- A ticker that keeps to its time and has settled is on schedule. -/
theorem onSchedule_of_settled {w : World} {n period start now : Nat}
    (h : Keeps (Timed period start) n now w) (hsettled : w.watch.Settled now) :
    OnSchedule (w.watch.poller n) period start now where
  period_eq := h.clockwork.period_eq
  started htold := by
    have hontime := h.clockwork.onTime htold
    refine h.clockwork.period_eq ▸ hontime.started_eq ?_
    rcases hsettled n h.lt_length with hstopped | ⟨-, next, hdue, hahead⟩
    · rcases hontime.next with hdue | ⟨hfresh, -, -⟩
      · exact absurd (hstopped.symm.trans hdue) (by simp)
      · exact absurd (hstopped.symm.trans hfresh) (by simp)
    · rcases hontime.next with hdue' | ⟨hfresh, -, -⟩
      · exact Poller.Ticker.due.inj (hdue.symm.trans hdue') ▸ hahead
      · exact absurd (hdue.symm.trans hfresh) (by simp)
  stopped htold := by
    rcases hsettled n h.lt_length with hstopped | ⟨htold', -⟩
    · exact hstopped
    · exact absurd (htold.symm.trans htold') (by simp)

/-- A poller whose ticker has not run yet is on time when it does. -/
theorem keeps_timed_of_fresh {w : World} {n : Nat} (hw : w.Orderly)
    (hn : n < w.watch.pollers.length) (hfresh : (w.watch.poller n).ticker = .fresh) (now : Nat) :
    Keeps (Timed (w.watch.poller n).period now) n now w := by
  have hstarted : (w.watch.clockwork n).started = 0 := hw.attended.unstarted n hfresh
  refine ⟨hw, hn, rfl, fun _ => ⟨Or.inr ⟨hfresh, hstarted, rfl⟩, Nat.le_refl now, ?_⟩⟩
  rw [hstarted, Nat.zero_mul]
  exact Nat.le_add_right now _

/-- A ticker that has run keeps to its time in every session. -/
theorem keeps_timed_play {s : Session World Call} {n period start : Nat}
    (h : Keeps (Timed period start) n s.clock s.world)
    (hrun : (s.world.watch.poller n).ticker ≠ .fresh) (acts : List (Session.Act Command)) :
    Keeps (Timed period start) n (s.play acts).clock (s.play acts).world := by
  have hkept := (kept_regular ((regular_timed period start).and Watch.Regular.ne_fresh) n).play
    (fun {now later w} hle hw => ?_) (s := s) ⟨h.orderly, h.lt_length, h.clockwork, hrun⟩ acts
  · exact ⟨hkept.orderly, hkept.lt_length, hkept.clockwork.1⟩
  · rcases hw.clockwork with ⟨htimed, hrun⟩
    exact ⟨hw.orderly, hw.lt_length,
      ⟨htimed.period_eq, fun htold => (htimed.onTime htold).later hrun hle⟩, hrun⟩

/-- In every session, whichever backend it has and whatever happens in it, no tick of a poller is
lost.  Whenever a session has settled in which a ticker first ran at some time, its poller has
started one cycle then and one for every period since, unless it was told to stop; then its ticker
has stopped, and a poller whose ticker has stopped starts no cycle any more. -/
theorem no_tick_lost (b : Board) (backend : Backend) (latency : Nat)
    (acts : List (Session.Act Command)) (n : Nat) :
    let s := (State.initial b backend latency).session.play acts
    let p := s.world.watch.poller n
    (n < s.world.watch.pollers.length → p.ticker = .fresh → 0 < p.period ∧
      ∀ more, (Session.Act.settle :: more).getLast? = some .settle →
        OnSchedule ((s.play (.settle :: more)).world.watch.poller n) p.period s.clock
          (s.play (.settle :: more)).clock) ∧
      (p.ticker = .stopped → ∀ more,
        ((s.play more).world.watch.poller n).ticker = .stopped ∧
          ((s.play more).world.watch.poller n).stats.started = p.stats.started) := by
  intro s p
  have horderly : s.world.Orderly :=
    kept_orderly.play (fun _ hw => hw) (orderly_initial b backend latency) acts
  constructor
  · intro hn hfresh
    refine ⟨horderly.attended.period_pos n hn, fun more hlast => ?_⟩
    have hfirst := (kept_regular (regular_timed p.period s.clock) n).settle
      (s := s) (keeps_timed_of_fresh horderly hn hfresh s.clock)
    have hrun : (s.settle.1.world.watch.poller n).ticker ≠ .fresh := by
      rcases settled_settle horderly n hfirst.lt_length with hstopped | ⟨-, next, hdue, -⟩
      · exact fun h => absurd (hstopped.symm.trans h) (by simp)
      · exact fun h => absurd (hdue.symm.trans h) (by simp)
    have htimed : Keeps (Timed p.period s.clock) n s.settle.1.clock s.settle.1.world := by
      rw [Session.clock_settle]
      exact hfirst
    exact onSchedule_of_settled (keeps_timed_play htimed hrun more) (settled_play horderly hlast)
  · intro hstopped more
    have hn : n < s.world.watch.pollers.length := by
      by_contra hge
      rw [show p = _ from Watch.poller_of_length_le (Nat.le_of_not_lt hge)] at hstopped
      exact absurd hstopped (by simp)
    have hkept := (kept_regular (Watch.Regular.stopped p.stats.started) n).play
      (fun _ hw => ⟨hw.orderly, hw.lt_length, hw.clockwork⟩)
      (s := s) ⟨horderly, hn, hstopped, rfl⟩ more
    exact hkept.clockwork

/-- A board with an event. -/
def stadium : Board where
  gate := { name := "awards", options := {} }
  view := { eventId := some 1 }

/-- A poller is started that refreshes the board every ten milliseconds, while the backend takes a
hundred to answer. -/
def rollCall : Session World Call :=
  (State.initial stadium (.store {}) 100).session.play
    [.step (.act (.startPoller "roll call" 10))]

/-- The clock jumps over three ticks while the first cycle is under way. -/
def longWait : List (Session.Act Command) :=
  [.step (.skip 35), .settle]

/-- The ticks that the clock has jumped over are made up for, and their cycles overlap. -/
theorem no_tick_lost_longWait :
    0 < rollCall.world.watch.pollers.length ∧
      (rollCall.world.watch.poller 0).ticker = .fresh ∧
      (Session.Act.settle :: longWait).getLast? = some .settle ∧
      ((rollCall.play (.settle :: longWait)).world.watch.poller 0).told = false ∧
      ((rollCall.play (.settle :: longWait)).world.watch.poller 0).stats.started = 4 ∧
      (rollCall.play (.settle :: longWait)).world.watch.cycles.length = 4 := by
  have hstarted : 0 < rollCall.world.watch.pollers.length := by decide
  have hfresh : (rollCall.world.watch.poller 0).ticker = .fresh := rfl
  have htold : ((rollCall.play (.settle :: longWait)).world.watch.poller 0).told = false := by
    decide +kernel
  have hclock : 1 + ((rollCall.play (.settle :: longWait)).clock - rollCall.clock) / 10 = 4 := by
    decide +kernel
  rcases (no_tick_lost stadium (.store {}) 100
    [.step (.act (.startPoller "roll call" 10))] 0).1 hstarted hfresh with ⟨-, hschedule⟩
  have hcount := ((hschedule longWait rfl).started htold).trans hclock
  exact ⟨hstarted, hfresh, rfl, htold, hcount, by decide +kernel⟩

end BoardSession
end AwardsDesk
