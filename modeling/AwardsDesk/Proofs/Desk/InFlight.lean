import AwardsDesk.Proofs.Board.Asked
import AwardsDesk.Proofs.Desk.Failures
import AwardsDesk.Proofs.Desk.Run

/-!
# Requests in flight

A store counts the requests that have begun and not ended.  When it is asked only by the
board of its desk, and nobody gives up a call whose request is under way, it never counts
more than one, for the board never has two requests under way.

Main definitions:

- Structure {lit}`Desk.Counted`: the count of a store and the requests of its board agree.
- Inductive type {lit}`Watch.Tending` and function {lit}`Watch.tend`: what happens at a desk
  with a store, whose contents may be changed by hand.
- Definition {lit}`Watch.Patient`: no call is given up whose request is under way.

Main results:

- Theorem {lit}`Desk.Counted.step`: every event at a desk keeps the count.
- Theorem {lit}`Board.one_call_at_a_time`: one request at a time, for every board.
-/

namespace AwardsDesk

open Board (Request Error Outcome Action)

/-- A request that ends is counted as under way no more. -/
theorem Store.count_finish (s : Store) (r : Request) :
    (s.finish r).1.inFlight = s.inFlight - 1 ∧ (s.finish r).1.maxInFlight = s.maxInFlight := by
  simp only [finish]
  split
  · exact ⟨rfl, rfl⟩
  · split <;> exact ⟨rfl, rfl⟩

variable {d : Desk} {v : Board.View} {s : Store}

/-! ## The count of a store -/

namespace Desk

/-- The store of a desk counts the request of the board that is under way, if there is one,
and has never counted two. -/
structure Counted (d : Desk) (s : Store) : Prop where
  backend : d.backend = .store s
  inFlight_le : s.inFlight ≤ 1
  idle : (∀ n, d.board.request? n = none) → s.inFlight = 0
  max_le : s.maxInFlight ≤ 1

namespace Counted

/-- When no request of the board is under way after a change, none was before. -/
theorem of_kept (hc : d.Counted s) {board : Board}
    (hkept : ∀ n r, d.board.request? n = some r → board.request? n = some r) :
    Counted { d with board } s where
  backend := hc.backend
  inFlight_le := hc.inFlight_le
  idle := by
    intro hnone
    apply hc.idle
    intro n
    cases hrequest : d.board.request? n with
    | none => rfl
    | some r =>
        have hsome := hkept n r hrequest
        rw [hnone n] at hsome
        simp at hsome
  max_le := hc.max_le

/-- A request that begins when no other is under way is the only one counted. -/
theorem begin (hc : d.Counted s) (hidle : s.inFlight = 0) {board : Board} {job : Nat} {r : Request}
    (hrequest : board.request? job = some r) :
    Counted { d with board, backend := d.backend.begin r } s.begin where
  backend := by
    rw [hc.backend]
    rfl
  inFlight_le := by
    simp [Store.begin, hidle]
  idle := by
    intro hnone
    change ∀ n, board.request? n = none at hnone
    rw [hnone job] at hrequest
    simp at hrequest
  max_le := by
    have hmax := hc.max_le
    simp only [Store.begin, hidle]
    omega

/-- After an answer no request is counted. -/
theorem answer (hc : d.Counted s) (job : Nat) (r : Request) :
    ∃ s', (d.answer job r).1.Counted s' := by
  obtain ⟨hcount, hmax⟩ := s.count_finish r
  have hle := hc.inFlight_le
  have hbackend : (d.answer job r).1.backend = .store (s.finish r).1 := by
    have hfinish : (d.backend.finish r).1 = .store (s.finish r).1 := by
      rw [hc.backend]
      rfl
    unfold Desk.answer
    simp only
    split <;> exact hfinish
  refine ⟨(s.finish r).1, hbackend, ?_, ?_, ?_⟩
  · omega
  · intro _
    omega
  · rw [hmax]
    exact hc.max_le

/-- A job that goes on at the gate may make a request, which is counted alone. -/
theorem follow (hc : d.Counted s) (h : d.board.InStep v) {e : Board.Event} {advance : Board.Advance}
    (hreply : (d.board.step e).2 = some advance)
    (hkept : ∀ n r, d.board.request? n = some r → (d.board.step e).1.request? n = some r)
    (now : Nat) :
    ∃ s', (({ d with board := (d.board.step e).1 } : Desk).follow now advance).1.Counted s' := by
  have hquiet : Counted { d with board := (d.board.step e).1 } s := hc.of_kept hkept
  cases advance with
  | ended result => exact ⟨s, hquiet⟩
  | waiting job => exact ⟨s, hquiet⟩
  | asking job r =>
      obtain ⟨hnone, -⟩ := (h.change e).fresh_of_asking h hreply
      have hrequest := h.request?_of_asking e hreply
      have hbegun := hc.begin (hc.idle hnone) hrequest
      simp only [Desk.follow]
      split
      · exact hbegun.answer job r
      · exact ⟨_, hbegun⟩

/-- Every event at a desk keeps the count, unless a call is given up whose request is under
way. -/
theorem step (hc : d.Counted s) (h : d.board.InStep v) (e : Event)
    (hpatient : ∀ x, e = .cancel x → d.board.request? x.job = none) :
    ∃ s', (d.step e).Counted s' := by
  cases e with
  | start now a =>
      exact hc.follow h (e := .start now a) rfl (fun n r hr => h.request?_start hr now a) now
  | resume now x =>
      simp only [Desk.step, Desk.resume]
      cases x.due with
      | none =>
          exact hc.follow h (e := .resume now x.job) rfl
            (fun n r hr => h.request?_resume hr now x.job) now
      | some due =>
          by_cases hdue : due ≤ now
          · simp only [if_pos hdue]
            cases d.board.request? x.job with
            | none => exact ⟨s, hc⟩
            | some r => exact hc.answer x.job r
          · simp only [if_neg hdue]
            exact ⟨s, hc⟩
  | cancel x =>
      refine ⟨s, hc.of_kept fun n r hr => ?_⟩
      refine h.request?_step (e := .cancel x.job) hr (by simp) ?_
      intro heq
      obtain rfl := Board.Event.cancel.inj heq
      rw [hpatient x rfl] at hr
      simp at hr
  | outside e =>
      refine ⟨s, hc.of_kept fun n r hr => ?_⟩
      exact h.request?_step (e := .outside e) hr (by simp) (by simp)
  | fail reason =>
      refine ⟨s.armFailure reason, ?_, hc.inFlight_le, hc.idle, hc.max_le⟩
      simp [Desk.step, Backend.arm, hc.backend]

/-- A run in which no call is given up keeps the count. -/
theorem run (hc : d.Counted s) (h : d.board.InStep v) {es : List Event}
    (hes : ∀ e ∈ es, ∀ x, e ≠ .cancel x) : ∃ s', (d.run es).Counted s' := by
  induction es generalizing d s v with
  | nil => exact ⟨s, hc⟩
  | cons e es ih =>
      have hfirst : ∀ x, e = .cancel x → d.board.request? x.job = none :=
        fun x heq => absurd heq (hes e List.mem_cons_self x)
      obtain ⟨s', hc'⟩ := hc.step h e hfirst
      have hnext := inStep_play h (d.moves e)
      rw [← step_eq_play h] at hnext
      exact ih hc' hnext fun e' he' => hes e' (List.mem_cons_of_mem e he')

end Counted
end Desk

/-! ## Desks with pollers -/

/-- A store has other contents. -/
def Backend.edit : Backend → List (UInt64 × Store.Event) → Backend
  | store s, events => store { s with events }
  | wire w, _ => wire w

namespace Watch

/-- A board that asks a store, with no pollers yet. -/
def ofStore (b : Board) (s : Store) (latency : Nat) : Watch where
  desk := { board := b, backend := .store s, latency }

/-- Something that happens at a desk with a store. -/
inductive Tending where
  | event (e : Event)
  /-- The contents of the store are changed by hand. -/
  | edit (events : List (UInt64 × Store.Event))

/-- One thing happens. -/
def tend (w : Watch) : Tending → Watch
  | .event e => w.step e
  | .edit events => { w with desk := { w.desk with backend := w.desk.backend.edit events } }

/-- One thing happens after another. -/
def tended (w : Watch) (ts : List Tending) : Watch :=
  ts.foldl tend w

/-- Whether no call is given up whose request is under way. -/
def Patient (w : Watch) : List Tending → Prop
  | [] => True
  | t :: ts =>
    (∀ x, t = .event (.desk (.cancel x)) → w.desk.board.request? x.job = none) ∧
      Patient (w.tend t) ts

/-- Pollers give up no call. -/
theorem turnEvents_ne_cancel (now turns : Nat) (w : Watch) :
    ∀ e ∈ turnEvents now turns w, ∀ x, e ≠ .cancel x := by
  induction turns generalizing w with
  | zero => simp [turnEvents]
  | succ turns ih =>
      simp only [turnEvents]
      cases w.agenda.woken with
      | nil => simp
      | cons t rest =>
          intro e he
          rcases List.mem_append.1 he with hnow | hlater
          · cases t with
            | ticker n => simp [taskEvents] at hnow
            | cycle id =>
                simp only [taskEvents, Option.mem_toList, Option.map_eq_some_iff] at hnow
                rcases hnow with ⟨c, -, rfl⟩
                intro x
                unfold Cycle.event
                split <;> simp
          · exact ih _ e hlater

/-- Whatever happens at a desk, the board stays in step and the store keeps its count. -/
theorem counted_tend {w : Watch} (hc : w.desk.Counted s) (h : w.desk.board.InStep v) {t : Tending}
    (hpatient : ∀ x, t = .event (.desk (.cancel x)) → w.desk.board.request? x.job = none) :
    (∃ s', (w.tend t).desk.Counted s') ∧ ∃ v', (w.tend t).desk.board.InStep v' := by
  cases t with
  | edit events =>
      refine ⟨⟨{ s with events }, ?_, hc.inFlight_le, hc.idle, hc.max_le⟩, v, h⟩
      simp [tend, Backend.edit, hc.backend]
  | event e =>
      have hrun : (w.step e).desk = w.desk.run (w.deskEvents e) := desk_step w e
      constructor
      · simp only [tend]
        rw [hrun]
        cases e with
        | desk e =>
            apply hc.step h e
            rintro x rfl
            exact hpatient x rfl
        | addPoller period => exact ⟨s, hc⟩
        | signal n => exact ⟨s, hc⟩
        | pass now => exact hc.run h (turnEvents_ne_cancel now _ _)
      · simp only [tend]
        rw [hrun, Desk.run_eq_play h]
        exact ⟨_, Desk.inStep_play h _⟩

/-- A store that is asked by a board only counts one request at most. -/
theorem counted_tended {w : Watch} (hc : w.desk.Counted s) (h : w.desk.board.InStep v)
    {ts : List Tending} (hpatient : w.Patient ts) : ∃ s', (w.tended ts).desk.Counted s' := by
  induction ts generalizing w s v with
  | nil => exact ⟨s, hc⟩
  | cons t ts ih =>
      obtain ⟨⟨s', hc'⟩, v', h'⟩ := counted_tend hc h hpatient.1
      exact ih hc' h' hpatient.2

end Watch

/-! ## One call at a time -/

/-- No backend answers a request with a failure that needs none. -/
theorem Backend.not_barren_of_finish (backend : Backend) {r : Request} {e : Error}
    (h : (backend.finish r).2 = .error e) : ¬Board.Barren (.error e) := by
  intro hbarren
  rcases backend.error_of_finish h with ⟨reason, rfl⟩ | ⟨fault, rfl⟩
  · cases hbarren
  · cases hbarren

/-- A new board makes one request at a time, whatever the backend, and each call makes one at
most.  A store that is asked by the board only, and whose requests nobody gives up, never
counts more than one. -/
theorem Board.one_call_at_a_time {b : Board} (hnew : b.IsNew) :
    (∀ es, b.OneCall es) ∧
      (∀ (backend : Backend) r e, (backend.finish r).2 = .error e → ¬Barren (.error e)) ∧
      ∀ (s : Store) (latency : Nat) (ts : List Watch.Tending), s.inFlight = 0 →
        s.maxInFlight ≤ 1 → (Watch.ofStore b s latency).Patient ts →
        ∃ s', ((Watch.ofStore b s latency).tended ts).desk.backend = .store s' ∧
          s'.maxInFlight ≤ 1 := by
  refine ⟨hnew.oneCall, fun backend r e h => backend.not_barren_of_finish h, ?_⟩
  intro s latency ts hidle hmax hpatient
  have hc : (Watch.ofStore b s latency).desk.Counted s := by
    refine ⟨rfl, ?_, fun _ => hidle, hmax⟩
    omega
  obtain ⟨s', hc'⟩ := Watch.counted_tended hc hnew.inStep hpatient
  exact ⟨s', hc'.backend, hc'.max_le⟩

/-- Two refreshes that overlap. -/
def Watch.overlapping : List Watch.Tending :=
  [.event (.desk (.start 0 .refresh)), .event (.desk (.start 0 .refresh)),
    .event (.desk (.resume 5 { job := 0, due := some 5 })),
    .event (.desk (.resume 5 { job := 1 })),
    .event (.desk (.resume 10 { job := 1, due := some 10 }))]

/-- Two refreshes that overlap ask one after another. -/
theorem Board.one_call_overlapping :
    let b : Board :=
      { gate := { name := defaultGateName, options := {} }, view := { eventId := some 1 } }
    IsNew b ∧ b.OneCall [.start 0 .refresh, .start 0 .refresh] ∧
      ∃ s', ((Watch.ofStore b {} 5).tended Watch.overlapping).desk.backend = .store s' ∧
        s'.maxInFlight ≤ 1 := by
  intro b
  have hnew : b.IsNew := .configured { eventId := some 1 } b rfl
  obtain ⟨hone, -, hstore⟩ := one_call_at_a_time hnew
  refine ⟨hnew, hone _, hstore {} 5 _ rfl (Nat.zero_le 1) ?_⟩
  simp [Watch.overlapping, Watch.Patient]

example :
    let b : Board :=
      { gate := { name := Board.defaultGateName, options := {} }, view := { eventId := some 1 } }
    ((Watch.ofStore b {} 5).tended Watch.overlapping).desk.backend =
      .store { calls := 2, maxInFlight := 1 } := by
  rfl

/-- A backend behind a gate of its own that nobody gets. -/
def Board.shutBackend : Responder :=
  fun _ => .error (.gate (.timeout "store" (.ofMillis 5)))

/-- A toggle that has asked the backend ends in an error of a gate, if the backend has failed with
one: only the failures of the board's own gate tell that nothing was asked. -/
theorem Board.asked_before_gate_error :
    let b : Board :=
      { gate := { name := defaultGateName, options := {} }, view := { eventId := some 1 } }
    ofConfig { eventId := some 1 } = .ok b ∧
      (1, .setPickedUp 1 openAward.awardeeId false) ∈ b.asked togglingOpen ∧
      (b.run togglingOpen).callNumber? (.answer 1 shutBackend) = some 1 ∧
      ((b.run togglingOpen).step (.answer 1 shutBackend)).2 =
        some (.ended (.error (.gate (.timeout "store" (.ofMillis 5))))) ∧
      ¬ ∀ e id result, (b.run togglingOpen).callNumber? e = some id →
        ((b.run togglingOpen).step e).2 = some (.ended result) → Barren result →
        ∀ r, (id, r) ∉ b.asked (togglingOpen ++ [e]) := by
  intro b
  have hasked : (1, .setPickedUp 1 openAward.awardeeId false) ∈ b.asked togglingOpen := by
    decide +kernel
  have hreply : ((b.run togglingOpen).step (.answer 1 shutBackend)).2 =
      some (.ended (.error (.gate (.timeout "store" (.ofMillis 5))))) := by
    decide +kernel
  have hlast : (1, .setPickedUp 1 openAward.awardeeId false) ∈
      b.asked (togglingOpen ++ [.answer 1 shutBackend]) := by
    rw [asked_append]
    exact List.mem_append_left _ hasked
  refine ⟨rfl, hasked, rfl, hreply, fun hnone => ?_⟩
  exact hnone (.answer 1 shutBackend) 1 _ rfl hreply (.gate _) _ hlast

end AwardsDesk
