import AwardsDesk.Session.Basic

/-!
# Runs of a session

A move of a session is made of steps and of settlings: the clock runs by single
milliseconds with a settling after each, and every move ends with one.

Main definitions:

- Function {lit}`Session.play`: steps and settlings in any order.
- Function {lit}`Move.acts`: the steps and settlings of a move.
- Structures {lit}`Session.Kept` and {lit}`Session.Lasting`: what whatever a session does to
  its world keeps, and a relation between worlds that it takes further.

Main results:

- Theorem {lit}`Session.run_eq_play`: a move is its steps and settlings.
- Theorems {lit}`Session.Kept.play` and {lit}`Session.Kept.settled`: what is kept holds at
  all times, and what holds once the session has settled.
- Theorem {lit}`Session.Lasting.play`: such a relation holds between a session's world and
  its later ones.
- Theorem {lit}`Session.Lasting.exists_of_mem_settle`: a call that ended in a settling ended
  when it went on at some moment of it.
-/

namespace AwardsDesk
namespace Session

variable {σ δ κ ρ : Type} [Callable σ κ δ ρ]

/-- Something that a session does: it takes a step, or it settles. -/
inductive Act (δ : Type) where
  | step (d : Step δ)
  | settle

/-- A step is taken, or the session settles. -/
def perform (s : Session σ κ) : Act δ → Session σ κ
  | .step d => (s.step d).1
  | .settle => s.settle.1

/-- Steps and settlings one after another. -/
def play (s : Session σ κ) (acts : List (Act δ)) : Session σ κ :=
  acts.foldl perform s

/-- A step or a settling, and the rest. -/
@[simp]
theorem play_cons (s : Session σ κ) (a : Act δ) (acts : List (Act δ)) :
    s.play (a :: acts) = (s.perform a).play acts :=
  rfl

/-- What is done is done in parts. -/
theorem play_append (s : Session σ κ) (acts more : List (Act δ)) :
    s.play (acts ++ more) = (s.play acts).play more := by
  simp [play]

/-- The clock runs for a number of milliseconds, with a settling after each. -/
def ticks : Nat → List (Act δ)
  | 0 => []
  | ms + 1 => .step (.skip 1) :: .settle :: ticks ms

end Session

/-- The steps and settlings of a move. -/
def Move.acts {δ : Type} : Move δ → List (Session.Act δ)
  | .advance ms => Session.ticks ms ++ [.settle]
  | .step d => [.step d, .settle]
  | .batch ds => ds.map .step ++ [.settle]

namespace Session

variable {σ δ κ ρ : Type} [Callable σ κ δ ρ]

/-- The clock runs by single milliseconds. -/
theorem advance_eq_play (ms : Nat) (s : Session σ κ) (ended : List (Ended ρ)) :
    (advance ms s ended).1 = s.play (ticks ms) := by
  induction ms generalizing s ended with
  | zero => rfl
  | succ ms ih =>
      rw [advance, ih]
      rfl

/-- Steps of a batch are taken one after another. -/
theorem steps_eq_play (s : Session σ κ) (ds : List (Step δ)) :
    (s.steps ds).1 = s.play (ds.map .step) := by
  induction ds generalizing s with
  | nil => rfl
  | cons d ds ih =>
      rw [steps, List.map_cons, play_cons]
      exact ih (s.step d).1

/-- A move is its steps and settlings, the last of which is a settling. -/
theorem run_eq_play (s : Session σ κ) (m : Move δ) : (s.run m).1 = s.play m.acts := by
  cases m with
  | advance ms =>
      rw [Move.acts, play_append, ← advance_eq_play ms s []]
      rfl
  | step d => rfl
  | batch ds =>
      rw [Move.acts, play_append, ← steps_eq_play]
      rfl

/-! ## Later worlds -/

/-- A call that is pending after each went on once was pending before and went on waiting. -/
theorem exists_of_mem_pending {now : Nat} {ps : List (Pending κ)} {w : σ} {q : Pending κ}
    (hq : q ∈ (Session.sweep now ps w).pending) :
    ∃ p ∈ ps, p.name = q.name ∧ p.serial = q.serial ∧
      ∃ v : σ, (Callable.resume now v p.call).2 = .waiting q.call := by
  induction ps generalizing w with
  | nil => exact absurd hq List.not_mem_nil
  | cons p rest ih =>
      rw [Session.sweep] at hq
      cases hgo : Callable.resume now w p.call with
      | mk w' progress =>
          rw [hgo] at hq
          cases progress with
          | waiting call =>
              rcases List.mem_cons.1 hq with rfl | hq
              · exact ⟨p, List.mem_cons_self, rfl, rfl, w, congrArg Prod.snd hgo⟩
              · obtain ⟨p', hp', hsame⟩ := ih hq
                exact ⟨p', List.mem_cons_of_mem p hp', hsame⟩
          | ended result =>
              obtain ⟨p', hp', hsame⟩ := ih hq
              exact ⟨p', List.mem_cons_of_mem p hp', hsame⟩

/-- What holds of a world at a time and is kept by whatever a session does to its world at that
time. -/
structure Kept (κ : Type) {σ δ ρ : Type} [Callable σ κ δ ρ] (I : Nat → σ → Prop) : Prop where
  background : ∀ {now w}, I now w → I now (Callable.background κ now w)
  act : ∀ {now : Nat} {w : σ} {d : δ} {w' : σ} {progress : Progress κ ρ},
    I now w → Callable.act now w d = .ok (w', progress) → I now w'
  resume : ∀ {now w} (k : κ), I now w → I now (Callable.resume now w k).1
  abandon : ∀ {now w} (k : κ), I now w → I now (Callable.abandon w k)
  keep : ∀ {now w} name r, I now w → I now (Callable.keep κ w name r)

/-- What is kept when calls go on and end is kept when each goes on once. -/
theorem sweep_keeps {I : Nat → σ → Prop}
    (hresume : ∀ {now w} (k : κ), I now w → I now (Callable.resume now w k).1)
    (hkeep : ∀ {now w} name r, I now w → I now (Callable.keep κ w name r))
    (ps : List (Pending κ)) {now : Nat} {w : σ} (hw : I now w) :
    I now (Session.sweep now ps w).world := by
  induction ps generalizing w with
  | nil => exact hw
  | cons p rest ih =>
      have hgone := hresume p.call hw
      rw [Session.sweep]
      cases hgo : Callable.resume now w p.call with
      | mk w' progress =>
          rw [hgo] at hgone
          cases progress with
          | waiting call => exact ih hgone
          | ended result => exact ih (hkeep p.name result hgone)

/-- No time passes when a session settles. -/
theorem clock_settle (s : Session σ κ) : s.settle.1.clock = s.clock := by
  induction s using Session.settle.induct with
  | case1 s swept hended => rw [Session.settle, if_pos hended]
  | case2 s swept next hended last more hlast ih =>
      have hsettle : s.settle.1 = next.settle.1 := by
        rw [Session.settle, if_neg hended]
      rw [hsettle, ih]

namespace Kept

variable {I : Nat → σ → Prop}

/-- Pending calls go on. -/
theorem sweep (h : Kept κ I) (ps : List (Pending κ)) {now : Nat} {w : σ} (hw : I now w) :
    I now (Session.sweep now ps w).world :=
  sweep_keeps h.resume h.keep ps hw

/-- When a session has settled, what its own tasks bring about still holds if it is kept when calls
go on and end. -/
theorem settled (h : Kept κ I) {J : Nat → σ → Prop}
    (hbackground : ∀ {now w}, I now w → J now (Callable.background κ now w))
    (hresume : ∀ {now w} (k : κ), J now w → J now (Callable.resume now w k).1)
    (hkeep : ∀ {now w} name r, J now w → J now (Callable.keep κ w name r))
    {s : Session σ κ} (hs : I s.clock s.world) :
    I s.clock s.settle.1.world ∧ J s.clock s.settle.1.world := by
  have hswept : ∀ s : Session σ κ, I s.clock s.world → I s.clock
      (Session.sweep s.clock s.pending (Callable.background κ s.clock s.world)).world :=
    fun s hs => h.sweep s.pending (h.background hs)
  induction s using Session.settle.induct with
  | case1 s swept hended =>
      rw [Session.settle, if_pos hended]
      exact ⟨hswept s hs, sweep_keeps hresume hkeep s.pending (hbackground hs)⟩
  | case2 s swept next hended last more hlast ih =>
      have hsettle : s.settle.1 = next.settle.1 := by
        rw [Session.settle, if_neg hended]
      rw [hsettle]
      exact ih (hswept s hs)

/-- A session settles. -/
theorem settle (h : Kept κ I) {s : Session σ κ} (hs : I s.clock s.world) :
    I s.clock s.settle.1.world :=
  (h.settled (J := fun _ _ => True) (fun _ => trivial) (fun _ _ => trivial)
    (fun _ _ _ => trivial) hs).1

/-- A step is taken, and what is kept lasts if the clock jumps. -/
theorem step (h : Kept κ I) (hlater : ∀ {now later w}, now ≤ later → I now w → I later w)
    {s : Session σ κ} (hs : I s.clock s.world) (d : Step δ) :
    I (s.step d).1.clock (s.step d).1.world := by
  cases d with
  | skip ms => exact hlater (Nat.le_add_right s.clock ms) hs
  | unknown => exact hs
  | cancel name =>
      simp only [Session.step, Session.cancel]
      cases s.pending.find? (·.name == name) with
      | none => exact hs
      | some p => exact h.abandon p.call hs
  | act d =>
      simp only [Session.step, Session.act]
      split
      · exact hs
      · cases hact : (Callable.act s.clock s.world d : Except Refusal (σ × Progress κ ρ)) with
        | error why => exact hs
        | ok taken =>
            rcases taken with ⟨w, progress⟩
            have hw := h.act hs hact
            cases progress with
            | waiting call => exact hw
            | ended r =>
                cases Callable.callName? σ κ d with
                | none => exact hw
                | some name => exact h.keep name r hw

/-- Steps are taken and the session settles, in any order. -/
theorem play (h : Kept κ I) (hlater : ∀ {now later w}, now ≤ later → I now w → I later w)
    {s : Session σ κ} (hs : I s.clock s.world) (acts : List (Act δ)) :
    I (s.play acts).clock (s.play acts).world := by
  induction acts generalizing s with
  | nil => exact hs
  | cons a acts ih =>
      rw [play_cons]
      refine ih ?_
      cases a with
      | step d => exact h.step hlater hs d
      | settle =>
          have hsettled := h.settle hs
          rwa [← clock_settle s] at hsettled

end Kept

/-- A relation between a world and later ones that whatever a session does to its world takes
further. -/
structure Lasting (κ : Type) {σ δ ρ : Type} [Callable σ κ δ ρ] (R : σ → σ → Prop) : Prop where
  refl : ∀ w, R w w
  trans : ∀ {u v w}, R u v → R v w → R u w
  background : ∀ now w, R w (Callable.background κ now w)
  act : ∀ {now : Nat} {w : σ} {d : δ} {w' : σ} {progress : Progress κ ρ},
    Callable.act now w d = .ok (w', progress) → R w w'
  resume : ∀ now w (k : κ), R w (Callable.resume now w k).1
  abandon : ∀ w (k : κ), R w (Callable.abandon w k)
  keep : ∀ w name r, R w (Callable.keep κ w name r)

namespace Lasting

variable {R : σ → σ → Prop}

/-- To be later than some world is kept at all times. -/
theorem kept (h : Lasting κ R) (first : σ) : Kept κ fun _ w => R first w where
  background hw := h.trans hw (h.background _ _)
  act hw hact := h.trans hw (h.act hact)
  resume k hw := h.trans hw (h.resume _ _ k)
  abandon k hw := h.trans hw (h.abandon _ k)
  keep name r hw := h.trans hw (h.keep _ name r)

/-- Pending calls go on. -/
theorem sweep (h : Lasting κ R) (now : Nat) (ps : List (Pending κ)) (w : σ) :
    R w (Session.sweep now ps w).world :=
  (h.kept w).sweep ps (h.refl w)

/-- A session settles. -/
theorem settle (h : Lasting κ R) (s : Session σ κ) : R s.world s.settle.1.world :=
  (h.kept s.world).settle (h.refl s.world)

/-- Steps are taken and the session settles, in any order. -/
theorem play (h : Lasting κ R) (s : Session σ κ) (acts : List (Act δ)) :
    R s.world (s.play acts).world :=
  (h.kept s.world).play (fun _ hw => hw) (h.refl s.world) acts

/-- A call that ended when each went on once was pending before, and ended when it went
on. -/
theorem exists_of_mem_ended (h : Lasting κ R) {now : Nat} {ps : List (Pending κ)} {w : σ}
    {e : Ended ρ} (he : e ∈ (Session.sweep now ps w).ended) :
    ∃ p ∈ ps, p.name = e.name ∧ p.serial = e.serial ∧
      ∃ v, R w v ∧ (Callable.resume now v p.call).2 = .ended e.result ∧
        R v (Session.sweep now ps w).world := by
  induction ps generalizing w with
  | nil => exact absurd he List.not_mem_nil
  | cons p rest ih =>
      have hall := h.sweep now (p :: rest) w
      have hresume := h.resume now w p.call
      rw [Session.sweep] at he hall ⊢
      cases hgo : Callable.resume now w p.call with
      | mk w' progress =>
          rw [hgo] at he hall hresume
          simp only at he hall hresume ⊢
          cases progress with
          | waiting call =>
              obtain ⟨p', hp', hname, hserial, v, hv, hsame⟩ := ih he
              exact ⟨p', List.mem_cons_of_mem p hp', hname, hserial, v, h.trans hresume hv, hsame⟩
          | ended result =>
              rcases List.mem_cons.1 he with rfl | he
              · exact ⟨p, List.mem_cons_self, rfl, rfl, w, h.refl w, congrArg Prod.snd hgo, hall⟩
              · obtain ⟨p', hp', hname, hserial, v, hv, hsame⟩ := ih he
                have hkept := h.trans hresume (h.keep w' p.name result)
                exact ⟨p', List.mem_cons_of_mem p hp', hname, hserial, v, h.trans hkept hv, hsame⟩

/-- A call that ended in a settling was pending before it, had not changed its label since,
and ended when it went on at some moment of the settling. -/
theorem exists_of_mem_settle (h : Lasting κ R) {β : Type} (label : κ → β)
    (hlabel : ∀ now (w : σ) (k k' : κ),
      (Callable.resume now w k).2 = .waiting k' → label k' = label k)
    {s : Session σ κ} {e : Ended ρ} (he : e ∈ s.settle.2) :
    ∃ p ∈ s.pending, p.name = e.name ∧ p.serial = e.serial ∧
      ∃ v k, label k = label p.call ∧ R s.world v ∧
        (Callable.resume s.clock v k).2 = .ended e.result ∧ R v s.settle.1.world := by
  induction s using Session.settle.induct with
  | case1 s swept hended =>
      rw [Session.settle, if_pos hended] at he
      exact absurd he List.not_mem_nil
  | case2 s swept next hended last more hlast ih =>
      have hsettle : s.settle = (next.settle.1, swept.ended ++ next.settle.2) := by
        rw [Session.settle, if_neg hended]
      have hbackground := h.background s.clock s.world
      have hswept := h.sweep s.clock s.pending (Callable.background κ s.clock s.world)
      rw [hsettle] at he ⊢
      rcases List.mem_append.1 he with he | he
      · obtain ⟨p, hp, hname, hserial, v, hv, hresult, hlater⟩ := h.exists_of_mem_ended he
        refine ⟨p, hp, hname, hserial, v, p.call, rfl, h.trans hbackground hv, hresult, ?_⟩
        exact h.trans hlater (h.settle next)
      · obtain ⟨q, hq, hname, hserial, v, k, hk, hv, hresult, hlater⟩ := ih he
        obtain ⟨p, hp, hname', hserial', v', hwaiting⟩ := exists_of_mem_pending hq
        refine ⟨p, hp, hname'.trans hname, hserial'.trans hserial, v, k, ?_, ?_, hresult, hlater⟩
        · exact hk.trans (hlabel s.clock v' p.call q.call hwaiting)
        · exact h.trans (h.trans hbackground hswept) hv

end Lasting

end Session
end AwardsDesk
