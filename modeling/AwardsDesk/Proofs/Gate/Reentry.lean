import AwardsDesk.Proofs.Gate.Nested

/-!
# A gate taken twice

A call whose list of gates has a gate twice takes it once and then waits behind itself: it
owns the slot for which its own request queues, and gives it back only when that request has
timed out.  So the work is never begun, nobody else gets the gate meanwhile, and the call ends
with a timeout if it is not given up before.

Main definitions:

- Function {lit}`Gate.obtains`: whether somebody gets the slot in an event.
- Structure {lit}`Task.NotReentrant`: the life of a call that takes a gate twice.

Main results:

- Theorem {lit}`Gate.Coherent.obtains_of_locked`: nobody gets a slot that a locked ticket owns.
- Theorem {lit}`Task.enter_waits`: a call that takes a gate twice has to wait for one.
- Theorem {lit}`Task.Under.resume_twice_cases`: how such a call goes on.
- Theorem {lit}`Task.not_reentrant`: no call takes a gate twice.
-/

namespace AwardsDesk
namespace Gate

/-! ## Locked gates -/

/-- Whether somebody is told that the slot is theirs. -/
def obtains : Reply → Bool
  | .admitted (.granted _) | .turned .granted => true
  | _ => false

/-- Nobody gets a slot that a locked ticket owns, whatever is done. -/
theorem Coherent.obtains_of_locked {g : Gate} {id : Nat} (h : g.Coherent)
    (hphase : g.phase id = .locked) (e : Event) : obtains (g.step e).2 = false := by
  have hused : g.phase id ≠ .released := by simp [hphase]
  rcases h.owner_of_phase hused with ⟨hg, -, hpending⟩
  cases e with
  | acquire now =>
      rw [Gate.step, h.acquire_of_grant (by simp [hg])]
      rfl
  | resume now n =>
      rw [Gate.step]
      rcases resume_cases g now n with heq | ⟨hn, hgrant, -⟩ | ⟨-, -, heq⟩
      · rw [heq]
        rfl
      · -- The owner has a ticket, and waits for nothing.
        rw [hpending] at hn
        exact absurd hn (h.slot.grant_notMem hgrant)
      · rw [heq]
        rfl
  | cancel n =>
      rw [Gate.step]
      split <;> rfl
  | lock n =>
      rcases step_lock_cases g n with ⟨err, heq⟩ | ⟨-, -, heq⟩ <;>
        exact heq ▸ rfl
  | unlock n =>
      rcases step_unlock_cases g n with ⟨err, heq⟩ | ⟨-, heq⟩ <;>
        exact heq ▸ rfl
  | drop n =>
      rw [Gate.step]
      split <;> rfl

namespace Task

variable {α : Type} {h : Hall} {held : List Hold} {work : Work α} {gates : List Nat}

/-! ## A call that takes a gate twice -/

/-- A call that takes a gate twice has to wait for one, and holds on to those that it has. -/
theorem enter_waits (hl : Locked h held) {inner : List Nat}
    (hvalid : ∀ n ∈ inner, n < h.gates.length)
    (htwice : ¬((held.map Hold.gate).reverse ++ inner).Nodup) (now : Nat) (work : Work α) :
    ∃ h' t, enter h now held work inner = (h', .waiting t) ∧ held <:+ t.held := by
  induction inner generalizing h held with
  | nil =>
      rw [List.append_nil, List.nodup_reverse] at htwice
      exact absurd hl.nodup htwice
  | cons n inner ih =>
      have hn : n < h.gates.length := hvalid n List.mem_cons_self
      rcases enter_cons_cases hl hn now work inner with ⟨id, heq, -, -⟩ | ⟨heq, hheld⟩
      · exact ⟨_, _, heq, List.suffix_rfl⟩
      · have hlength := Hall.length_moves h
          [⟨n, .acquire now⟩, ⟨n, .lock (h.gate n).slot.nextId⟩]
        have hrest := ih hheld (fun m hm => hlength.symm ▸ hvalid m (List.mem_cons_of_mem n hm)) ?_
        · rcases hrest with ⟨h', t, hwaits, hsuffix⟩
          exact ⟨h', t, heq.trans hwaits, (List.suffix_cons _ held).trans hsuffix⟩
        · rwa [path_cons rfl]

namespace Under

variable {task : Task α}

/-- A call under way that takes a gate twice is not at work. -/
theorem queued_of_twice (hu : Under gates work h task) (htwice : ¬gates.Nodup) :
    ∃ n id inner, task.stage = .queued n id inner ∧ n ∈ gates := by
  have hpath := hu.path
  unfold ahead at hpath
  cases hstage : task.stage with
  | queued n id inner =>
      rw [hstage] at hpath
      exact ⟨n, id, inner, rfl, by simp [← hpath]⟩
  | working wakeAt =>
      rw [hstage, List.append_nil] at hpath
      rw [← hpath, List.nodup_reverse] at htwice
      exact absurd hu.locked.nodup htwice

/-- A call under way that takes a gate twice waits on, and holds on to what it has, or its
request has timed out and it gives its gates back. -/
theorem resume_twice_cases (hu : Under gates work h task) (htwice : ¬gates.Nodup) (now : Nat) :
    (∃ h' t', task.resume h now = (h', .waiting t') ∧ task.held <:+ t'.held) ∨
      ∃ n id inner, task.stage = .queued n id inner ∧ n ∈ gates ∧
        ((h.gate n).resume now id).2 = .timedOut ∧
        let looked := h.move ⟨n, .resume now id⟩
        Locked looked task.held ∧
          task.resume h now = (looked.moves (task.held.flatMap giveBack),
            .ended (.error (.gate (h.gate n).timeoutError))) := by
  rcases hu.queued_of_twice htwice with ⟨n, id, inner, hstage, hn⟩
  rcases hu.resume_queued_cases hstage now with ⟨-, heq⟩ | ⟨hturn, hlocked, heq⟩ | ⟨-, hheld, heq⟩
  · exact Or.inl ⟨_, _, heq, List.suffix_rfl⟩
  · exact Or.inr ⟨n, id, inner, hstage, hn, hturn, hlocked, heq⟩
  · left
    have hpath : ((((⟨n, id⟩ : Hold) :: task.held).map Hold.gate).reverse ++ inner) = gates := by
      apply path_cons
      rw [← hu.path, ahead, hstage]
    have hvalid := hu.valid_moves [⟨n, .resume now id⟩, ⟨n, .lock id⟩]
    have hwaits := enter_waits hheld (fun m hm => hvalid m (by simp [← hpath, hm]))
      (hpath.symm ▸ htwice) now work
    rcases hwaits with ⟨h', t, hwaits, hsuffix⟩
    exact ⟨h', t, heq.trans hwaits, (List.suffix_cons _ task.held).trans hsuffix⟩

end Under

/-- The error of a request that waits too long stays the same while the gates go on. -/
theorem timeoutError_goes {h' : Hall} {now n : Nat} {served joined : List Hold}
    (hgoes : h.Goes now served joined h') (hn : n < h.gates.length) :
    (h'.gate n).timeoutError = (h.gate n).timeoutError := by
  rcases hgoes.runs n hn with ⟨es, hrun, -⟩
  have hsettings := settings_run (h.gate n) es
  rw [hrun, timeoutError, hsettings.1, hsettings.2, timeoutError]

/-! ## Among others -/

/-- Where a call that takes a gate twice has come since it held some tickets in a hall. -/
def Stuck (gates : List Nat) (work : Work α) (begun : Hall) (held : List Hold) :
    Hall × Run α → Prop
  | (h, .waiting t) => Under gates work h t ∧ held <:+ t.held ∧
      ∀ n ∈ gates, (h.gate n).timeoutError = (begun.gate n).timeoutError
  | (_, .ended result) => ∃ n ∈ gates, result = .error (.gate (begun.gate n).timeoutError)

/-- A call that takes a gate twice gets no further, whatever happens. -/
theorem Stuck.happen {begun : Hall} {s : Hall × Run α} (htwice : ¬gates.Nodup)
    (hs : Stuck gates work begun held s) (e : Happening) :
    Stuck gates work begun held (happen s e) := by
  rcases s with ⟨h, task | result⟩
  · rcases hs with ⟨hu, hheld, herror⟩
    cases e with
    | goOn now =>
        have hspec := hu.resume_spec now
        change Stuck gates work begun held (task.resume h now)
        rcases hu.resume_twice_cases htwice now with
          ⟨h', t', heq, hsuffix⟩ | ⟨n, id, inner, -, hn, -, -, heq⟩
        · have hgoes := goes_resume hu.locked.coherent now task
          rw [heq] at hspec hgoes ⊢
          refine ⟨hspec, hheld.trans hsuffix, fun n hn => ?_⟩
          rw [timeoutError_goes hgoes (hu.valid n hn), herror n hn]
        · rw [heq]
          exact ⟨n, hn, by rw [herror n hn]⟩
    | other m =>
        by_cases hm : task.owns m = true
        · have hsame : Task.happen (h, .waiting task) (.other m) = (h, .waiting task) := if_pos hm
          rw [hsame]
          exact ⟨hu, hheld, herror⟩
        · have hmoved : Task.happen (h, .waiting task) (.other m) = (h.move m, .waiting task) :=
            if_neg hm
          rw [hmoved]
          refine ⟨hu.other hm, hheld, fun n hn => ?_⟩
          rw [← herror n hn]
          exact timeoutError_moves h [m] n
  · cases e with
    | goOn now => exact hs
    | other m => exact hs

/-- A call that takes a gate twice gets no further in its whole life. -/
theorem Stuck.live {begun : Hall} {s : Hall × Run α} (htwice : ¬gates.Nodup)
    (hs : Stuck gates work begun held s) (es : List Happening) :
    Stuck gates work begun held (live s es) := by
  induction es generalizing s with
  | nil => exact hs
  | cons e es ih => exact ih (hs.happen htwice e)

/-- A call that is under way was so all the time. -/
theorem waiting_of_live {s : Hall × Run α} {es : List Happening} {task : Task α}
    (hs : (live s es).2 = .waiting task) : ∃ first, s.2 = .waiting first := by
  induction es generalizing s with
  | nil => exact ⟨task, hs⟩
  | cons e es ih =>
      rcases s with ⟨h, first | result⟩
      · exact ⟨first, rfl⟩
      · rcases ih (s := happen (h, .ended result) e) hs with ⟨first, hfirst⟩
        cases e <;> simp [happen] at hfirst

/-- The life of a call that takes a gate twice. -/
structure NotReentrant (gates : List Nat) (work : Work α) (begun : Hall) (now : Nat)
    (during : List Happening) : Prop where
  /-- It does not come to its work at once. -/
  starts : ∃ h t, start begun now gates work = (h, .waiting t)
  /-- While it is under way it waits for a gate and is never at work. -/
  waits : ∀ h t, live (start begun now gates work) during = (h, .waiting t) →
    ∃ n id inner, t.stage = .queued n id inner
  /-- It owns the slots of the gates that it has taken, and nobody gets one of them, whatever
  is done: no other caller, and not the call itself for a second time. -/
  owns : ∀ h t, live (start begun now gates work) during = (h, .waiting t) →
    ∀ u ∈ t.held, (h.gate u.gate).slot.grant = some u.ticket ∧
      ∀ e, obtains ((h.gate u.gate).step e).2 = false
  /-- What it had taken at some time it still has as long as it is under way. -/
  keeps : ∀ first rest h t, during = first ++ rest →
    live (start begun now gates work) during = (h, .waiting t) →
    ∃ h' t', live (start begun now gates work) first = (h', .waiting t') ∧ t'.held <:+ t.held
  /-- It ends when it goes on and its request has timed out.  It owns all that it had taken
  until then, and gives it back after that. -/
  ended : ∀ h t later h' result, live (start begun now gates work) during = (h, .waiting t) →
    t.resume h later = (h', .ended result) →
    ∃ n id inner, t.stage = .queued n id inner ∧
      ((h.gate n).step (.resume later id)).2 = .turned .timedOut ∧
      let failed := h.move ⟨n, .resume later id⟩
      (∀ u ∈ t.held, (failed.gate u.gate).slot.grant = some u.ticket) ∧
        h' = failed.moves (t.held.flatMap giveBack) ∧
        result = .error (.gate (h.gate n).timeoutError)
  /-- A call that has ended has done so with the timeout of one of its gates. -/
  timesOut : ∀ h result, live (start begun now gates work) during = (h, .ended result) →
    ∃ n ∈ gates, result =
      .error (.gate (.timeout (begun.gate n).name (begun.gate n).options.timeout))

/-- Work under gates is not begun if one of the gates is to be taken twice, by whatever
handle; the call times out, and owns what it has taken until then. -/
theorem not_reentrant (specs : List (String × Options)) (before : List Hall.Move) (now : Nat)
    (gates : List Nat) (hvalid : ∀ n ∈ gates, n < specs.length) (htwice : ¬gates.Nodup)
    (work : Work α) (during : List Happening) :
    NotReentrant gates work ((Hall.ofSpecs specs).moves before) now during := by
  generalize hbegun : (Hall.ofSpecs specs).moves before = begun
  have hcoherent : begun.Coherent := hbegun ▸ (Hall.coherent_ofSpecs specs).moves before
  have hgates : ∀ n ∈ gates, n < begun.gates.length := by
    intro n hn
    rw [← hbegun, Hall.length_moves, Hall.ofSpecs, List.length_map]
    exact hvalid n hn
  obtain ⟨h₀, t₀, hstart, -⟩ :=
    enter_waits (Locked.nil hcoherent) hgates htwice now work
  have hfirst : Stuck gates work begun [] (start begun now gates work) := by
    have hspec := start_spec hcoherent hgates now work
    have hgoes := goes_start begun now gates work
    rw [start] at hspec hgoes ⊢
    rw [hstart] at hspec hgoes ⊢
    exact ⟨hspec, List.nil_suffix, fun n hn => timeoutError_goes hgoes (hgates n hn)⟩
  have hstuck := fun es => hfirst.live htwice es
  have hunder : ∀ es h t, live (start begun now gates work) es = (h, .waiting t) →
      Under gates work h t := by
    intro es h t hs
    have hes := hstuck es
    rw [hs] at hes
    exact hes.1
  constructor
  case starts => exact ⟨h₀, t₀, hstart⟩
  case waits =>
    intro h t hs
    rcases (hunder during h t hs).queued_of_twice htwice with ⟨n, id, inner, hstage, -⟩
    exact ⟨n, id, inner, hstage⟩
  case owns =>
    intro h t hs u hu
    have hl := (hunder during h t hs).locked
    exact ⟨hl.grant hu, (hl.coherent u.gate).obtains_of_locked (hl.locked u hu)⟩
  case keeps =>
    rintro first rest h t rfl hs
    have hthen : live (live (start begun now gates work) first) rest = (h, .waiting t) := by
      rw [← hs, live, live, live, List.foldl_append]
    rcases waiting_of_live (congrArg Prod.snd hthen) with ⟨t', ht'⟩
    rcases hlive : live (start begun now gates work) first with ⟨h', run⟩
    rw [hlive] at hthen ht'
    obtain rfl : run = .waiting t' := ht'
    refine ⟨h', t', rfl, ?_⟩
    have hagain : Stuck gates work h' t'.held (h', .waiting t') :=
      ⟨hunder first h' t' hlive, List.suffix_rfl, fun _ _ => rfl⟩
    have hlast := hagain.live htwice rest
    rw [hthen] at hlast
    exact hlast.2.1
  case ended =>
    intro h t later h' result hs hended
    rcases (hunder during h t hs).resume_twice_cases htwice later with
      ⟨h'', t'', heq, -⟩ | ⟨n, id, inner, hstage, -, hturn, hlocked, heq⟩
    · simp [heq] at hended
    · rw [heq, Prod.mk.injEq, Progress.ended.injEq] at hended
      refine ⟨n, id, inner, hstage, congrArg Reply.turned hturn, ?_, ?_⟩
      · exact fun u hu => hlocked.grant hu
      · exact ⟨hended.1.symm, hended.2.symm⟩
  case timesOut =>
    intro h result hs
    have hes := hstuck during
    rw [hs] at hes
    exact hes

/-- A gate that is taken twice with another one in between, which somebody else has. -/
theorem not_reentrant_around :
    NotReentrant [0, 1, 0] ⟨5, .ok ()⟩
      ((Hall.ofSpecs [("outer", ⟨50⟩), ("inner", {})]).moves [⟨1, .acquire 0⟩]) 0
      [.other ⟨0, .acquire 1⟩, .other ⟨1, .drop 1⟩, .goOn 2, .goOn 52] :=
  not_reentrant _ _ 0 [0, 1, 0] (by decide) (by decide) _ _

example :
    let begun := (Hall.ofSpecs [("outer", ⟨50⟩), ("inner", {})]).moves [⟨1, .acquire 0⟩]
    let ended := live (start begun 0 [0, 1, 0] (⟨5, .ok ()⟩ : Work Unit))
      [.other ⟨0, .acquire 1⟩, .other ⟨1, .drop 1⟩, .goOn 2, .goOn 52]
    (ended.1.gate 0).slot = { locked := true, grant := some 2, issued := 3 } ∧
      (ended.1.gate 1).slot = { issued := 2 } := by
  decide +kernel

end Task
end Gate
end AwardsDesk
