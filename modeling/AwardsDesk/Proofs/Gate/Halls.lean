import AwardsDesk.Gate.Nested
import AwardsDesk.Proofs.Gate.Timeouts

/-!
# Runs in a hall of gates

Work under nested gates does to each gate of its hall what a caller of that gate could do,
all of it at the time at which the work goes on.  A request that waits at a gate is served
when the work behind it goes on, and the work waits for at most one request.

Main definitions:

- Structure {lit}`Hall.Goes`: the gates of a hall go on at one time, some waiting requests
  are served, and others join.
- Definition {lit}`Gate.RunsBy`: a gate whose state is that of a run up to a time.
- Function {lit}`Task.requests`: the request that a task waits for.

Main results:

- Theorems {lit}`Task.goes_start`, {lit}`Task.goes_resume` and {lit}`Task.goes_cancel`: what
  a task does to the gates of its hall.
- Theorem {lit}`Hall.Goes.lt_deadline`: when all waiting requests are served, those left
  have time left.
-/

namespace AwardsDesk

/-- The call that goes on later, if there is one. -/
def Progress.calls {κ ρ : Type} : Progress κ ρ → List κ
  | .waiting call => [call]
  | .ended _ => []

namespace Gate

/-! ## Requests at one gate -/

section Pending

variable {g : Gate} {id : Nat}

/-- Nobody new is in hand after a run in which the gate is not asked for. -/
theorem pending_run_subset {es : List Event} (hes : ∀ e ∈ es, e.time? = none) :
    (g.run es).pending ⊆ g.pending := by
  intro n hn
  rcases List.mem_map.1 hn with ⟨w, hw, rfl⟩
  rcases mem_waiting_run hw with hold | ⟨-, t, hqueued, -⟩
  · exact List.mem_map_of_mem hold
  · have htime := hes _ (mem_of_mem_trace hqueued)
    simp [Event.time?] at htime

/-- A request that is given up is in hand no more. -/
theorem pending_cancel (g : Gate) (id : Nat) : (g.cancel id).pending = g.pending.erase id := by
  unfold cancel
  split
  · exact pending_forget
  · rename_i hnot
    symm
    apply List.erase_of_not_mem
    exact fun hid => hnot (isPending_iff.2 hid)

/-- A request that goes on stays in hand as it is, or is in hand no more. -/
theorem pending_resume (g : Gate) (now id : Nat) :
    (g.resume now id).1.pending =
      match (g.resume now id).2 with
      | .waiting => g.pending
      | _ => g.pending.erase id := by
  rcases resume_cases g now id with heq | ⟨-, -, heq⟩ | ⟨-, -, heq⟩
  · rw [heq]
  · rw [heq]
    exact pending_forget
  · rw [heq]
    exact pending_forget

end Pending

/-! ## Gates that go on -/

namespace Hall

/-- A request is in hand at its gate. -/
def Waits (h : Hall) (t : Hold) : Prop :=
  t.ticket ∈ (h.gate t.gate).pending

/-- All gates agree with their callers. -/
def Coherent (h : Hall) : Prop :=
  ∀ n, (h.gate n).Coherent

/-- The gates of a hall go on at one time.  What happens to each is a run of that gate, in
which the given requests are served; a request in hand afterwards is among those that
joined, or was in hand before and has not been served. -/
structure Goes (now : Nat) (served joined : List Hold) (h h' : Hall) : Prop where
  length_eq : h'.gates.length = h.gates.length
  runs : ∀ n < h.gates.length, ∃ es, h'.gate n = (h.gate n).run es ∧
    (∀ e ∈ es, ∀ t, e.time? = some t → t = now) ∧
    ∀ id, ⟨n, id⟩ ∈ served → ∃ e ∈ es, e.served? = some id
  waits : ∀ t, h'.Waits t → (h.Waits t ∧ t ∉ served) ∨ t ∈ joined

variable {h h' h'' : Hall} {now n : Nat} {served joined : List Hold}

/-- There is no gate of a number beyond the last one, and nobody waits for it. -/
theorem gate_of_length_le (hn : h.gates.length ≤ n) : h.gate n = default := by
  rw [gate, List.getD, List.getElem?_eq_none hn, Option.getD_none]

/-- Who waits does so at one of the gates. -/
theorem Waits.lt_length {t : Hold} (ht : h.Waits t) : t.gate < h.gates.length := by
  by_contra hn
  rw [Waits, gate_of_length_le (Nat.le_of_not_lt hn)] at ht
  exact absurd ht List.not_mem_nil

namespace Goes

/-- Nothing happens to the gates. -/
theorem refl (now : Nat) (h : Hall) : Goes now [] [] h h where
  length_eq := rfl
  runs n _ := ⟨[], rfl, by simp, by simp⟩
  waits t ht := Or.inl ⟨ht, List.not_mem_nil⟩

/-- The gates go on, and then go on further at the same time. -/
theorem trans {served' joined' : List Hold} (hfirst : Goes now served joined h h')
    (hthen : Goes now served' joined' h' h'') :
    Goes now (served ++ served') (joined ++ joined') h h'' where
  length_eq := hthen.length_eq.trans hfirst.length_eq
  runs n hn := by
    rcases hfirst.runs n hn with ⟨es, hrun, htime, hserved⟩
    rcases hthen.runs n (hfirst.length_eq ▸ hn) with ⟨more, hrun', htime', hserved'⟩
    refine ⟨es ++ more, ?_, ?_, ?_⟩
    · rw [hrun', hrun, run_append]
    · intro e he
      rcases List.mem_append.1 he with he | he
      · exact htime e he
      · exact htime' e he
    · intro id hid
      rcases List.mem_append.1 hid with hid | hid
      · rcases hserved id hid with ⟨e, he, heq⟩
        exact ⟨e, List.mem_append_left _ he, heq⟩
      · rcases hserved' id hid with ⟨e, he, heq⟩
        exact ⟨e, List.mem_append_right _ he, heq⟩
  waits t ht := by
    rw [List.mem_append, List.mem_append]
    rcases hthen.waits t ht with ⟨hmid, hnot'⟩ | hjoined
    · rcases hfirst.waits t hmid with ⟨hold, hnot⟩ | hjoined
      · exact Or.inl ⟨hold, fun hmem => hmem.elim hnot hnot'⟩
      · exact Or.inr (Or.inl hjoined)
    · exact Or.inr (Or.inr hjoined)

/-- A gate that is put in its place after a run of its own. -/
theorem put (es : List Event) (htime : ∀ e ∈ es, ∀ t, e.time? = some t → t = now)
    (hserved : ∀ t ∈ served, t.gate = n ∧ ∃ e ∈ es, e.served? = some t.ticket)
    (hwaits : ∀ id ∈ ((h.gate n).run es).pending,
      (id ∈ (h.gate n).pending ∧ ⟨n, id⟩ ∉ served) ∨ ⟨n, id⟩ ∈ joined) :
    Goes now served joined h (h.put n ((h.gate n).run es)) := by
  have hlength : (h.put n ((h.gate n).run es)).gates.length = h.gates.length :=
    List.length_set
  refine ⟨hlength, ?_, ?_⟩
  · intro m hm
    by_cases hmn : m = n
    · subst hmn
      exact ⟨es, gate_put_self hm _, htime, fun id hid => (hserved _ hid).2⟩
    · refine ⟨[], gate_put_ne (Ne.symm hmn) _, by simp, ?_⟩
      exact fun id hid => absurd (hserved _ hid).1 hmn
  · intro t ht
    have hlt := hlength ▸ ht.lt_length
    rw [Waits] at ht
    by_cases htn : t.gate = n
    · subst htn
      rw [gate_put_self hlt] at ht
      exact hwaits t.ticket ht
    · rw [gate_put_ne (Ne.symm htn)] at ht
      exact Or.inl ⟨ht, fun hmem => htn (hserved t hmem).1⟩

/-- A gate goes on without regard to the clock. -/
theorem put_untimed (es : List Event) (hes : ∀ e ∈ es, e.time? = none) :
    Goes now [] [] h (h.put n ((h.gate n).run es)) := by
  refine put es ?_ (by simp) ?_
  · intro e he t ht
    rw [hes e he] at ht
    simp at ht
  · intro id hid
    exact Or.inl ⟨pending_run_subset hes hid, List.not_mem_nil⟩

end Goes
end Hall

/-! ## Histories -/

/-- A gate with usable options whose state is that of a run under a clock that never goes
back and has not passed the given time. -/
def RunsBy (clock : Nat) (g : Gate) : Prop :=
  ∃ name options es, options.Usable ∧ Timely es ∧
    (∀ e ∈ es, ∀ t, e.time? = some t → t ≤ clock) ∧ g = Gate.run { name, options } es

namespace RunsBy

variable {g : Gate} {clock now : Nat}

/-- A gate agrees with its callers. -/
theorem coherent (h : g.RunsBy clock) : g.Coherent := by
  rcases h with ⟨name, options, es, -, -, -, rfl⟩
  exact (coherent_initial name options).run es

/-- The options of a gate stay usable. -/
theorem usable (h : g.RunsBy clock) : g.options.Usable := by
  rcases h with ⟨name, options, es, husable, -, -, rfl⟩
  rw [(settings_run _ es).2]
  exact husable

/-- Time passes. -/
theorem mono (h : g.RunsBy clock) (hle : clock ≤ now) : g.RunsBy now := by
  rcases h with ⟨name, options, es, husable, htimely, hpast, rfl⟩
  refine ⟨name, options, es, husable, htimely, ?_, rfl⟩
  intro e he t ht
  exact Nat.le_trans (hpast e he t ht) hle

/-- A gate goes on at the time of the clock. -/
theorem run (h : g.RunsBy clock) {more : List Event}
    (htime : ∀ e ∈ more, ∀ t, e.time? = some t → t = clock) : (g.run more).RunsBy clock := by
  rcases h with ⟨name, options, es, husable, htimely, hpast, rfl⟩
  refine ⟨name, options, es ++ more, husable, ?_, ?_, (run_append _ es more).symm⟩
  · have hmore : ∀ t ∈ more.filterMap Event.time?, t = clock := by
      intro t ht
      rcases List.mem_filterMap.1 ht with ⟨e, he, heq⟩
      exact htime e he t heq
    rw [Timely, List.filterMap_append, List.pairwise_append]
    refine ⟨htimely, ?_, ?_⟩
    · apply List.pairwise_of_forall_mem_list
      intro t ht u hu
      exact Nat.le_of_eq ((hmore t ht).trans (hmore u hu).symm)
    · intro t ht u hu
      rcases List.mem_filterMap.1 ht with ⟨e, he, heq⟩
      rw [hmore u hu]
      exact hpast e he t heq
  · intro e he t ht
    rcases List.mem_append.1 he with he | he
    · exact hpast e he t ht
    · exact Nat.le_of_eq (htime e he t ht)

end RunsBy

namespace Hall

/-- All gates of a hall are those of runs up to a time. -/
def RunsBy (clock : Nat) (h : Hall) : Prop :=
  ∀ n < h.gates.length, (h.gate n).RunsBy clock

variable {h h' : Hall} {clock n : Nat} {served joined : List Hold}

/-- All gates agree with their callers. -/
theorem RunsBy.coherent (hh : h.RunsBy clock) : h.Coherent := by
  intro n
  by_cases hn : n < h.gates.length
  · exact (hh n hn).coherent
  · rw [gate_of_length_le (Nat.le_of_not_lt hn)]
    exact coherent_initial default default

/-- Gates that go on at the time of the clock are still those of runs. -/
theorem Goes.runsBy (hgoes : Goes clock served joined h h') (hh : h.RunsBy clock) :
    h'.RunsBy clock := by
  intro n hn
  rcases hgoes.runs n (hgoes.length_eq ▸ hn) with ⟨es, hrun, htime, -⟩
  rw [hrun]
  exact (hh n (hgoes.length_eq ▸ hn)).run htime

/-- When all requests in hand are served, those left in hand have time left. -/
theorem Goes.lt_deadline (hgoes : Goes clock served joined h h') (hh : h.RunsBy clock)
    (hserved : ∀ t, h.Waits t → t ∈ served) {w : Waiting} (hw : w ∈ (h'.gate n).waiting) :
    clock < w.deadline := by
  have hwaits : h'.Waits ⟨n, w.id⟩ := List.mem_map_of_mem hw
  have hn : n < h.gates.length := hgoes.length_eq ▸ hwaits.lt_length
  rcases hgoes.runs n hn with ⟨es, hrun, htime, hall⟩
  rw [hrun] at hw
  refine (hh n hn).coherent.lt_deadline_of_run (hh n hn).usable ?_ ?_ hw
  · intro e he t ht
    exact Nat.le_of_eq (htime e he t ht).symm
  · intro hold
    apply hall
    exact hserved ⟨n, w.id⟩ (List.mem_map_of_mem hold)

/-- The gates there were are found at their numbers when another one is added. -/
theorem gate_add (h : Hall) (g : Gate) (n : Nat) :
    (h.add g).1.gate n = if n = h.gates.length then g else h.gate n := by
  rw [gate, gate, add, List.getD_eq_getElem?_getD, List.getD_eq_getElem?_getD]
  rcases Nat.lt_trichotomy n h.gates.length with hlt | heq | hgt
  · rw [List.getElem?_append_left hlt, if_neg (Nat.ne_of_lt hlt)]
  · simp [heq]
  · rw [if_neg (Nat.ne_of_gt hgt), List.getElem?_eq_none (by simp; omega),
      List.getElem?_eq_none (Nat.le_of_lt hgt)]

/-- A new gate is that of an empty run. -/
theorem RunsBy.add (hh : h.RunsBy clock) (name : String) {options : Options}
    (husable : options.Usable) : (h.add { name, options }).1.RunsBy clock := by
  intro n hn
  rw [gate_add]
  split
  · exact ⟨name, options, [], husable, List.Pairwise.nil, by simp, rfl⟩
  · rename_i hne
    apply hh
    rw [Hall.add, List.length_append, List.length_singleton] at hn
    omega

/-- Nobody waits at a new gate. -/
theorem waits_add {name : String} {options : Options} {t : Hold}
    (ht : (h.add { name, options }).1.Waits t) : h.Waits t := by
  rw [Waits, gate_add] at ht
  split at ht
  · exact absurd ht List.not_mem_nil
  · exact ht

end Hall

/-! ## Requests in a hall -/

variable {h h' : Hall} {now n id : Nat}

/-- A gate is asked for: the request is a ticket, or joins those who wait. -/
theorem goes_acquire (h : Hall) (now n : Nat) :
    h.Goes now []
      (match ((h.gate n).acquire now).2 with
        | .granted _ => []
        | .queued id => [⟨n, id⟩])
      (h.put n ((h.gate n).acquire now).1) := by
  refine Hall.Goes.put [.acquire now] ?_ (by simp) ?_
  · intro e he t ht
    obtain rfl := List.mem_singleton.1 he
    simpa [Event.time?, eq_comm] using ht
  · intro id hid
    rcases List.mem_map.1 hid with ⟨w, hw, rfl⟩
    rcases waiting_step (h.gate n) (.acquire now) with hsub | ⟨t, -, hreply, hjoin⟩
    · exact Or.inl ⟨List.mem_map_of_mem (hsub.subset hw), List.not_mem_nil⟩
    · have hqueued : ((h.gate n).acquire now).2 = .queued (h.gate n).slot.nextId := by
        simpa [step] using hreply
      rw [run_cons, run_nil, hjoin, List.mem_append, List.mem_singleton] at hw
      rcases hw with hold | rfl
      · exact Or.inl ⟨List.mem_map_of_mem hold, List.not_mem_nil⟩
      · right
        rw [hqueued]
        exact List.mem_singleton_self _

/-- A waiting request goes on: it is in hand no more, or waits on. -/
theorem goes_resume (hh : h.Coherent) (now n id : Nat) :
    h.Goes now [⟨n, id⟩]
      (match ((h.gate n).resume now id).2 with
        | .waiting => [⟨n, id⟩]
        | _ => [])
      (h.put n ((h.gate n).resume now id).1) := by
  refine Hall.Goes.put [.resume now id] ?_ ?_ ?_
  · intro e he t ht
    obtain rfl := List.mem_singleton.1 he
    simpa [Event.time?, eq_comm] using ht
  · intro t ht
    obtain rfl := List.mem_singleton.1 ht
    exact ⟨rfl, _, List.mem_singleton_self _, rfl⟩
  · intro m hm
    change m ∈ ((h.gate n).resume now id).1.pending at hm
    rw [pending_resume] at hm
    cases hturn : ((h.gate n).resume now id).2 with
    | waiting =>
        rw [hturn] at hm
        by_cases hmid : m = id
        · right
          rw [hmid]
          exact List.mem_singleton_self _
        · exact Or.inl ⟨hm, by simpa using hmid⟩
    | granted | timedOut =>
        rw [hturn] at hm
        left
        rw [(hh n).nodup_pending.mem_erase_iff] at hm
        exact ⟨hm.2, by simpa using hm.1⟩

/-- A waiting request is given up, and is in hand no more. -/
theorem goes_cancel (hh : h.Coherent) (now n id : Nat) :
    h.Goes now [⟨n, id⟩] [] (h.put n ((h.gate n).cancel id)) := by
  refine Hall.Goes.put [.cancel id] ?_ ?_ ?_
  · intro e he t ht
    obtain rfl := List.mem_singleton.1 he
    simp [Event.time?] at ht
  · intro t ht
    obtain rfl := List.mem_singleton.1 ht
    exact ⟨rfl, _, List.mem_singleton_self _, rfl⟩
  · intro m hm
    change m ∈ ((h.gate n).cancel id).pending at hm
    rw [pending_cancel, (hh n).nodup_pending.mem_erase_iff] at hm
    exact Or.inl ⟨hm.2, by simpa using hm.1⟩

/-! ## Tickets in a hall -/

/-- A ticket is locked. -/
theorem goes_lock {t : Hold} {g : Gate} (hlock : (h.gate t.gate).lock t.ticket = .ok g) :
    h.Goes now [] [] (h.put t.gate g) := by
  have hrun : g = (h.gate t.gate).run [.lock t.ticket] := by
    rw [run_cons, run_nil, step, hlock, settle]
  rw [hrun]
  exact Hall.Goes.put_untimed _ (by simp [Event.time?])

/-- A ticket is unlocked. -/
theorem goes_unlock {t : Hold} {g : Gate} (hunlock : (h.gate t.gate).unlock t.ticket = .ok g) :
    h.Goes now [] [] (h.put t.gate g) := by
  have hrun : g = (h.gate t.gate).run [.unlock t.ticket] := by
    rw [run_cons, run_nil, step, hunlock, settle]
  rw [hrun]
  exact Hall.Goes.put_untimed _ (by simp [Event.time?])

/-- A ticket is thrown away. -/
theorem goes_drop (t : Hold) :
    h.Goes now [] [] (h.put t.gate ((h.gate t.gate).drop t.ticket)) :=
  Hall.Goes.put_untimed [.drop t.ticket] (by simp [Event.time?])

namespace Task

variable {α : Type}

/-- The request that a task waits for. -/
def requests (t : Task α) : List Hold :=
  match t.stage with
  | .queued n id _ => [⟨n, id⟩]
  | .working _ => []

/-- Tickets are thrown away. -/
theorem goes_dropAll (h : Hall) (ts : List Hold) : h.Goes now [] [] (dropAll h ts) := by
  induction ts generalizing h with
  | nil => exact Hall.Goes.refl now h
  | cons t outer ih => exact (goes_drop t).trans (ih _)

/-- Gates are given back. -/
theorem goes_close (h : Hall) (result : Except WorkError α) (ts : List Hold) :
    h.Goes now [] [] (close h result ts).1 := by
  induction ts generalizing h result with
  | nil => exact Hall.Goes.refl now h
  | cons t outer ih =>
      rw [close]
      cases hunlock : (h.gate t.gate).unlock t.ticket with
      | ok g =>
          have hrun : g.drop t.ticket =
              (h.gate t.gate).run [.unlock t.ticket, .drop t.ticket] := by
            rw [run_cons, run_cons, run_nil, step, hunlock, settle, step]
          have hgoes : h.Goes now [] [] (h.put t.gate (g.drop t.ticket)) := by
            rw [hrun]
            exact Hall.Goes.put_untimed _ (by simp [Event.time?])
          exact hgoes.trans (ih _ _)
      | error e => exact (goes_drop t).trans (ih _ _)

/-- The work is begun. -/
theorem goes_begin (h : Hall) (held : List Hold) (work : Work α) :
    h.Goes now [] ((begin h now held work).2.calls.flatMap requests)
      (begin h now held work).1 := by
  unfold begin
  split
  · exact goes_close h _ held
  · exact Hall.Goes.refl now h

/-- The work is given up for the want of a gate. -/
theorem goes_fail (h : Hall) (e : Error) (held : List Hold) :
    h.Goes now [] ((fail (α := α) h e held).2.calls.flatMap requests)
      (fail (α := α) h e held).1 :=
  goes_close h _ held

/-- A ticket just obtained is locked. -/
theorem goes_lockTicket {t : Hold} (hlock : lockTicket h t = .ok h') : h.Goes now [] [] h' := by
  unfold lockTicket at hlock
  cases hgate : (h.gate t.gate).lock t.ticket with
  | error e => simp [hgate, Except.map] at hlock
  | ok g =>
      obtain rfl : h.put t.gate g = h' := by simpa [hgate, Except.map] using hlock
      exact goes_lock hgate

/-- Gates are taken, outermost first. -/
theorem goes_enter (h : Hall) (now : Nat) (held : List Hold) (work : Work α)
    (gates : List Nat) :
    h.Goes now [] ((enter h now held work gates).2.calls.flatMap requests)
      (enter h now held work gates).1 := by
  induction gates generalizing h held with
  | nil => exact goes_begin h held work
  | cons n inner ih =>
      have hacquire := goes_acquire h now n
      rw [enter]
      cases hadmission : ((h.gate n).acquire now).2 with
      | queued id =>
          rw [hadmission] at hacquire
          simpa [hadmission, requests, Progress.calls] using hacquire
      | granted id =>
          rw [hadmission] at hacquire
          simp only [hadmission]
          cases hlock : lockTicket (h.put n ((h.gate n).acquire now).1) ⟨n, id⟩ with
          | ok h' => exact (hacquire.trans (goes_lockTicket hlock)).trans (ih h' _)
          | error e =>
              exact (hacquire.trans (goes_dropAll _ [⟨n, id⟩])).trans (goes_fail _ e held)

/-- Work under gates is started. -/
theorem goes_start (h : Hall) (now : Nat) (gates : List Nat) (work : Work α) :
    h.Goes now [] ((start h now gates work).2.calls.flatMap requests)
      (start h now gates work).1 :=
  goes_enter h now [] work gates

/-- A task goes on, and the request that it waited for is served. -/
theorem goes_resume (hh : h.Coherent) (now : Nat) (t : Task α) :
    h.Goes now t.requests ((t.resume h now).2.calls.flatMap requests) (t.resume h now).1 := by
  unfold resume
  cases hstage : t.stage with
  | working wakeAt =>
      have hrequests : t.requests = [] := by
        rw [requests, hstage]
      rw [hrequests]
      simp only
      split
      · exact goes_close h _ t.held
      · simpa [Progress.calls, hrequests] using Hall.Goes.refl now h
  | queued n id inner =>
      have hrequests : t.requests = [⟨n, id⟩] := by
        rw [requests, hstage]
      have hresume := Gate.goes_resume hh now n id
      rw [hrequests]
      simp only
      cases hturn : ((h.gate n).resume now id).2 with
      | waiting =>
          rw [hturn] at hresume
          simpa [Progress.calls, hrequests] using hresume
      | timedOut =>
          rw [hturn] at hresume
          exact hresume.trans (goes_fail _ _ t.held)
      | granted =>
          rw [hturn] at hresume
          simp only
          cases hlock : lockTicket (h.put n ((h.gate n).resume now id).1) ⟨n, id⟩ with
          | ok h' => exact (hresume.trans (goes_lockTicket hlock)).trans (goes_enter h' now _ _ _)
          | error e =>
              exact (hresume.trans (goes_dropAll _ [⟨n, id⟩])).trans (goes_fail _ e t.held)

/-- A task is given up, and so is the request that it waited for. -/
theorem goes_cancel (hh : h.Coherent) (now : Nat) (t : Task α) :
    h.Goes now t.requests [] (t.cancel h) := by
  unfold cancel requests
  cases hstage : t.stage with
  | working wakeAt => exact goes_dropAll h t.held
  | queued n id inner =>
      exact (Gate.goes_cancel hh now n id).trans (goes_dropAll _ t.held)

end Task
end Gate
end AwardsDesk
