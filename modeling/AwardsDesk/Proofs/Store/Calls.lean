import AwardsDesk.Proofs.Store.Listing
import Mathlib.Data.List.Induction
import Mathlib.Data.List.Nodup
import Mathlib.Order.Bounds.Basic

/-!
# Calls of a store

Calls of a store overlap.  Each begins and is counted, then it is under way for as long as it
takes, and when it ends the store answers its request.  Calls end in any order, and one that is
given up never ends.  In between failures are armed and events are changed by hand.

Main definitions:

- Structure {lit}`Store.Service`: a store with the calls that were made of it.
- Functions {lit}`Store.Service.step` and {lit}`Store.Service.run`: what happens to it.
- Definition {lit}`Store.Service.Due`: the failure that the next call to end will meet.
- Inductive type {lit}`Store.Amended`: one field of one record has changed.

Main results:

- Theorem {lit}`Store.Service.failNext_run_iff`: a failure stays armed until a call ends.
- Theorem {lit}`Store.Service.accounted_run`: a call is counted as under way until it ends.
- Theorem {lit}`Store.Service.isGreatest_maxInFlight`: how many calls were under way at most.
- Theorem {lit}`Store.Service.books_run`: the counts of a store and the ends of its calls.
-/

namespace AwardsDesk
namespace Store

open Board (Request Error)

/-! ## Changes of one record -/

/-- The awardee whom a request names, and what it sets in the record. -/
def setting? : Request → Option (UInt64 × (Awardee → Awardee))
  | .setPickedUp _ id was => some (id, fun a => { a with pickedUp := !was })
  | .saveNotes _ id text => some (id, fun a => { a with notes := some text })
  | .fetchAwards _ _ | .fetchNotes _ _ => none

/-- What a request makes of an event: one field is set in the first record of the awardee whom the
request names, and nothing if it names nobody on record. -/
inductive Amended (r : Request) (e e' : Event) : Prop where
  | same (nobody : ∀ id write, setting? r = some (id, write) → ∀ a ∈ e.awardees, a.awardeeId ≠ id)
      (eq : e' = e)
  | record {id : UInt64} {write : Awardee → Awardee} {before after : List Awardee} {a : Awardee}
      (setting : setting? r = some (id, write)) (found : e.awardees = before ++ a :: after)
      (number : a.awardeeId = id) (first : ∀ b ∈ before, b.awardeeId ≠ id)
      (eq : e' = { e with awardees := before ++ write a :: after })

namespace Event

variable {e : Event}

/-- Records before the first one of a number stay. -/
theorem updateAwardee_append {id : UInt64} (f : Awardee → Awardee) {before : List Awardee}
    (h : ∀ b ∈ before, b.awardeeId ≠ id) (rest : List Awardee) :
    updateAwardee id f (before ++ rest) = before ++ updateAwardee id f rest := by
  induction before with
  | nil => rfl
  | cons b before ih =>
      rw [List.cons_append, updateAwardee, if_neg (h b List.mem_cons_self),
        ih fun c hc => h c (List.mem_cons_of_mem b hc), List.cons_append]

/-- A request that would set a field of an awardee who is not on record changes nothing. -/
theorem amended_self {r : Request} {id : UInt64} {write : Awardee → Awardee}
    (hsetting : setting? r = some (id, write)) (hnone : e.awardee? id = none) : Amended r e e := by
  refine .same ?_ rfl
  intro id' write' hsetting' a ha
  obtain ⟨rfl, -⟩ := Prod.mk.inj (Option.some.inj (hsetting.symm.trans hsetting'))
  simpa using List.find?_eq_none.1 hnone a ha

/-- A request that sets a field of an awardee on record sets it in the first record. -/
theorem amended_updateAwardee {r : Request} {id : UInt64} {write : Awardee → Awardee} {a : Awardee}
    (hsetting : setting? r = some (id, write)) (hfound : e.awardee? id = some a) :
    Amended r e { e with awardees := updateAwardee id write e.awardees } := by
  obtain ⟨hnumber, before, after, hsplit, hfirst⟩ := List.find?_eq_some_iff_append.1 hfound
  have hnumber : a.awardeeId = id := by simpa using hnumber
  have hfirst : ∀ b ∈ before, b.awardeeId ≠ id := by simpa using hfirst
  refine .record hsetting hsplit hnumber hfirst ?_
  rw [hsplit, updateAwardee_append write hfirst, updateAwardee, if_pos hnumber]

/-- What an event becomes when it answers a request. -/
theorem amended_answer (e : Event) (r : Request) : Amended r e (e.answer r).1 := by
  cases r with
  | fetchAwards event needDivisions => exact .same (by simp [setting?]) rfl
  | setPickedUp event id was =>
      cases hfound : e.awardee? id with
      | none =>
          simp only [answer, hfound]
          exact amended_self rfl hfound
      | some a =>
          simp only [answer, hfound]
          exact amended_updateAwardee rfl hfound
  | fetchNotes event id =>
      refine .same (by simp [setting?]) ?_
      simp only [answer]
      split <;> rfl
  | saveNotes event id text =>
      cases hfound : e.awardee? id with
      | none =>
          simp only [answer, hfound]
          exact amended_self rfl hfound
      | some a =>
          simp only [answer, hfound]
          exact amended_updateAwardee rfl hfound

/-- An event that answers a request with an error stays as it was. -/
theorem answer_eq_of_error {r : Request} {error : Error} (h : (e.answer r).2 = .error error) :
    (e.answer r).1 = e := by
  cases r with
  | fetchAwards event needDivisions => rfl
  | setPickedUp event id was =>
      cases hfound : e.awardee? id with
      | none => simp only [answer, hfound]
      | some a => simp [answer, hfound] at h
  | fetchNotes event id =>
      simp only [answer]
      split <;> rfl
  | saveNotes event id text =>
      cases hfound : e.awardee? id with
      | none => simp only [answer, hfound]
      | some a => simp [answer, hfound] at h

end Event

/-! ## Ends of requests -/

/-- What a store says to a request when no failure is armed. -/
def reply (s : Store) (r : Request) : Except Error r.Answer :=
  match s.event? (requestEvent r) with
  | some e => (e.answer r).2
  | none => .error (.backend "event not found")

variable {s : Store} {r : Request}

/-- A request that ends is counted, uses up the failure that was armed, and changes nothing
else but events. -/
theorem finish_frame (s : Store) (r : Request) :
    ∃ events, (s.finish r).1 =
      { s with events, inFlight := s.inFlight - 1, failNext := none } := by
  cases hfail : s.failNext with
  | some reason => exact ⟨s.events, by simp only [finish, hfail]⟩
  | none =>
      simp only [finish, hfail]
      split
      · exact ⟨s.events, rfl⟩
      · exact ⟨_, rfl⟩

/-- A failure that was armed is the answer to every request. -/
theorem finish_of_armed {reason : String} (h : s.failNext = some reason) :
    (s.finish r).2 = .error (.backend reason) := by
  simp only [finish, h]

/-- When no failure is armed, a request is answered from the record of its event. -/
theorem finish_of_ready (h : s.failNext = none) : (s.finish r).2 = s.reply r := by
  cases hevent : s.event? (requestEvent r) with
  | none =>
      rw [event?] at hevent
      simp only [finish, reply, h, event?, hevent]
  | some e =>
      rw [event?] at hevent
      simp only [finish, reply, h, event?, hevent]

/-- A request that is answered with an error leaves all events as they were. -/
theorem finish_events_of_error {error : Error} (h : (s.finish r).2 = .error error) :
    (s.finish r).1.events = s.events := by
  cases hfail : s.failNext with
  | some reason => simp only [finish, hfail]
  | none =>
      rw [finish_of_ready hfail, reply] at h
      cases hevent : s.event? (requestEvent r) with
      | none =>
          rw [event?] at hevent
          simp only [finish, hfail, event?, hevent]
      | some e =>
          simp only [hevent] at h
          have hsame := updateEvent_self hevent
          rw [event?] at hevent
          simp only [finish, hfail, event?, hevent, Event.answer_eq_of_error h, hsame]

/-- A request that succeeds changes its own event in one field at most, and no other event. -/
theorem finish_amends {answer : r.Answer} (h : (s.finish r).2 = .ok answer) :
    ∃ e e', s.event? (requestEvent r) = some e ∧ Amended r e e' ∧
      ∀ id, (s.finish r).1.event? id = if id = requestEvent r then some e' else s.event? id := by
  rcases finish_cases s r with ⟨⟨error, herror⟩, -⟩ | ⟨e, hevent, -, hchange⟩
  · rw [herror] at h
    contradiction
  · exact ⟨e, _, hevent, e.amended_answer r, hchange⟩

/-- A change of an event by hand changes nothing else. -/
theorem changeEvent_frame (s : Store) (id : UInt64) (f : Event → Event) :
    ∃ events, s.changeEvent id f = { s with events } := by
  unfold changeEvent
  split
  · exact ⟨_, rfl⟩
  · exact ⟨_, rfl⟩

/-! ## Calls under way -/

/-- A store with the calls that were made of it: what they asked for in the order in which
they began, and which have ended and which were given up. -/
structure Service where
  store : Store := {}
  started : List Request := []
  ended : List Nat := []
  cancelled : List Nat := []

/-- Something that happens to a store. -/
inductive Move where
  | call (r : Request)
  /-- A call that is under way ends. -/
  | finish (n : Nat)
  /-- A call that is under way is given up. -/
  | cancel (n : Nat)
  /-- A failure is armed. -/
  | fail (reason : String)
  /-- An event is changed by hand, as when somebody is added to it or replaced. -/
  | edit (event : UInt64) (change : Event → Event)

/-- The end of a call: what it asked for, and what it was told. -/
structure Ending where
  request : Request
  answer : Except Error request.Answer

namespace Service

/-- What a call that is under way has asked for. -/
def pending? (s : Service) (n : Nat) : Option Request :=
  if n ∈ s.ended ∨ n ∈ s.cancelled then none else s.started[n]?

/-- One thing happens.  A call that is not under way does not end and is not given up. -/
def step (s : Service) : Move → Service × Option Ending
  | .call r => ({ s with store := s.store.begin, started := s.started ++ [r] }, none)
  | .finish n =>
    match s.pending? n with
    | some r =>
      ({ s with store := (s.store.finish r).1, ended := s.ended ++ [n] },
        some { request := r, answer := (s.store.finish r).2 })
    | none => (s, none)
  | .cancel n =>
    match s.pending? n with
    | some _ => ({ s with cancelled := s.cancelled ++ [n] }, none)
    | none => (s, none)
  | .fail reason => ({ s with store := s.store.armFailure reason }, none)
  | .edit event change => ({ s with store := s.store.changeEvent event change }, none)

/-- What a new store has become after one thing and another. -/
def run (ms : List Move) : Service :=
  ms.foldl (fun s m => (s.step m).1) {}

/-- One more thing happens in a run. -/
@[simp]
theorem run_concat (ms : List Move) (m : Move) : run (ms ++ [m]) = ((run ms).step m).1 := by
  simp [run]

variable {s : Service} {n : Nat} {r : Request} {m : Move} {ms : List Move} {x : Ending}

/-- A call under way has begun, has not ended, and was not given up. -/
theorem pending?_eq_some_iff :
    s.pending? n = some r ↔ n ∉ s.ended ∧ n ∉ s.cancelled ∧ s.started[n]? = some r := by
  unfold pending?
  split <;> grind

/-- A call under way has begun. -/
theorem lt_length_of_pending (h : s.pending? n = some r) : n < s.started.length := by
  obtain ⟨-, -, hstarted⟩ := pending?_eq_some_iff.1 h
  exact (List.getElem?_eq_some_iff.1 hstarted).1

/-- A call under way ends when it is let. -/
theorem step_finish (h : s.pending? n = some r) :
    s.step (.finish n) =
      ({ s with store := (s.store.finish r).1, ended := s.ended ++ [n] },
        some { request := r, answer := (s.store.finish r).2 }) := by
  simp only [step, h]

/-- Nothing but a call under way ends. -/
theorem exists_of_step_eq_some (h : (s.step m).2 = some x) :
    ∃ n, m = .finish n ∧ s.pending? n = some x.request ∧
      (s.step m).1.store = (s.store.finish x.request).1 ∧
      x.answer = (s.store.finish x.request).2 := by
  cases m with
  | finish n =>
      cases hpending : s.pending? n with
      | none => simp [step, hpending] at h
      | some r =>
          rw [step_finish hpending] at h ⊢
          obtain rfl := Option.some.inj h
          exact ⟨n, rfl, hpending, rfl, rfl⟩
  | cancel n =>
      simp only [step] at h
      split at h <;> contradiction
  | call r => contradiction
  | fail reason => contradiction
  | edit event change => contradiction

/-- The calls that have ended stay the same, or one more ends and somebody is told. -/
theorem ended_step (s : Service) (m : Move) :
    (s.step m).2 = none ∧ (s.step m).1.ended = s.ended ∨
      (s.step m).2 ≠ none ∧ ∃ n, (s.step m).1.ended = s.ended ++ [n] := by
  cases m with
  | finish n =>
      cases hpending : s.pending? n with
      | none => exact .inl (by simp [step, hpending])
      | some r => exact .inr (by simp [step, hpending])
  | cancel n =>
      left
      simp only [step]
      split <;> exact ⟨rfl, rfl⟩
  | call r => exact .inl ⟨rfl, rfl⟩
  | fail reason => exact .inl ⟨rfl, rfl⟩
  | edit event change => exact .inl ⟨rfl, rfl⟩

/-- Calls that have ended in a run have ended when it goes on. -/
theorem prefix_ended {pre : List Move} (h : pre <+: ms) : (run pre).ended <+: (run ms).ended := by
  induction ms using List.reverseRecOn with
  | nil =>
      obtain rfl := List.prefix_nil.1 h
      exact List.prefix_rfl
  | append_singleton ms m ih =>
      rcases List.prefix_concat_iff.1 h with rfl | hpre
      · exact List.prefix_rfl
      · refine (ih hpre).trans ?_
        rw [run_concat]
        rcases ended_step (run ms) m with ⟨-, heq⟩ | ⟨-, n, heq⟩
        · exact heq ▸ List.prefix_rfl
        · exact heq ▸ List.prefix_append _ [n]

/-! ### The failure that is due -/

/-- A failure is due after a run: it was armed, and since then no other was armed and no call
has ended. -/
def Due (ms : List Move) (reason : String) : Prop :=
  ∃ before after, ms = before ++ .fail reason :: after ∧ (∀ other, .fail other ∉ after) ∧
    (run ms).ended = (run before).ended

/-- No failure is due at first. -/
theorem not_due_nil (reason : String) : ¬Due [] reason := by
  rintro ⟨before, after, heq, -⟩
  simp at heq

/-- When a failure is due after one more thing has happened. -/
theorem due_concat_iff {reason : String} :
    Due (ms ++ [m]) reason ↔
      m = .fail reason ∨ (∀ other, m ≠ .fail other) ∧ ((run ms).step m).2 = none ∧ Due ms reason := by
  constructor
  · rintro ⟨before, after, heq, hfail, hended⟩
    rcases List.eq_nil_or_concat after with rfl | ⟨after, m', rfl⟩
    · left
      exact List.singleton_inj.1 (List.append_inj' heq rfl).2
    · right
      rw [List.concat_eq_append] at heq hfail
      rw [← List.cons_append, ← List.append_assoc] at heq
      obtain ⟨rfl, hm⟩ := List.append_inj' heq rfl
      obtain rfl := List.singleton_inj.1 hm
      have hbefore := (prefix_ended (List.prefix_append before (.fail reason :: after))).length_le
      rw [run_concat] at hended
      rcases ended_step (run (before ++ .fail reason :: after)) m with ⟨hnone, heq⟩ | ⟨-, n, heq⟩
      · refine ⟨fun other hm => ?_, hnone, before, after, rfl, fun other hmem => ?_, ?_⟩
        · exact hfail other (List.mem_append_right after (List.mem_singleton.2 hm.symm))
        · exact hfail other (List.mem_append_left [m] hmem)
        · rw [← heq, hended]
      · -- one more call would have ended than had when the failure was armed
        rw [heq] at hended
        have hlength := congrArg List.length hended
        rw [List.length_append, List.length_singleton] at hlength
        omega
  · rintro (rfl | ⟨hfail, hnone, before, after, rfl, hothers, hended⟩)
    · refine ⟨ms, [], rfl, by simp, ?_⟩
      rw [run_concat]
      rfl
    · refine ⟨before, after ++ [m], by simp, ?_, ?_⟩
      · intro other hmem
        rcases List.mem_append.1 hmem with hmem | hmem
        · exact hothers other hmem
        · exact hfail other (List.mem_singleton.1 hmem).symm
      · rw [run_concat, ← hended]
        rcases ended_step (run (before ++ .fail reason :: after)) m with ⟨-, heq⟩ | ⟨hsome, -⟩
        · exact heq
        · exact absurd hnone hsome

/-- A failure that is armed is the only one that is due. -/
theorem due_concat_fail_iff {reason other : String} :
    Due (ms ++ [.fail reason]) other ↔ other = reason := by
  rw [due_concat_iff]
  constructor
  · rintro (hfail | ⟨hnone, -⟩)
    · exact (Move.fail.inj hfail).symm
    · exact absurd rfl (hnone reason)
  · rintro rfl
    exact .inl rfl

/-- A failure is armed after one thing: it was armed just now, or it was armed before and no
call has ended. -/
theorem failNext_step_iff {reason : String} :
    (s.step m).1.store.failNext = some reason ↔
      m = .fail reason ∨
        (∀ other, m ≠ .fail other) ∧ (s.step m).2 = none ∧ s.store.failNext = some reason := by
  cases m with
  | call r => simp [step, begin]
  | finish n =>
      cases hpending : s.pending? n with
      | none => simp [step, hpending]
      | some r =>
          obtain ⟨events, hstore⟩ := finish_frame s.store r
          simp [step, hpending, hstore]
  | cancel n => cases hpending : s.pending? n <;> simp [step, hpending]
  | fail other => simp [step, armFailure]
  | edit event change =>
      obtain ⟨events, hstore⟩ := changeEvent_frame s.store event change
      simp [step, hstore]

/-- The failure that is armed after a run is the one that is due. -/
theorem failNext_run_iff {reason : String} :
    (run ms).store.failNext = some reason ↔ Due ms reason := by
  induction ms using List.reverseRecOn with
  | nil => simpa [run] using not_due_nil reason
  | append_singleton ms m ih => rw [run_concat, failNext_step_iff, due_concat_iff, ih]

/-! ### Counts -/

/-- Every call that has begun is counted, and counted as under way until it ends, even if it is
given up. -/
structure Accounted (s : Service) : Prop where
  calls : s.store.calls = s.started.length
  inFlight : s.store.inFlight + s.ended.length = s.started.length
  once : s.ended.Nodup
  ended_lt : ∀ n ∈ s.ended, n < s.started.length
  cancelled : ∀ n ∈ s.cancelled, n < s.started.length ∧ n ∉ s.ended

namespace Accounted

/-- While a call is under way, fewer calls have ended than have begun. -/
theorem length_ended_lt (h : s.Accounted) (hpending : s.pending? n = some r) :
    s.ended.length < s.started.length := by
  obtain ⟨hended, -, -⟩ := pending?_eq_some_iff.1 hpending
  have hnodup : (n :: s.ended).Nodup := List.nodup_cons.2 ⟨hended, h.once⟩
  have hwithin : n :: s.ended ⊆ List.range s.started.length := by
    intro k hk
    rw [List.mem_range]
    rcases List.mem_cons.1 hk with rfl | hk
    · exact lt_length_of_pending hpending
    · exact h.ended_lt k hk
  have hlength := (List.subperm_of_subset hnodup hwithin).length_le
  rw [List.length_cons, List.length_range] at hlength
  exact hlength

/-- A call under way is counted as such. -/
theorem inFlight_pos (h : s.Accounted) (hpending : s.pending? n = some r) :
    0 < s.store.inFlight := by
  have hlength := h.length_ended_lt hpending
  have hcount := h.inFlight
  omega

/-- The calls that are counted as under way are those that have begun and not ended. -/
theorem inFlight_eq (h : s.Accounted) :
    s.store.inFlight = (List.range s.started.length).countP (· ∉ s.ended) := by
  have hperm : ((List.range s.started.length).filter (· ∈ s.ended)).Perm s.ended := by
    rw [List.perm_ext_iff_of_nodup (List.nodup_range.filter _) h.once]
    intro n
    rw [List.mem_filter, List.mem_range, decide_eq_true_iff]
    exact ⟨And.right, fun hn => ⟨h.ended_lt n hn, hn⟩⟩
  have hsplit := List.length_eq_countP_add_countP (l := List.range s.started.length) (· ∈ s.ended)
  rw [List.length_range, List.countP_eq_length_filter, hperm.length_eq] at hsplit
  have hcount := h.inFlight
  simp only [decide_eq_true_eq] at hsplit
  omega

/-- A call that begins is one more of either count. -/
theorem call (h : s.Accounted) (r : Request) :
    Accounted { s with store := s.store.begin, started := s.started ++ [r] } where
  calls := by
    simp [begin, h.calls]
  inFlight := by
    have hcount := h.inFlight
    simp only [begin, List.length_append, List.length_singleton]
    omega
  once := h.once
  ended_lt := by
    intro n hn
    have hlt := h.ended_lt n hn
    simp only [List.length_append, List.length_singleton]
    omega
  cancelled := by
    intro n hn
    obtain ⟨hlt, hended⟩ := h.cancelled n hn
    simp only [List.length_append, List.length_singleton]
    exact ⟨by omega, hended⟩

/-- A call that ends is one less of those under way, and ends no more. -/
theorem finish (h : s.Accounted) (hpending : s.pending? n = some r) :
    Accounted { s with store := (s.store.finish r).1, ended := s.ended ++ [n] } := by
  obtain ⟨hended, hcancelled, -⟩ := pending?_eq_some_iff.1 hpending
  have hbegun := lt_length_of_pending hpending
  obtain ⟨events, hstore⟩ := finish_frame s.store r
  rw [hstore]
  constructor
  case calls => exact h.calls
  case inFlight =>
    have hpos := h.inFlight_pos hpending
    have hcount := h.inFlight
    simp only [List.length_append, List.length_singleton]
    omega
  case once =>
    rw [← List.concat_eq_append]
    exact h.once.concat hended
  case ended_lt =>
    intro k hk
    rcases List.mem_append.1 hk with hk | hk
    · exact h.ended_lt k hk
    · rwa [List.mem_singleton.1 hk]
  case cancelled =>
    intro k hk
    obtain ⟨hlt, hnot⟩ := h.cancelled k hk
    refine ⟨hlt, fun hmem => ?_⟩
    rcases List.mem_append.1 hmem with hmem | hmem
    · exact hnot hmem
    · exact hcancelled (List.mem_singleton.1 hmem ▸ hk)

/-- A call that is given up has not ended. -/
theorem cancel (h : s.Accounted) (hpending : s.pending? n = some r) :
    Accounted { s with cancelled := s.cancelled ++ [n] } where
  calls := h.calls
  inFlight := h.inFlight
  once := h.once
  ended_lt := h.ended_lt
  cancelled := by
    have hbegun := lt_length_of_pending hpending
    intro k hk
    rcases List.mem_append.1 hk with hk | hk
    · exact h.cancelled k hk
    · rw [List.mem_singleton.1 hk]
      exact ⟨hbegun, (pending?_eq_some_iff.1 hpending).1⟩

/-- Whatever happens keeps the count. -/
theorem step (h : s.Accounted) (m : Move) : (s.step m).1.Accounted := by
  cases m with
  | call r => exact h.call r
  | finish n =>
      cases hpending : s.pending? n with
      | none =>
          simp only [Service.step, hpending]
          exact h
      | some r =>
          rw [step_finish hpending]
          exact h.finish hpending
  | cancel n =>
      cases hpending : s.pending? n with
      | none =>
          simp only [Service.step, hpending]
          exact h
      | some r =>
          simp only [Service.step, hpending]
          exact h.cancel hpending
  | fail reason => exact ⟨h.calls, h.inFlight, h.once, h.ended_lt, h.cancelled⟩
  | edit event change =>
      obtain ⟨events, hstore⟩ := changeEvent_frame s.store event change
      simp only [Service.step, hstore]
      exact ⟨h.calls, h.inFlight, h.once, h.ended_lt, h.cancelled⟩

end Accounted

/-- The counts of a store are kept in every run. -/
theorem accounted_run (ms : List Move) : (run ms).Accounted := by
  induction ms using List.reverseRecOn with
  | nil => exact ⟨rfl, rfl, List.nodup_nil, by simp [run], by simp [run]⟩
  | append_singleton ms m ih =>
      rw [run_concat]
      exact ih.step m

/-- Only a call that begins raises the count of the calls under way at most. -/
theorem maxInFlight_step (h : s.store.inFlight ≤ s.store.maxInFlight) (m : Move) :
    (s.step m).1.store.maxInFlight = max (s.step m).1.store.inFlight s.store.maxInFlight := by
  cases m with
  | call r =>
      simp only [step, begin]
      omega
  | finish n =>
      cases hpending : s.pending? n with
      | none =>
          simp only [step, hpending]
          omega
      | some r =>
          obtain ⟨events, hstore⟩ := finish_frame s.store r
          simp only [step, hpending, hstore]
          omega
  | cancel n =>
      simp only [step]
      split <;> exact (max_eq_right h).symm
  | fail reason => exact (max_eq_right h).symm
  | edit event change =>
      obtain ⟨events, hstore⟩ := changeEvent_frame s.store event change
      simp only [step, hstore]
      omega

/-- How many calls were counted as under way at one time or another in a run. -/
def levels (ms : List Move) : Set Nat :=
  { level | ∃ pre, pre <+: ms ∧ (run pre).store.inFlight = level }

/-- One more thing brings one more count of the calls under way. -/
theorem levels_concat (ms : List Move) (m : Move) :
    levels (ms ++ [m]) = insert (run (ms ++ [m])).store.inFlight (levels ms) := by
  ext level
  constructor
  · rintro ⟨pre, hpre, rfl⟩
    rcases List.prefix_concat_iff.1 hpre with rfl | hpre
    · exact .inl rfl
    · exact .inr ⟨pre, hpre, rfl⟩
  · rintro (rfl | ⟨pre, hpre, rfl⟩)
    · exact ⟨_, List.prefix_rfl, rfl⟩
    · exact ⟨pre, hpre.trans (List.prefix_append ms [m]), rfl⟩

/-- The highest count of the calls under way is kept. -/
theorem isGreatest_maxInFlight (ms : List Move) :
    IsGreatest (levels ms) (run ms).store.maxInFlight := by
  induction ms using List.reverseRecOn with
  | nil =>
      refine ⟨⟨[], List.prefix_rfl, rfl⟩, ?_⟩
      rintro _ ⟨pre, hpre, rfl⟩
      obtain rfl := List.prefix_nil.1 hpre
      exact le_rfl
  | append_singleton ms m ih =>
      have hle : (run ms).store.inFlight ≤ (run ms).store.maxInFlight :=
        ih.2 ⟨ms, List.prefix_rfl, rfl⟩
      rw [levels_concat, run_concat, maxInFlight_step hle]
      exact ih.insert _

/-! ### Books -/

/-- How a call ends after a run. -/
structure Fate (ms : List Move) (m : Move) (x : Ending) : Prop where
  /-- The call was counted as under way, and is not any more. -/
  counted : (run (ms ++ [m])).store.inFlight + 1 = (run ms).store.inFlight
  /-- A failure that is due is the answer, whatever the call asked for. -/
  failed : ∀ reason, Due ms reason → x.answer = .error (.backend reason)
  spared : (∀ reason, ¬Due ms reason) → x.answer = (run ms).store.reply x.request
  spent : ∀ reason, ¬Due (ms ++ [m]) reason
  unchanged : ∀ error, x.answer = .error error →
    (run (ms ++ [m])).store.events = (run ms).store.events
  /-- No field changes but the one that the call sets. -/
  amended : ∀ answer, x.answer = .ok answer →
    ∃ e e', (run ms).store.event? (requestEvent x.request) = some e ∧ Amended x.request e e' ∧
      ∀ id, (run (ms ++ [m])).store.event? id =
        if id = requestEvent x.request then some e' else (run ms).store.event? id

/-- The counts of a store after a run, and what happens when a call begins and when one ends. -/
structure Books (ms : List Move) : Prop where
  calls : (run ms).store.calls = (run ms).started.length
  /-- Calls that have not ended are under way, the ones that were given up too. -/
  inFlight : (run ms).store.inFlight =
    (List.range (run ms).started.length).countP (· ∉ (run ms).ended)
  cancelled : ∀ n ∈ (run ms).cancelled, n < (run ms).started.length ∧ n ∉ (run ms).ended
  maxInFlight : IsGreatest (levels ms) (run ms).store.maxInFlight
  begins : ∀ r, (run (ms ++ [.call r])).store.events = (run ms).store.events
  ends : ∀ n r, (run ms).pending? n = some r →
    ∃ answer, ((run ms).step (.finish n)).2 = some { request := r, answer }
  fate : ∀ m x, ((run ms).step m).2 = some x → Fate ms m x
  /-- A failure that is armed takes the place of one that is due. -/
  armed : ∀ reason other, Due (ms ++ [.fail reason]) other ↔ other = reason

/-- A call that ends meets its fate. -/
theorem fate_of_step (h : ((run ms).step m).2 = some x) : Fate ms m x := by
  obtain ⟨n, hfinish, hpending, hstore, hanswer⟩ := exists_of_step_eq_some h
  rw [← run_concat] at hstore
  constructor
  case counted =>
    have hpos := (accounted_run ms).inFlight_pos hpending
    obtain ⟨events, hframe⟩ := finish_frame (run ms).store x.request
    rw [hstore, hframe]
    dsimp only
    omega
  case failed =>
    intro reason hdue
    rw [hanswer]
    exact finish_of_armed (failNext_run_iff.2 hdue)
  case spared =>
    intro hdue
    rw [hanswer]
    apply finish_of_ready
    rw [Option.eq_none_iff_forall_ne_some]
    intro reason hfail
    exact hdue reason (failNext_run_iff.1 hfail)
  case spent =>
    intro reason hdue
    rcases due_concat_iff.1 hdue with hfail | ⟨-, hnone, -⟩
    · rw [hfinish] at hfail
      contradiction
    · rw [h] at hnone
      contradiction
  case unchanged =>
    intro error herror
    rw [hstore]
    exact finish_events_of_error (hanswer ▸ herror)
  case amended =>
    intro answer hok
    rw [hstore]
    exact finish_amends (hanswer ▸ hok)

/-- In every run of overlapping calls the store counts right, a failure that was armed is the
end of one call, and a call that fails changes nothing. -/
theorem books_run (ms : List Move) : Books ms where
  calls := (accounted_run ms).calls
  inFlight := (accounted_run ms).inFlight_eq
  cancelled := (accounted_run ms).cancelled
  maxInFlight := isGreatest_maxInFlight ms
  begins := fun r => by rw [run_concat]; rfl
  ends := fun n r hpending => ⟨_, congrArg Prod.snd (step_finish hpending)⟩
  fate := fun _ _ h => fate_of_step h
  armed := fun _ _ => due_concat_fail_iff

/-- Two calls overlap, one is given up, and the other one meets the failure. -/
example :
    let s := run [.call (.saveNotes 1 10 "L"), .call (.fetchNotes 7 20), .cancel 0, .fail "down"]
    (s.step (.finish 0)).2 = none ∧
      (s.step (.finish 1)).2 =
        some { request := .fetchNotes 7 20, answer := .error (.backend "down") } ∧
      (s.step (.finish 1)).1.store = { calls := 2, inFlight := 1, maxInFlight := 2 } := by
  exact ⟨rfl, rfl, rfl⟩

end Service
end Store
end AwardsDesk
