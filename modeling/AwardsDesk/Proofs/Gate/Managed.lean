import AwardsDesk.Gate.Manager
import AwardsDesk.Proofs.Gate.Moves
import AwardsDesk.Proofs.Text.Bytes

/-!
# Halls with a manager

A manager is asked for gates again and again, by name, while the gates are used and others are
made without it.  A name is bound by the first call for it that succeeds, and stays bound to the
gate that was made then.

Main definitions:

- Inductive type {lit}`Manager.Call`: what a manager is asked for.
- Structure {lit}`Managed` with {lit}`Managed.run` and {lit}`Managed.granted`: a hall with a
  manager, what happens in it, and the calls that brought a gate.
- Structure {lit}`Managed.Books`: the bindings are those of the successful calls so far.

Main results:

- Theorem {lit}`Manager.answers`: all that a manager can answer.
- Theorem {lit}`Managed.Books.step`: the books are kept in every event.
- Theorem {lit}`Managed.wellKept_run`: one gate for each name, made by the first call that
  succeeded, and the names of the successful calls in order.
-/

namespace AwardsDesk
namespace Gate

/-! ## Calls -/

namespace Manager

/-- What a manager is asked for. -/
inductive Call where
  | register (name : String) (options : Options)
  | get (name : String)
deriving DecidableEq, Repr

/-- The name of the gate that is asked for. -/
def Call.name : Call → String
  | register name _ => name
  | get name => name

/-- The options of a gate that is made for a call. -/
def Call.options (defaults : Options) : Call → Options
  | register _ options => options
  | get _ => defaults

/-- What a manager answers to a call. -/
def answer (m : Manager) (h : Hall) : Call → Except Error (Manager × Hall × Nat)
  | .register name options => m.register h name options
  | .get name => m.get h name

variable {m : Manager} {h : Hall} {c : Call} {name : String} {n : Nat}

/-- The manager with one more name bound. -/
def binding (m : Manager) (name : String) (n : Nat) : Manager :=
  { m with bound := m.bound ++ [(name, n)] }

/-- All that a manager can answer to a call. -/
inductive Answers (m : Manager) (h : Hall) : Call → Except Error (Manager × Hall × Nat) → Prop where
  /-- The gate of a bound name is found. -/
  | found (name : String) (n : Nat) (bound : m.lookup name = some n) :
      Answers m h (.get name) (.ok (m, h, n))
  /-- A gate is made. -/
  | made (c : Call) (free : m.lookup c.name = none) (usable : (c.options m.defaults).Usable) :
      Answers m h c (.ok (m.binding c.name h.gates.length,
        (h.add { name := c.name, options := c.options m.defaults }).1, h.gates.length))
  /-- A bound name cannot be registered. -/
  | taken (name : String) (options : Options) (n : Nat) (bound : m.lookup name = some n) :
      Answers m h (.register name options) (.error (.invalidOptions (.nameTaken name)))
  /-- No gate can be made with unusable options. -/
  | unusable (c : Call) (free : m.lookup c.name = none)
      (unusable : ¬(c.options m.defaults).Usable) :
      Answers m h c (.error (.invalidOptions .zeroTimeout))

/-- A gate is made and bound if the options are usable. -/
theorem bind_eq (m : Manager) (h : Hall) (name : String) (options : Options) :
    m.bind h name options =
      if options.Usable then
        .ok (m.binding name h.gates.length, (h.add { name, options }).1, h.gates.length)
      else .error (.invalidOptions .zeroTimeout) := by
  unfold bind Gate.make Options.validate
  split <;> rfl

/-- A manager answers nothing else. -/
theorem answers (m : Manager) (h : Hall) (c : Call) : Answers m h c (m.answer h c) := by
  cases hbound : m.lookup c.name with
  | some n =>
      cases c with
      | register name options =>
          have hanswer : m.answer h (.register name options) =
              .error (.invalidOptions (.nameTaken name)) := by
            rw [answer, register, show m.lookup name = some n from hbound]
          rw [hanswer]
          exact .taken name options n hbound
      | get name =>
          have hanswer : m.answer h (.get name) = .ok (m, h, n) := by
            rw [answer, get, show m.lookup name = some n from hbound]
          rw [hanswer]
          exact .found name n hbound
  | none =>
      have hanswer : m.answer h c = m.bind h c.name (c.options m.defaults) := by
        cases c with
        | register name options =>
            rw [answer, register, show m.lookup name = none from hbound]
            rfl
        | get name =>
            rw [answer, get, show m.lookup name = none from hbound]
            rfl
      rw [hanswer, bind_eq]
      split
      · exact .made c hbound ‹_›
      · exact .unusable c hbound ‹_›

/-- What is bound after one more name was bound. -/
theorem lookup_binding (free : m.lookup name = none) (other : String) :
    (m.binding name n).lookup other = if other = name then some n else m.lookup other := by
  rw [binding, lookup, List.lookup_append]
  by_cases heq : other = name
  · rw [heq, show m.bound.lookup name = none from free]
    simp
  · cases hother : m.bound.lookup other <;>
      simp [lookup, hother, List.lookup_cons, heq, beq_false_of_ne heq]

/-- A name is bound if it has a gate. -/
theorem mem_bound_iff : name ∈ m.bound.map Prod.fst ↔ ∃ n, m.lookup name = some n := by
  unfold lookup
  induction m.bound with
  | nil => simp
  | cons entry rest ih =>
      rcases entry with ⟨key, n⟩
      by_cases heq : name = key
      · simp [heq]
      · simpa [List.lookup_cons, heq, beq_false_of_ne heq] using ih

end Manager

/-! ## What happens in a hall -/

/-- A hall with a manager. -/
structure Managed where
  manager : Manager
  hall : Hall

namespace Managed

open Manager

/-- The manager is asked for a gate.  A call that fails leaves everything as it is. -/
def call (w : Managed) (c : Manager.Call) : Managed × Except Error Nat :=
  match w.manager.answer w.hall c with
  | .ok (manager, hall, n) => ({ manager, hall }, .ok n)
  | .error e => (w, .error e)

/-- Something that happens in a hall with a manager. -/
inductive Event where
  /-- The manager is asked for a gate. -/
  | call (c : Manager.Call)
  /-- A gate is made without the manager. -/
  | make (name : String) (options : Options)
  /-- A gate is used. -/
  | move (m : Hall.Move)

/-- One event. -/
def step (w : Managed) : Event → Managed
  | .call c => (w.call c).1
  | .make name options =>
    match Gate.make name options with
    | .ok g => { w with hall := (w.hall.add g).1 }
    | .error _ => w
  | .move m => { w with hall := w.hall.move m }

/-- Event after event. -/
def run (w : Managed) (es : List Event) : Managed :=
  es.foldl step w

/-- The call of an event and the gate that it brought, if it succeeded. -/
def grant? (w : Managed) : Event → Option (Manager.Call × Nat)
  | .call c => (w.call c).2.toOption.map fun n => (c, n)
  | .make _ _ | .move _ => none

/-- The calls of a run that succeeded, with the gates that they brought. -/
def granted (w : Managed) : List Event → List (Manager.Call × Nat)
  | [] => []
  | e :: es => (w.grant? e).toList ++ granted (w.step e) es

variable {w : Managed} {usual : Options} {log : List (Manager.Call × Nat)} {name : String} {n : Nat}

/-- The bindings of a manager are those of the calls that have succeeded so far. -/
structure Books (w : Managed) (usual : Options) (log : List (Manager.Call × Nat)) : Prop where
  defaults : w.manager.defaults = usual
  nodup : (w.manager.bound.map Prod.fst).Nodup
  /-- A call brought the gate that its name is bound to. -/
  brought : ∀ x ∈ log, w.manager.lookup x.1.name = some x.2
  /-- A name is bound to the gate that was made for the first call that succeeded. -/
  made : ∀ name n, w.manager.lookup name = some n → n < w.hall.gates.length ∧
    (w.hall.gate n).name = name ∧
    ∃ c, log.find? (·.1.name = name) = some (c, n) ∧ (w.hall.gate n).options = c.options usual

/-- A gate that is added leaves the others. -/
theorem gate_add_of_lt {h : Hall} (hn : n < h.gates.length) (g : Gate) :
    (h.add g).1.gate n = h.gate n := by
  rw [Hall.gate, Hall.gate, Hall.add, List.getD, List.getD, List.getElem?_append_left hn]

/-- A gate that is added is found at its number. -/
theorem gate_add_self (h : Hall) (g : Gate) : (h.add g).1.gate h.gates.length = g := by
  simp [Hall.gate, Hall.add]

namespace Books

/-- The books are empty before the first call. -/
theorem initial (usual : Options) (hall : Hall) :
    Books { manager := { defaults := usual }, hall } usual [] where
  defaults := rfl
  nodup := List.nodup_nil
  brought := by simp
  made := by simp [lookup]

/-- The books are the same when gates are used, or made without the manager. -/
theorem of_hall (h : w.Books usual log) {hall : Hall}
    (hlength : w.hall.gates.length ≤ hall.gates.length)
    (hgate : ∀ n < w.hall.gates.length, (hall.gate n).name = (w.hall.gate n).name ∧
      (hall.gate n).options = (w.hall.gate n).options) :
    Books { w with hall } usual log where
  defaults := h.defaults
  nodup := h.nodup
  brought := h.brought
  made := by
    intro name n hn
    rcases h.made name n hn with ⟨hlt, hname, c, hfirst, hoptions⟩
    rcases hgate n hlt with ⟨hsame, hsame'⟩
    exact ⟨Nat.lt_of_lt_of_le hlt hlength, hsame.trans hname, c, hfirst, hsame'.trans hoptions⟩

/-- No call for a name that is not bound has succeeded. -/
theorem find?_eq_none (h : w.Books usual log) (hfree : w.manager.lookup name = none) :
    log.find? (·.1.name = name) = none := by
  rw [List.find?_eq_none]
  intro x hx hname
  have hbound := h.brought x hx
  rw [of_decide_eq_true hname, hfree] at hbound
  cases hbound

/-- The books are the same after one more call for a bound name. -/
theorem found (h : w.Books usual log) (c : Manager.Call)
    (hbound : w.manager.lookup c.name = some n) : w.Books usual (log ++ [(c, n)]) where
  defaults := h.defaults
  nodup := h.nodup
  brought := by
    intro x hx
    rcases List.mem_append.1 hx with hold | hnew
    · exact h.brought x hold
    · rw [List.mem_singleton.1 hnew]
      exact hbound
  made := by
    intro name k hk
    rcases h.made name k hk with ⟨hlt, hname, c', hfirst, hoptions⟩
    exact ⟨hlt, hname, c', by rw [List.find?_append, hfirst]; rfl, hoptions⟩

/-- The books are kept when a gate is made for the first call for a name. -/
theorem bind (h : w.Books usual log) (c : Manager.Call) (hfree : w.manager.lookup c.name = none) :
    Books { manager := w.manager.binding c.name w.hall.gates.length,
            hall := (w.hall.add { name := c.name, options := c.options usual }).1 }
      usual (log ++ [(c, w.hall.gates.length)]) where
  defaults := h.defaults
  nodup := by
    have hnew : c.name ∉ w.manager.bound.map Prod.fst := by
      rw [mem_bound_iff, hfree]
      simp
    rw [binding, List.map_append, List.map_singleton, ← List.concat_eq_append]
    exact h.nodup.concat hnew
  brought := by
    intro x hx
    rw [lookup_binding hfree]
    rcases List.mem_append.1 hx with hold | hnew
    · have hne : x.1.name ≠ c.name := by
        intro heq
        have hbound := h.brought x hold
        rw [heq, hfree] at hbound
        cases hbound
      rw [if_neg hne]
      exact h.brought x hold
    · rw [List.mem_singleton.1 hnew]
      exact if_pos rfl
  made := by
    intro name k hk
    rw [lookup_binding hfree] at hk
    by_cases heq : name = c.name
    · subst heq
      obtain rfl : w.hall.gates.length = k := by simpa using hk
      refine ⟨by simp [Hall.add], ?_, c, ?_, ?_⟩
      · rw [gate_add_self]
      · rw [List.find?_append, h.find?_eq_none hfree]
        simp
      · rw [gate_add_self]
    · rw [if_neg heq] at hk
      rcases h.made name k hk with ⟨hlt, hname, c', hfirst, hoptions⟩
      refine ⟨by simp only [Hall.add, List.length_append]; omega, ?_, c', ?_, ?_⟩
      · rw [gate_add_of_lt hlt, hname]
      · rw [List.find?_append, hfirst]
        rfl
      · rw [gate_add_of_lt hlt, hoptions]

/-- The books are kept when the manager is asked for a gate. -/
theorem call (h : w.Books usual log) (c : Manager.Call) :
    (w.call c).1.Books usual (log ++ ((w.call c).2.toOption.map fun n => (c, n)).toList) := by
  have hanswers := w.manager.answers w.hall c
  unfold Managed.call
  generalize w.manager.answer w.hall c = r at hanswers
  cases hanswers with
  | found name n bound => exact h.found (.get name) bound
  | made c free usable =>
      rw [h.defaults]
      exact h.bind c free
  | taken name options n bound => simpa [Except.toOption] using h
  | unusable c free unusable => simpa [Except.toOption] using h

/-- The books are kept in every event. -/
theorem step (h : w.Books usual log) (e : Event) :
    (w.step e).Books usual (log ++ (w.grant? e).toList) := by
  cases e with
  | call c => exact h.call c
  | make name options =>
      rw [grant?, Option.toList_none, List.append_nil, Managed.step]
      cases Gate.make name options with
      | error e => exact h
      | ok g =>
          refine h.of_hall (by simp [Hall.add]) fun n hn => ?_
          simp only [gate_add_of_lt hn, and_self]
  | move m =>
      rw [grant?, Option.toList_none, List.append_nil, Managed.step]
      refine h.of_hall (by simp [Hall.move, Hall.put]) fun n hn => ?_
      exact Hall.gate_move_induction
        (P := fun g => g.name = (w.hall.gate n).name ∧ g.options = (w.hall.gate n).options)
        ⟨rfl, rfl⟩ fun _ => settings_step _ _

/-- The books are kept in a run. -/
theorem run (h : w.Books usual log) (es : List Event) :
    (w.run es).Books usual (log ++ w.granted es) := by
  induction es generalizing w log with
  | nil => simpa [Managed.run, granted] using h
  | cons e es ih =>
      have hrun := ih (h.step e)
      rwa [List.append_assoc] at hrun

/-- The bound names are those of the calls that have succeeded. -/
theorem bound_iff (h : w.Books usual log) (name : String) :
    (∃ n, w.manager.lookup name = some n) ↔ ∃ x ∈ log, x.1.name = name := by
  constructor
  · rintro ⟨n, hn⟩
    rcases h.made name n hn with ⟨-, -, c, hfirst, -⟩
    exact ⟨(c, n), List.mem_of_find?_eq_some hfirst, by simpa using List.find?_some hfirst⟩
  · rintro ⟨x, hx, rfl⟩
    exact ⟨x.2, h.brought x hx⟩

/-- Bound names stay bound to their gates. -/
theorem lookup_run (h : w.Books usual log) (hn : w.manager.lookup name = some n)
    (es : List Event) : (w.run es).manager.lookup name = some n := by
  rcases h.made name n hn with ⟨-, -, c, hfirst, -⟩
  have hmem : (c, n) ∈ log ++ w.granted es :=
    List.mem_append_left _ (List.mem_of_find?_eq_some hfirst)
  have hname : c.name = name := by simpa using List.find?_some hfirst
  rw [← hname]
  exact (h.run es).brought (c, n) hmem

/-- Names with the same gate are the same. -/
theorem name_eq (h : w.Books usual log) {name' : String} (hn : w.manager.lookup name = some n)
    (hn' : w.manager.lookup name' = some n) : name = name' :=
  (h.made name n hn).2.1.symm.trans (h.made name' n hn').2.1

end Books

/-! ## Well kept halls -/

/-- A manager has bound the names of the calls that have succeeded so far, each to a gate of its
own, and goes on to do so. -/
structure WellKept (w : Managed) (usual : Options) (log : List (Manager.Call × Nat)) : Prop where
  /-- A name is bound to one gate at most. -/
  nodup : (w.manager.bound.map Prod.fst).Nodup
  /-- A name that is bound stays bound to its gate, whatever happens. -/
  stays : ∀ name n es, w.manager.lookup name = some n →
    (w.run es).manager.lookup name = some n
  /-- Calls bring the same gate exactly if they are for the same name. -/
  same_iff : ∀ x ∈ log, ∀ y ∈ log, x.2 = y.2 ↔ x.1.name = y.1.name
  /-- A gate has the name that it was asked for by, and the options of the first call that
  succeeded. -/
  carries : ∀ x ∈ log, x.2 < w.hall.gates.length ∧ (w.hall.gate x.2).name = x.1.name ∧
    ∃ c, log.find? (·.1.name = x.1.name) = some (c, x.2) ∧
      (w.hall.gate x.2).options = c.options usual
  /-- Names are registered if they are free and the options are usable. -/
  register_iff : ∀ name options, (∃ n, (w.call (.register name options)).2 = .ok n) ↔
    w.manager.lookup name = none ∧ options.Usable
  /-- A gate is had if its name is bound or the usual options are usable. -/
  get_iff : ∀ name, (∃ n, (w.call (.get name)).2 = .ok n) ↔
    w.manager.lookup name ≠ none ∨ usual.Usable
  /-- A call that fails leaves the manager and the gates as they are. -/
  fails : ∀ c e, (w.call c).2 = .error e → (w.call c).1 = w
  /-- A name for which no call has succeeded can be registered with usable options. -/
  registers : ∀ name options, (∀ x ∈ log, x.1.name ≠ name) → options.Usable →
    ∃ n, (w.call (.register name options)).2 = .ok n
  /-- The names are told in the order of their bytes, each once. -/
  ordered : w.manager.names.Pairwise fun a b => Text.bytes a < Text.bytes b
  /-- The names told are those of the calls that have succeeded. -/
  mem_names_iff : ∀ name, name ∈ w.manager.names ↔ ∃ x ∈ log, x.1.name = name

/-- Names are told in increasing order if none is bound twice. -/
theorem pairwise_names {m : Manager} (h : (m.bound.map Prod.fst).Nodup) :
    m.names.Pairwise (· < ·) := by
  have hsorted : m.names.Pairwise (· ≤ ·) := by
    have hpairwise : m.names.Pairwise fun a b => decide (a ≤ b) = true :=
      List.pairwise_mergeSort (by simpa using fun a b c => le_trans) (by simpa using le_total) _
    simpa using hpairwise
  have hnodup : m.names.Nodup := (List.mergeSort_perm _ _).nodup_iff.2 h
  exact (hsorted.and hnodup).imp fun hab => lt_of_le_of_ne hab.1 hab.2

/-- The names told are the bound ones. -/
theorem mem_names {m : Manager} : name ∈ m.names ↔ ∃ n, m.lookup name = some n := by
  rw [← mem_bound_iff]
  exact List.mem_mergeSort

/-- Registering succeeds for free names and usable options, and otherwise not. -/
theorem register_eq_ok_iff (w : Managed) (name : String) (options : Options) :
    (∃ n, (w.call (.register name options)).2 = .ok n) ↔
      w.manager.lookup name = none ∧ options.Usable := by
  have hanswers := w.manager.answers w.hall (.register name options)
  unfold Managed.call
  generalize w.manager.answer w.hall (.register name options) = r at hanswers
  cases hanswers with
  | made c free usable => exact ⟨fun _ => ⟨free, usable⟩, fun _ => ⟨_, rfl⟩⟩
  | taken _ _ n bound => simp [bound]
  | unusable c free unusable => simpa using fun _ => show ¬options.Usable from unusable

/-- Asking for a gate succeeds for bound names and usable options, and otherwise not. -/
theorem get_eq_ok_iff (w : Managed) (name : String) :
    (∃ n, (w.call (.get name)).2 = .ok n) ↔
      w.manager.lookup name ≠ none ∨ w.manager.defaults.Usable := by
  have hanswers := w.manager.answers w.hall (.get name)
  unfold Managed.call
  generalize w.manager.answer w.hall (.get name) = r at hanswers
  cases hanswers with
  | found _ n bound => simp [bound]
  | made c free usable => exact ⟨fun _ => .inr usable, fun _ => ⟨_, rfl⟩⟩
  | unusable c free unusable => simpa using ⟨free, unusable⟩

/-- A call that fails changes nothing. -/
theorem call_of_error {c : Manager.Call} {e : Error} (h : (w.call c).2 = .error e) :
    (w.call c).1 = w := by
  unfold Managed.call at h ⊢
  cases hanswer : w.manager.answer w.hall c with
  | error e => rfl
  | ok r =>
      rw [hanswer] at h
      cases h

/-- In every run, whatever is asked of the manager and whatever else is done to gates, each name
has one gate, made by the first call for it that succeeded, and the names of the successful calls
are told in order. -/
theorem wellKept_run (usual : Options) (hall : Hall) (es : List Event) :
    let w : Managed := { manager := { defaults := usual }, hall }
    (w.run es).WellKept usual (w.granted es) := by
  intro w
  have h : (w.run es).Books usual (w.granted es) := (Books.initial usual hall).run es
  refine
    { nodup := h.nodup
      stays := fun _ _ more hn => h.lookup_run hn more
      same_iff := fun x hx y hy => ⟨fun hxy => ?_, fun hxy => ?_⟩
      carries := fun x hx => h.made _ _ (h.brought x hx)
      register_iff := register_eq_ok_iff _
      get_iff := fun name => ?_
      fails := fun _ _ => call_of_error
      registers := fun name options hfree usable => ?_
      ordered := (pairwise_names h.nodup).imp Text.lt_iff_bytes_lt.1
      mem_names_iff := fun name => mem_names.trans (h.bound_iff name) }
  · have hy' := h.brought y hy
    rw [← hxy] at hy'
    exact h.name_eq (h.brought x hx) hy'
  · have hx' := h.brought x hx
    rw [hxy, h.brought y hy] at hx'
    exact (Option.some.inj hx').symm
  · rw [get_eq_ok_iff, h.defaults]
  · have hunbound : ¬∃ n, (w.run es).manager.lookup name = some n := by
      rw [h.bound_iff]
      rintro ⟨x, hx, hname⟩
      exact hfree x hx hname
    refine (register_eq_ok_iff _ _ _).2 ⟨?_, usable⟩
    rwa [Option.eq_none_iff_forall_ne_some, ← not_exists]

end Managed
end Gate
end AwardsDesk
