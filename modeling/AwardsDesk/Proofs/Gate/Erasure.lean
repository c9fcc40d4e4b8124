import AwardsDesk.Proofs.Gate.Timeouts

/-!
# Requests that never get the slot

A request that times out, or is given up while it waits, might as well not have been made.
Leave out its acquire and all that is about it, and let later requests have the numbers that
they get then: what is left is a run in which everybody else is told the same at the same
steps.  The gate of that run is at every step the gate of the run as it was, without the
request.

Main definitions:

- Function {lit}`renumber`: the numbers of requests when one of them was not made.
- Functions {lit}`Gate.without`, {lit}`Event.without?` and {lit}`toldWithout?`: a gate, an
  event and what is told in it, without a request.
- Structure {lit}`Gate.Aside`: a request that was made and has neither slot nor ticket.
- Structure {lit}`Gate.NoTrace`: what a request leaves behind.

Main results:

- Theorems {lit}`Gate.Aside.step_without` and {lit}`Gate.Aside.without_step_of_number`: an
  event does to a gate without the request what it does to the gate.
- Theorem {lit}`Gate.Aside.run_without`: so does a run.
- Theorem {lit}`Gate.leaves_no_trace`: a run without a request that never got the slot.
-/

namespace AwardsDesk
namespace Gate

/-! ## Numbers -/

/-- The numbers of requests when the one of number {lit}`x` was not made: those that came
after it move up by one. -/
def renumber (x id : Nat) : Nat :=
  if x < id then id - 1 else id

/-- Requests that came before keep their numbers. -/
theorem renumber_of_lt {x id : Nat} (h : id < x) : renumber x id = id := by
  rw [renumber, if_neg (by omega)]

/-- Different requests go on having different numbers. -/
theorem renumber_inj {x m n : Nat} (hm : m ≠ x) (hn : n ≠ x) :
    renumber x m = renumber x n ↔ m = n := by
  unfold renumber
  constructor
  · intro h
    split at h <;> split at h <;> omega
  · intro h
    rw [h]

/-- Numbers that are looked for are found as before. -/
theorem renumber_beq {x m n : Nat} (hm : m ≠ x) (hn : n ≠ x) :
    (renumber x m == renumber x n) = (m == n) := by
  rw [Bool.eq_iff_iff, beq_iff_eq, beq_iff_eq]
  exact renumber_inj hm hn

/-- The owner of the slot is the same when the numbers are others. -/
theorem map_renumber_eq_some {x n : Nat} {o : Option Nat} (ho : o ≠ some x) (hn : n ≠ x) :
    o.map (renumber x) = some (renumber x n) ↔ o = some n := by
  cases o with
  | none => simp
  | some m =>
      have hm : m ≠ x := fun heq => ho (heq ▸ rfl)
      simp [renumber_inj hm hn]

/-- Different owners go on being different. -/
theorem map_renumber_inj {x : Nat} {o p : Option Nat} (ho : o ≠ some x) (hp : p ≠ some x) :
    o.map (renumber x) = p.map (renumber x) ↔ o = p := by
  cases p with
  | none => simp
  | some n =>
      have hn : n ≠ x := fun heq => hp (heq ▸ rfl)
      exact map_renumber_eq_some ho hn

/-! ## Lists of requests and tickets -/

section Entries

variable {α : Type} {key : α → Nat} {move : α → α} {x n : Nat}

/-- The entries of a list without those of one number, the others renumbered. -/
def leaveOut (key : α → Nat) (move : α → α) (x : Nat) (l : List α) : List α :=
  (l.filter (key · ≠ x)).map move

/-- An entry of another number is left in. -/
theorem leaveOut_cons_of_ne {a : α} (ha : key a ≠ x) (l : List α) :
    leaveOut key move x (a :: l) = move a :: leaveOut key move x l := by
  simp [leaveOut, ha]

/-- An entry of the number is left out. -/
theorem leaveOut_cons_of_eq {a : α} (ha : key a = x) (l : List α) :
    leaveOut key move x (a :: l) = leaveOut key move x l := by
  simp [leaveOut, ha]

/-- A last entry of another number is left in. -/
theorem leaveOut_concat {a : α} (ha : key a ≠ x) (l : List α) :
    leaveOut key move x (l ++ [a]) = leaveOut key move x l ++ [move a] := by
  simp [leaveOut, ha]

/-- A last entry of the number is left out. -/
theorem leaveOut_concat_of_eq {a : α} (ha : key a = x) (l : List α) :
    leaveOut key move x (l ++ [a]) = leaveOut key move x l := by
  simp [leaveOut, ha]

/-- The numbers that are left. -/
theorem map_leaveOut (hmove : ∀ a, key (move a) = renumber x (key a)) (l : List α) :
    (leaveOut key move x l).map key = ((l.map key).filter (· ≠ x)).map (renumber x) := by
  induction l with
  | nil => rfl
  | cons a l ih =>
      by_cases ha : key a = x
      · rw [leaveOut_cons_of_eq ha, ih]
        simp [ha]
      · rw [leaveOut_cons_of_ne ha, List.map_cons, ih, hmove]
        simp [ha]

/-- Other numbers are left in. -/
theorem mem_map_leaveOut (hmove : ∀ a, key (move a) = renumber x (key a)) (hn : n ≠ x)
    (l : List α) : renumber x n ∈ (leaveOut key move x l).map key ↔ n ∈ l.map key := by
  rw [map_leaveOut hmove, List.mem_map]
  constructor
  · rintro ⟨m, hm, heq⟩
    rw [List.mem_filter, decide_eq_true_eq] at hm
    rw [renumber_inj hm.2 hn] at heq
    exact heq ▸ hm.1
  · intro hmem
    exact ⟨n, List.mem_filter.2 ⟨hmem, decide_eq_true hn⟩, rfl⟩

/-- A list without entries of the number is left as it is when all came before. -/
theorem leaveOut_of_lt (hmove : ∀ a, key a < x → move a = a) {l : List α}
    (h : ∀ a ∈ l, key a < x) : leaveOut key move x l = l := by
  induction l with
  | nil => rfl
  | cons a l ih =>
      have ha := h a List.mem_cons_self
      rw [leaveOut_cons_of_ne (Nat.ne_of_lt ha), hmove a ha,
        ih fun b hb => h b (List.mem_cons_of_mem a hb)]

/-- An entry of another number is found where it was. -/
theorem find?_leaveOut (hmove : ∀ a, key (move a) = renumber x (key a)) (hn : n ≠ x)
    (l : List α) :
    (leaveOut key move x l).find? (key · == renumber x n) =
      (l.find? (key · == n)).map move := by
  induction l with
  | nil => rfl
  | cons a l ih =>
      by_cases ha : key a = x
      · rw [leaveOut_cons_of_eq ha, ih, List.find?_cons_of_neg (by simpa [ha] using hn.symm)]
      · have hkey : (key (move a) == renumber x n) = (key a == n) := by
          rw [hmove, renumber_beq ha hn]
        rw [leaveOut_cons_of_ne ha, List.find?_cons, List.find?_cons, hkey]
        cases key a == n with
        | true => rfl
        | false => exact ih

/-- An entry of another number is taken out as before. -/
theorem eraseP_leaveOut (hmove : ∀ a, key (move a) = renumber x (key a)) (hn : n ≠ x)
    (l : List α) :
    (leaveOut key move x l).eraseP (key · == renumber x n) =
      leaveOut key move x (l.eraseP (key · == n)) := by
  induction l with
  | nil => rfl
  | cons a l ih =>
      by_cases ha : key a = x
      · rw [leaveOut_cons_of_eq ha, ih, List.eraseP_cons_of_neg (by simpa [ha] using hn.symm),
          leaveOut_cons_of_eq ha]
      · have hkey : (key (move a) == renumber x n) = (key a == n) := by
          rw [hmove, renumber_beq ha hn]
        rw [leaveOut_cons_of_ne ha, List.eraseP_cons, List.eraseP_cons, hkey]
        cases key a == n with
        | true => rfl
        | false =>
            simp only [cond_false]
            rw [leaveOut_cons_of_ne ha, ih]

/-- An entry that is left out anyway may be taken out before. -/
theorem leaveOut_eraseP (l : List α) :
    leaveOut key move x (l.eraseP (key · == x)) = leaveOut key move x l := by
  induction l with
  | nil => rfl
  | cons a l ih =>
      by_cases ha : key a = x
      · rw [List.eraseP_cons_of_pos (by simpa using ha), leaveOut_cons_of_eq ha]
      · rw [List.eraseP_cons_of_neg (by simpa using ha), leaveOut_cons_of_ne ha,
          leaveOut_cons_of_ne ha, ih]

end Entries

/-! ## Without a request -/

/-- A waiter under another number. -/
def Waiter.renumber (x : Nat) (w : Waiter) : Waiter :=
  { w with id := Gate.renumber x w.id }

/-- A slot without a request. -/
def Slot.without (s : Slot) (x : Nat) : Slot where
  locked := s.locked
  grant := s.grant.map (renumber x)
  waiters := leaveOut Waiter.id (Waiter.renumber x) x s.waiters
  issued := s.issued - 1

/-- A request under another number. -/
def Waiting.renumber (x : Nat) (w : Waiting) : Waiting :=
  { w with id := Gate.renumber x w.id }

/-- A ticket under another number. -/
def Ticket.renumber (x : Nat) (t : Ticket) : Ticket :=
  { t with id := Gate.renumber x t.id }

/-- A gate without a request. -/
def without (g : Gate) (x : Nat) : Gate :=
  { g with
    slot := g.slot.without x
    waiting := leaveOut Waiting.id (Waiting.renumber x) x g.waiting
    tickets := leaveOut Ticket.id (Ticket.renumber x) x g.tickets }

/-- An event under other numbers. -/
def Event.renumber (x : Nat) : Event → Event
  | .acquire now => .acquire now
  | .resume now id => .resume now (Gate.renumber x id)
  | .cancel id => .cancel (Gate.renumber x id)
  | .lock id => .lock (Gate.renumber x id)
  | .unlock id => .unlock (Gate.renumber x id)
  | .drop id => .drop (Gate.renumber x id)

/-- An event without a request: it is left out if it names the request. -/
def Event.without? (x : Nat) (e : Event) : Option Event :=
  if e.number? = some x then none else some (e.renumber x)

/-- What is told, under other numbers. -/
def Reply.renumber (x : Nat) : Reply → Reply
  | .admitted (.granted id) => .admitted (.granted (Gate.renumber x id))
  | .admitted (.queued id) => .admitted (.queued (Gate.renumber x id))
  | r => r

/-- What is told in an event, without a request. -/
def toldWithout? (x : Nat) (told : Event × Reply) : Option (Event × Reply) :=
  (told.1.without? x).map fun e => (e, told.2.renumber x)

variable {g : Gate} {s : Slot} {x id : Nat}

/-! ## Slots -/

namespace Slot

/-- The next request has the number that is next without the request. -/
theorem nextId_without (hx : 0 < x) (hissued : x ≤ s.issued) :
    (s.without x).nextId = renumber x s.nextId := by
  simp only [nextId, without]
  rw [renumber, if_pos (by omega)]
  omega

/-- A slot in order is free without the request if it is free with it. -/
theorem isFree_without (h : s.Ordered) : (s.without x).isFree = s.isFree := by
  cases hg : s.grant with
  | none => simp [isFree, without, hg, h.idle hg, leaveOut]
  | some owner => simp [isFree, without, hg]

/-- Who waits and is not the request waits without it. -/
theorem isQueued_without (hid : id ≠ x) :
    (s.without x).isQueued (renumber x id) = s.isQueued id := by
  have hmem := mem_map_leaveOut (fun w => (rfl : (Waiter.renumber x w).id = renumber x w.id)) hid
    s.waiters
  rw [Bool.eq_iff_iff]
  simpa [isQueued, without] using hmem

/-- The slot is asked for without the request. -/
theorem request_without (h : s.Ordered) (hx : 0 < x) (hissued : x ≤ s.issued) :
    (s.without x).request = s.request.without x := by
  have hnext := nextId_without hx hissued
  have hne : s.nextId ≠ x := by
    rw [nextId]
    omega
  have hcount : s.nextId - 1 = renumber x s.nextId := by
    rw [renumber, if_pos (by rw [nextId]; omega)]
  unfold request
  rw [isFree_without h, hnext]
  split
  · simp only [without, hcount, Option.map_some]
  · have hnew : leaveOut Waiter.id (Waiter.renumber x) x (s.waiters ++ [{ id := s.nextId }]) =
        leaveOut Waiter.id (Waiter.renumber x) x s.waiters ++ [{ id := renumber x s.nextId }] :=
      leaveOut_concat (a := (⟨s.nextId, true⟩ : Waiter)) hne s.waiters
    simp only [without, hcount, hnew]

/-- Another request leaves the queue without the request. -/
theorem dequeue_without (hid : id ≠ x) :
    (s.without x).dequeue (renumber x id) = (s.dequeue id).without x := by
  have hwaiters := eraseP_leaveOut (fun w => (rfl : (Waiter.renumber x w).id = renumber x w.id))
    hid s.waiters
  simp only [dequeue, without, hwaiters]

/-- Nobody notices that the request leaves the queue. -/
theorem without_dequeue : (s.dequeue x).without x = s.without x := by
  simp only [dequeue, without, leaveOut_eraseP]

/-- The slot is handed over past the request if it does not fall to it. -/
theorem handOver_without (hlive : ∀ w ∈ s.waiters, w.live = true)
    (hnot : s.handOver.grant ≠ some x) :
    (s.without x).handOver = s.handOver.without x := by
  cases hw : s.waiters with
  | nil => simp [handOver, without, hw, leaveOut]
  | cons w rest =>
      have hwlive : w.live = true := hlive w (by simp [hw])
      have hhand : s.handOver = { s with locked := true, grant := some w.id, waiters := rest } := by
        simp [handOver, hw, hwlive]
      have hne : w.id ≠ x := by
        intro heq
        apply hnot
        rw [hhand, heq]
      have hcons : (s.without x).waiters =
          Waiter.renumber x w :: leaveOut Waiter.id (Waiter.renumber x) x rest := by
        rw [without, hw, leaveOut_cons_of_ne hne]
      rw [hhand, handOver, hcons, List.dropWhile_cons_of_neg (by simp [Waiter.renumber, hwlive])]
      rfl

/-- Another request gives the slot back past the request if it does not fall to it. -/
theorem release_without (h : s.Ordered) (hgrant : s.grant ≠ some x) (hid : id ≠ x)
    (hnot : (s.release id).grant ≠ some x) :
    (s.without x).release (renumber x id) = (s.release id).without x := by
  have howner : (s.without x).grant = some (renumber x id) ↔ s.grant = some id :=
    map_renumber_eq_some hgrant hid
  unfold release at hnot ⊢
  by_cases hg : s.grant = some id
  · rw [if_pos hg] at hnot
    rw [if_pos hg, if_pos (howner.2 hg)]
    exact handOver_without (s := { s with locked := false, grant := none }) h.live hnot
  · rw [if_neg hg, if_neg (mt howner.1 hg)]

/-- Another request is given up without the request. -/
theorem withdraw_without (h : s.Ordered) (hgrant : s.grant ≠ some x) (hid : id ≠ x)
    (hnot : (s.withdraw id).grant ≠ some x) :
    (s.without x).withdraw (renumber x id) = (s.withdraw id).without x := by
  unfold withdraw at hnot ⊢
  rw [isQueued_without hid]
  split
  · exact dequeue_without hid
  · rename_i hqueued
    rw [if_neg hqueued] at hnot
    exact release_without h hgrant hid hnot

end Slot

/-! ## Gates -/

/-- Who is in hand and is not the request is in hand without it. -/
theorem isPending_without (hid : id ≠ x) :
    (g.without x).isPending (renumber x id) = g.isPending id := by
  rw [Bool.eq_iff_iff, isPending_iff, isPending_iff]
  exact mem_map_leaveOut (fun w => (rfl : (Waiting.renumber x w).id = renumber x w.id)) hid _

/-- Other tickets are kept without the request. -/
theorem hasTicket_without (hid : id ≠ x) :
    (g.without x).hasTicket (renumber x id) = g.hasTicket id := by
  rw [Bool.eq_iff_iff, hasTicket_iff, hasTicket_iff]
  exact mem_map_leaveOut (fun t => (rfl : (Ticket.renumber x t).id = renumber x t.id)) hid _

/-- Other tickets are as they are without the request. -/
theorem phase_without (hid : id ≠ x) : (g.without x).phase (renumber x id) = g.phase id := by
  have hfind := find?_leaveOut (fun t => (rfl : (Ticket.renumber x t).id = renumber x t.id)) hid
    g.tickets
  simp only [phase, without, hfind, Option.map_map]
  rfl

/-- Another request is kept no more without the request. -/
theorem forget_without (hid : id ≠ x) :
    (g.without x).forget (renumber x id) = (g.forget id).without x := by
  have herase := eraseP_leaveOut (fun w => (rfl : (Waiting.renumber x w).id = renumber x w.id)) hid
    g.waiting
  simp only [forget, without, herase]

/-- Another ticket has its new phase without the request. -/
theorem setPhase_without (hid : id ≠ x) (p : Phase) :
    (g.without x).setPhase (renumber x id) p = (g.setPhase id p).without x := by
  have htickets : (leaveOut Ticket.id (Ticket.renumber x) x g.tickets).map
        (fun t => if t.id = renumber x id then { t with phase := p } else t) =
      leaveOut Ticket.id (Ticket.renumber x) x
        (g.tickets.map fun t => if t.id = id then { t with phase := p } else t) := by
    induction g.tickets with
    | nil => rfl
    | cons t l ih =>
        by_cases ht : t.id = x
        · have hne : t.id ≠ id := fun heq => hid (heq.symm.trans ht)
          rw [leaveOut_cons_of_eq ht, ih, List.map_cons, if_neg hne, leaveOut_cons_of_eq ht]
        · have hkey : (Ticket.renumber x t).id = renumber x id ↔ t.id = id := renumber_inj ht hid
          rw [leaveOut_cons_of_ne ht, List.map_cons, List.map_cons, ih]
          by_cases heq : t.id = id
          · have hnew : ({ t with phase := p } : Ticket).id ≠ x := ht
            rw [if_pos (hkey.2 heq), if_pos heq, leaveOut_cons_of_ne hnew]
            rfl
          · rw [if_neg (mt hkey.1 heq), if_neg heq, leaveOut_cons_of_ne ht]
  simp only [setPhase, without, htickets]

/-- A new ticket is one without the request. -/
theorem leaveOut_newTicket (hid : id ≠ x) (l : List Ticket) :
    leaveOut Ticket.id (Ticket.renumber x) x (l ++ [⟨id, .granted⟩]) =
      leaveOut Ticket.id (Ticket.renumber x) x l ++ [⟨renumber x id, .granted⟩] :=
  leaveOut_concat (a := (⟨id, .granted⟩ : Ticket)) hid l

/-! ## A request that stands aside -/

/-- A request that was made and has neither the slot nor a ticket. -/
structure Aside (g : Gate) (x : Nat) : Prop where
  coherent : g.Coherent
  pos : 0 < x
  le_issued : x ≤ g.slot.issued
  grant : g.slot.grant ≠ some x
  ticket : x ∉ g.ticketIds

namespace Aside

/-- A request that is not given the slot goes on standing aside. -/
theorem step (h : g.Aside x) {e : Event} (hnot : (g.step e).1.slot.grant ≠ some x) :
    (g.step e).1.Aside x where
  coherent := h.coherent.step e
  pos := h.pos
  le_issued := Nat.le_trans h.le_issued (issued_le_step g e)
  grant := hnot
  ticket hid := (mem_ticketIds_step hid).elim h.ticket hnot

/-- A request that stands aside has no ticket to be used. -/
theorem phase (h : g.Aside x) : g.phase x = .released := by
  by_contra hused
  exact h.ticket (Coherent.mem_ticketIds_of_phase hused)

/-- Whatever is done about a request that stands aside, the gate without it is the same. -/
theorem without_step_of_number (h : g.Aside x) {e : Event} (he : e.number? = some x) :
    (g.step e).1.without x = g.without x := by
  cases e with
  | acquire now => simp [Event.number?] at he
  | resume now id =>
      obtain rfl : id = x := by simpa [Event.number?] using he
      simp only [Gate.step]
      rcases resume_cases g now id with heq | ⟨-, hg, -⟩ | ⟨-, -, heq⟩
      · rw [heq]
      · exact absurd hg h.grant
      · rw [heq]
        simp only [without, forget, Slot.without_dequeue, leaveOut_eraseP]
  | cancel id =>
      obtain rfl : id = x := by simpa [Event.number?] using he
      have hslot : (g.slot.withdraw id).without id = g.slot.without id := by
        unfold Slot.withdraw
        split
        · exact Slot.without_dequeue
        · rw [Slot.release_of_ne h.grant]
      simp only [Gate.step, cancel]
      split
      · simp only [without, forget, hslot, leaveOut_eraseP]
      · rfl
  | lock id =>
      obtain rfl : id = x := by simpa [Event.number?] using he
      rcases step_lock_cases g id with ⟨e, heq⟩ | ⟨hphase, -, -⟩
      · rw [heq]
      · rw [h.phase] at hphase
        contradiction
  | unlock id =>
      obtain rfl : id = x := by simpa [Event.number?] using he
      rcases step_unlock_cases g id with ⟨e, heq⟩ | ⟨hphase, -⟩
      · rw [heq]
      · rw [h.phase] at hphase
        contradiction
  | drop id =>
      obtain rfl : id = x := by simpa [Event.number?] using he
      simp only [Gate.step, drop, if_pos h.phase, without, leaveOut_eraseP]

/-- A new request is told the same without the one that stands aside. -/
theorem acquire_without (h : g.Aside x) (now : Nat) :
    (g.without x).step (.acquire now) =
      ((g.step (.acquire now)).1.without x, (g.step (.acquire now)).2.renumber x) := by
  have hslot := Slot.request_without h.coherent.slot h.pos h.le_issued
  have hnext := Slot.nextId_without h.pos h.le_issued
  have hne : g.slot.nextId ≠ x := by
    have hle := h.le_issued
    rw [Slot.nextId]
    omega
  have hwithout : (g.without x).slot = g.slot.without x := rfl
  simp only [Gate.step, acquire, hwithout, hslot, hnext, Slot.isFree_without h.coherent.slot]
  split
  · simp only [without, leaveOut_newTicket hne, Reply.renumber]
  · have hwaiting : ∀ t, leaveOut Waiting.id (Waiting.renumber x) x
          (g.waiting ++ [⟨g.slot.nextId, t⟩]) =
        leaveOut Waiting.id (Waiting.renumber x) x g.waiting ++
          [⟨renumber x g.slot.nextId, t⟩] :=
      fun t => leaveOut_concat (a := (⟨g.slot.nextId, t⟩ : Waiting)) hne g.waiting
    simp only [without, hwaiting, Reply.renumber]

/-- Another request that goes on is told the same without the one that stands aside. -/
theorem resume_without (h : g.Aside x) (now : Nat) (hid : id ≠ x) :
    (g.without x).resume now (renumber x id) =
      ((g.resume now id).1.without x, (g.resume now id).2) := by
  have hfind := find?_leaveOut (fun w => (rfl : (Waiting.renumber x w).id = renumber x w.id)) hid
    g.waiting
  have howner : (g.without x).slot.grant = some (renumber x id) ↔ g.slot.grant = some id :=
    map_renumber_eq_some h.grant hid
  have hwaiting : (g.without x).waiting =
      leaveOut Waiting.id (Waiting.renumber x) x g.waiting := rfl
  simp only [resume, hwaiting, hfind]
  cases g.waiting.find? (·.id == id) with
  | none => rfl
  | some w =>
      have hdeadline : (Waiting.renumber x w).deadline = w.deadline := rfl
      simp only [Option.map_some, howner, hdeadline]
      split
      · rw [forget_without hid]
        simp only [without, forget, leaveOut_newTicket hid]
      · split
        · rw [forget_without hid]
          simp only [without, Slot.dequeue_without hid]
        · rfl

/-- Another request is given up without the one that stands aside. -/
theorem cancel_without (h : g.Aside x) (hid : id ≠ x)
    (hnot : (g.cancel id).slot.grant ≠ some x) :
    (g.without x).cancel (renumber x id) = (g.cancel id).without x := by
  have hsame := isPending_without (g := g) hid
  by_cases hpending : g.isPending id = true
  · have hcancel : g.cancel id = { g.forget id with slot := g.slot.withdraw id } :=
      if_pos hpending
    have hcancel' : (g.without x).cancel (renumber x id) =
        { (g.without x).forget (renumber x id) with
          slot := (g.slot.without x).withdraw (renumber x id) } :=
      if_pos (hsame.trans hpending)
    rw [hcancel] at hnot
    rw [hcancel, hcancel', forget_without hid,
      Slot.withdraw_without h.coherent.slot h.grant hid hnot]
    rfl
  · have hcancel : g.cancel id = g := if_neg hpending
    have hcancel' : (g.without x).cancel (renumber x id) = g.without x :=
      if_neg fun hwaits => hpending (hsame.symm.trans hwaits)
    rw [hcancel, hcancel']

/-- Another ticket is locked without the request that stands aside. -/
theorem lock_without (h : g.Aside x) (hid : id ≠ x) :
    (g.without x).lock (renumber x id) = (g.lock id).map (without · x) := by
  have howner : (g.without x).slot.grant = some (renumber x id) ↔ g.slot.grant = some id :=
    map_renumber_eq_some h.grant hid
  simp only [lock, phase_without hid, howner]
  cases g.phase id with
  | locked => rfl
  | released => rfl
  | granted =>
      by_cases hg : g.slot.grant = some id
      · have hlocked := setPhase_without (g := { g with slot := g.slot.lock }) hid .locked
        simp only [if_pos hg, Except.map]
        rw [← hlocked]
        rfl
      · simp only [if_neg hg]
        rfl

/-- Another ticket is unlocked without the request that stands aside. -/
theorem unlock_without (h : g.Aside x) (hid : id ≠ x)
    (hnot : g.phase id = .locked → (g.slot.release id).grant ≠ some x) :
    (g.without x).unlock (renumber x id) = (g.unlock id).map (without · x) := by
  simp only [unlock, phase_without hid]
  cases hphase : g.phase id with
  | granted => rfl
  | released => rfl
  | locked =>
      have hslot := Slot.release_without h.coherent.slot h.grant hid (hnot hphase)
      have hreleased := setPhase_without (g := { g with slot := g.slot.release id }) hid .released
      simp only [Except.map]
      rw [← hreleased]
      simp only [without, hslot]

/-- Another ticket is thrown away without the request that stands aside. -/
theorem drop_without (h : g.Aside x) (hid : id ≠ x) (hnot : (g.drop id).slot.grant ≠ some x) :
    (g.without x).drop (renumber x id) = (g.drop id).without x := by
  have herase := eraseP_leaveOut (fun t => (rfl : (Ticket.renumber x t).id = renumber x t.id)) hid
    g.tickets
  have hslot : (if g.phase id = .released then g.slot.without x
        else (g.slot.without x).release (renumber x id)) =
      (if g.phase id = .released then g.slot else g.slot.release id).without x := by
    simp only [drop] at hnot
    split
    · rfl
    · rename_i hused
      rw [if_neg hused] at hnot
      exact Slot.release_without h.coherent.slot h.grant hid hnot
  simp only [drop, phase_without hid]
  simp only [without, herase, hslot]

/-- What is done about others comes to the same without the request that stands aside. -/
theorem step_without (h : g.Aside x) {e : Event} (he : e.number? ≠ some x)
    (hnot : (g.step e).1.slot.grant ≠ some x) :
    (g.without x).step (e.renumber x) =
      ((g.step e).1.without x, (g.step e).2.renumber x) := by
  have hsettle : ∀ r : Except Error Gate,
      (g.without x).settle (r.map (without · x)) =
        ((g.settle r).1.without x, (g.settle r).2.renumber x) := by
    intro r
    cases r <;> rfl
  cases e with
  | acquire now => exact h.acquire_without now
  | resume now id =>
      have hid : id ≠ x := by simpa [Event.number?] using he
      simp only [Event.renumber, Gate.step, h.resume_without now hid]
      rfl
  | cancel id =>
      have hid : id ≠ x := by simpa [Event.number?] using he
      simp only [Event.renumber, Gate.step, h.cancel_without hid hnot, isPending_without hid]
      split <;> rfl
  | lock id =>
      have hid : id ≠ x := by simpa [Event.number?] using he
      simp only [Event.renumber, Gate.step, h.lock_without hid]
      exact hsettle _
  | unlock id =>
      have hid : id ≠ x := by simpa [Event.number?] using he
      have hfalls : g.phase id = .locked → (g.slot.release id).grant ≠ some x := by
        intro hphase
        rw [Gate.step, unlock_eq_ok_iff.2 ⟨hphase, rfl⟩] at hnot
        exact hnot
      simp only [Event.renumber, Gate.step, h.unlock_without hid hfalls]
      exact hsettle _
  | drop id =>
      have hid : id ≠ x := by simpa [Event.number?] using he
      simp only [Event.renumber, Gate.step, h.drop_without hid hnot, hasTicket_without hid]
      split <;> rfl

/-- The slot is granted to others in an event as it is without the request. -/
theorem newGrant_without (h : g.Aside x) {e : Event} (he : e.number? ≠ some x)
    (hnot : (g.step e).1.slot.grant ≠ some x) :
    (g.without x).newGrant (e.renumber x) = (g.newGrant e).map (renumber x) := by
  have hsame : (g.step e).1.slot.grant.map (renumber x) = g.slot.grant.map (renumber x) ↔
      (g.step e).1.slot.grant = g.slot.grant := map_renumber_inj hnot h.grant
  rw [newGrant, newGrant, h.step_without he hnot]
  change (if (g.step e).1.slot.grant.map (renumber x) = g.slot.grant.map (renumber x) then none
    else (g.step e).1.slot.grant.map (renumber x)) = _
  simp only [hsame]
  split <;> rfl

/-- Nobody is granted the slot by what is done about the request. -/
theorem newGrant_of_number (h : g.Aside x) {e : Event} (he : e.number? = some x)
    (hnot : (g.step e).1.slot.grant ≠ some x) : g.newGrant e = none := by
  have hslot : (g.step e).1.slot.grant.map (renumber x) = g.slot.grant.map (renumber x) :=
    congrArg (fun g : Gate => g.slot.grant) (h.without_step_of_number he)
  rw [newGrant, if_pos ((map_renumber_inj hnot h.grant).1 hslot)]

end Aside

/-! ## Runs -/

/-- The events of a run without a request. -/
def eventsWithout (x : Nat) (es : List Event) : List Event :=
  es.filterMap (Event.without? x)

/-- What is told in a run without a request. -/
def toldWithout (x : Nat) (told : List (Event × Reply)) : List (Event × Reply) :=
  told.filterMap (toldWithout? x)

/-- In a run in which the request is not granted the slot, the gate is without it what it is
with it, others are told the same, and the slot is granted to the same. -/
theorem Aside.run_without (h : g.Aside x) {es : List Event} (hnot : x ∉ g.grants es) :
    (g.without x).run (eventsWithout x es) = (g.run es).without x ∧
      (g.without x).trace (eventsWithout x es) = toldWithout x (g.trace es) ∧
      (g.without x).grants (eventsWithout x es) = (g.grants es).map (renumber x) ∧
      (g.run es).Aside x := by
  induction es generalizing g with
  | nil => exact ⟨rfl, rfl, rfl, h⟩
  | cons e es ih =>
      rw [grants, List.mem_append, not_or, Option.mem_toList] at hnot
      have hgrant : (g.step e).1.slot.grant ≠ some x := by
        rcases newGrant_cases g e with hnew | ⟨-, hsame⟩
        · rw [← hnew]
          exact hnot.1
        · rw [hsame]
          exact h.grant
      rcases ih (h.step hgrant) hnot.2 with ⟨hrun, htrace, hgrants, haside⟩
      by_cases he : e.number? = some x
      · have hout : e.without? x = none := by
          rw [Event.without?, if_pos he]
        rw [h.without_step_of_number he] at hrun htrace hgrants
        refine ⟨?_, ?_, ?_, haside⟩
        · rw [eventsWithout, List.filterMap_cons_none hout]
          exact hrun
        · rw [eventsWithout, List.filterMap_cons_none hout, trace, toldWithout,
            List.filterMap_cons_none (by rw [toldWithout?, hout]; rfl)]
          exact htrace
        · rw [eventsWithout, List.filterMap_cons_none hout, grants, h.newGrant_of_number he hgrant]
          exact hgrants
      · have hin : e.without? x = some (e.renumber x) := by
          rw [Event.without?, if_neg he]
        have hstep := h.step_without he hgrant
        refine ⟨?_, ?_, ?_, haside⟩
        · rw [eventsWithout, List.filterMap_cons_some hin, run_cons, hstep]
          exact hrun
        · rw [eventsWithout, List.filterMap_cons_some hin, trace, trace, toldWithout, hstep,
            List.filterMap_cons_some (by rw [toldWithout?, hin]; rfl)]
          exact congrArg _ htrace
        · rw [eventsWithout, List.filterMap_cons_some hin, grants, grants, List.map_append,
            h.newGrant_without he hgrant, hstep, Option.toList_map]
          exact congrArg _ hgrants

/-- A request that has to wait stands aside, and the gate without it is the gate before. -/
theorem Coherent.aside_acquire (h : g.Coherent) (hg : g.slot.grant ≠ none) (now : Nat) :
    (g.step (.acquire now)).1.Aside g.slot.nextId ∧
      (g.step (.acquire now)).1.without g.slot.nextId = g := by
  have hnext : ∀ n ≤ g.slot.issued, n < g.slot.nextId := fun n hn => Nat.lt_succ_of_le hn
  have hline : ∀ n ∈ g.slot.line, n < g.slot.nextId := fun n hn => hnext n (h.slot.le_issued n hn)
  have hgrant : ∀ n, g.slot.grant = some n → n < g.slot.nextId :=
    fun n hn => hline n (Slot.mem_line_of_grant hn)
  have hcoherent := h.step (.acquire now)
  rw [Gate.step, h.acquire_of_grant hg] at hcoherent ⊢
  constructor
  · refine ⟨hcoherent, Nat.succ_pos _, Nat.le_refl _, ?_, h.nextId_notMem⟩
    intro hmine
    exact Nat.lt_irrefl _ (hgrant _ hmine)
  · have hsame : g.slot.grant.map (renumber g.slot.nextId) = g.slot.grant := by
      cases howner : g.slot.grant with
      | none => rfl
      | some n => rw [Option.map_some, renumber_of_lt (hgrant n howner)]
    have hwaiters : leaveOut Waiter.id (Waiter.renumber g.slot.nextId) g.slot.nextId
        (g.slot.waiters ++ [{ id := g.slot.nextId }]) = g.slot.waiters := by
      rw [leaveOut_concat_of_eq (a := (⟨g.slot.nextId, true⟩ : Waiter)) rfl]
      apply leaveOut_of_lt
      · intro w hw
        rw [Waiter.renumber, renumber_of_lt hw]
      · intro w hw
        apply hline
        exact List.mem_append_right _ (List.mem_map_of_mem hw)
    have hwaiting : ∀ t, leaveOut Waiting.id (Waiting.renumber g.slot.nextId) g.slot.nextId
        (g.waiting ++ [{ id := g.slot.nextId, deadline := t }]) = g.waiting := by
      intro t
      rw [leaveOut_concat_of_eq (a := (⟨g.slot.nextId, t⟩ : Waiting)) rfl]
      apply leaveOut_of_lt
      · intro w hw
        rw [Waiting.renumber, renumber_of_lt hw]
      · intro w hw
        apply hline
        exact h.pending_subset_line (List.mem_map_of_mem hw)
    have htickets : leaveOut Ticket.id (Ticket.renumber g.slot.nextId) g.slot.nextId g.tickets =
        g.tickets := by
      apply leaveOut_of_lt
      · intro t ht
        rw [Ticket.renumber, renumber_of_lt ht]
      · intro t ht
        exact hnext _ (h.kept.le_issued _ (List.mem_map_of_mem ht))
    simp only [without, Slot.without, hsame, hwaiters, hwaiting, htickets]
    rfl

/-! ## Requests that end in the queue -/

/-- A request in the queue comes to its end: it times out, or it is given up. -/
inductive EndsWaiting (g : Gate) (x : Nat) : Event → Prop where
  | timedOut (now : Nat) (out : (g.step (.resume now x)).2 = .turned .timedOut) :
      EndsWaiting g x (.resume now x)
  | givenUp (queued : g.slot.isQueued x = true) : EndsWaiting g x (.cancel x)

/-- A gate and a gate without a request show the same otherwise. -/
structure SameBut (x : Nat) (g g' : Gate) : Prop where
  grant : g'.slot.grant = g.slot.grant.map (renumber x)
  locked : g'.slot.locked = g.slot.locked
  /-- The others wait in the same order. -/
  order : g'.slot.waiters.map Waiter.id =
    ((g.slot.waiters.map Waiter.id).filter (· ≠ x)).map (renumber x)
  /-- Requests in hand have the same deadlines. -/
  waiting : g'.waiting = (g.waiting.filter (·.id ≠ x)).map (Waiting.renumber x)
  /-- There are the same tickets, in the same phases. -/
  tickets : g'.tickets = g.tickets.map (Ticket.renumber x)
  /-- One fewer waits while the request does. -/
  queued : g.queued = g'.queued + if g.slot.isQueued x then 1 else 0

/-- A request in the queue is one of those that wait. -/
theorem Slot.isQueued_iff : s.isQueued id = true ↔ id ∈ s.waiters.map Waiter.id := by
  simp [isQueued]

/-- A gate shows the same without a request that stands aside. -/
theorem Aside.sameBut (h : g.Aside x) : SameBut x g (g.without x) := by
  have horder : (g.without x).slot.waiters.map Waiter.id =
      ((g.slot.waiters.map Waiter.id).filter (· ≠ x)).map (renumber x) :=
    map_leaveOut (fun w => (rfl : (Waiter.renumber x w).id = renumber x w.id)) g.slot.waiters
  refine ⟨rfl, rfl, horder, rfl, ?_, ?_⟩
  · have hothers : ∀ t ∈ g.tickets, decide (t.id ≠ x) = true := by
      intro t ht
      apply decide_eq_true
      intro heq
      exact h.ticket (heq ▸ List.mem_map_of_mem ht)
    simp only [without, leaveOut, List.filter_eq_self.2 hothers]
  · have hlength : (g.without x).queued = ((g.slot.waiters.map Waiter.id).erase x).length := by
      have hnodup := h.coherent.slot.nodup_waiters
      rw [queued, ← List.length_map Waiter.id, horder, List.length_map]
      apply congrArg
      rw [hnodup.erase_eq_filter]
      refine List.filter_congr fun n _ => ?_
      rw [bne, beq_eq_decide, decide_not]
    have hqueued : g.queued = (g.slot.waiters.map Waiter.id).length := by
      rw [queued, List.length_map]
    rw [hlength, hqueued]
    by_cases hmem : x ∈ g.slot.waiters.map Waiter.id
    · have hpos := List.length_pos_of_mem hmem
      rw [if_pos (Slot.isQueued_iff.2 hmem), List.length_erase_of_mem hmem]
      omega
    · rw [if_neg (mt Slot.isQueued_iff.1 hmem), List.erase_of_not_mem hmem, Nat.add_zero]

/-- An event in which a request ends names the request. -/
theorem EndsWaiting.number {stop : Event} (hends : g.EndsWaiting x stop) :
    stop.number? = some x := by
  cases hends with
  | timedOut now out => rfl
  | givenUp queued => rfl

namespace Coherent

/-- A request that ends in the queue is in hand, does not own the slot, and leaves. -/
theorem left_of_endsWaiting (h : g.Coherent) {stop : Event} (hends : g.EndsWaiting x stop) :
    x ∈ g.pending ∧ g.slot.grant ≠ some x ∧ left (stop, (g.step stop).2) = some x := by
  cases hends with
  | timedOut now out =>
      rcases h.resume_of_timedOut out with ⟨hother, ⟨w, hw, rfl, -⟩, -⟩
      refine ⟨List.mem_map_of_mem hw, hother, ?_⟩
      rw [out]
      rfl
  | givenUp queued =>
      have hwaits := Slot.isQueued_iff.1 queued
      have hpending : x ∈ g.pending := by
        cases h.owned with
        | nobody grant holders pending => simp [h.slot.idle grant] at hwaits
        | ticket owner grant holders pending => rwa [pending]
        | unseen owner grant holders pending =>
            rw [pending]
            exact List.mem_cons_of_mem _ hwaits
      refine ⟨hpending, fun hg => h.slot.grant_notMem hg hwaits, ?_⟩
      rw [Gate.step, if_pos (isPending_iff.2 hpending)]
      rfl

/-- A request that leaves without owning the slot is never granted it again. -/
theorem notMem_grants_of_left (h : g.Coherent) {stop : Event}
    (hleft : left (stop, (g.step stop).2) = some x) (hother : g.slot.grant ≠ some x)
    (after : List Event) : x ∉ g.grants (stop :: after) := by
  intro hmem
  rcases exists_of_mem_grants hmem with ⟨pre, post, hsplit, hgrant⟩
  cases pre with
  | nil => exact hother hgrant
  | cons e pre =>
      obtain rfl : stop = e := (List.cons.inj hsplit).1
      exact h.notMem_line_of_left hleft pre (Slot.mem_line_of_grant hgrant)

end Coherent

/-! ## No trace -/

/-- What a request leaves behind that asks for the gate between {lit}`before` and
{lit}`mid`, and ends before {lit}`after` without having owned the slot: nothing. -/
structure NoTrace (new : Gate) (before : List Event) (asked : Nat) (mid : List Event)
    (stop : Event) (after : List Event) (x : Nat) : Prop where
  /-- The request is never granted the slot. -/
  never : x ∉ new.grants (before ++ .acquire asked :: (mid ++ stop :: after))
  /-- It waits until it ends, -/
  waits : ∀ pre, pre <+: mid →
    (new.run (before ++ .acquire asked :: pre)).slot.isQueued x = true
  /-- and no longer. -/
  gone : ∀ pre, pre <+: after →
    (new.run (before ++ .acquire asked :: (mid ++ stop :: pre))).slot.isQueued x = false
  /-- At every step the gate is what it is in the run without the request. -/
  same : ∀ pre, pre <+: mid ++ stop :: after →
    SameBut x (new.run (before ++ .acquire asked :: pre))
      (new.run (before ++ eventsWithout x pre))
  /-- The run without the request leaves out how it ended. -/
  leftOut : stop.without? x = none
  /-- Everybody else is told the same in it. -/
  told : new.trace (before ++ eventsWithout x (mid ++ stop :: after)) =
    new.trace before ++
      toldWithout x ((new.run (before ++ [.acquire asked])).trace (mid ++ stop :: after))
  /-- The slot is granted to the same requests. -/
  granted : new.grants (before ++ eventsWithout x (mid ++ stop :: after)) =
    (new.grants (before ++ .acquire asked :: (mid ++ stop :: after))).map (renumber x)
  /-- The clock does not go back in it if it does not in the run as it was. -/
  timely : Timely (before ++ .acquire asked :: (mid ++ stop :: after)) →
    Timely (before ++ eventsWithout x (mid ++ stop :: after))

/-- The times of a run without a request are some of those of the run. -/
theorem times_eventsWithout (x : Nat) (es : List Event) :
    ((eventsWithout x es).filterMap Event.time?).Sublist (es.filterMap Event.time?) := by
  induction es with
  | nil => exact List.Sublist.refl _
  | cons e es ih =>
      by_cases he : e.number? = some x
      · rw [eventsWithout, List.filterMap_cons_none (by rw [Event.without?, if_pos he])]
        exact ih.trans ((List.sublist_cons_self e es).filterMap _)
      · have htime : (e.renumber x).time? = e.time? := by
          cases e <;> rfl
        rw [eventsWithout, List.filterMap_cons_some (by rw [Event.without?, if_neg he]),
          List.filterMap_cons, List.filterMap_cons, htime]
        cases e.time? with
        | none => exact ih
        | some t => exact ih.cons_cons t

/-- Requests that were granted the slot in a run were made by its end. -/
theorem le_issued_of_mem_grants (h : g.Coherent) {es : List Event} (hid : id ∈ g.grants es) :
    id ≤ (g.run es).slot.issued := by
  rcases exists_of_mem_grants hid with ⟨pre, post, rfl, hgrant⟩
  rw [run_append]
  have hmade := (h.run pre).slot.le_issued id (Slot.mem_line_of_grant hgrant)
  exact Nat.le_trans hmade (issued_le_run _ post)

/-- A request that times out, or is given up while it waits, leaves no trace. -/
theorem leaves_no_trace (name : String) (options : Options) (before mid after : List Event)
    (asked : Nat) (stop : Event) {x : Nat}
    (hx : (Gate.run { name, options } before).slot.nextId = x)
    (hends : EndsWaiting (Gate.run { name, options } (before ++ .acquire asked :: mid)) x stop) :
    NoTrace { name, options } before asked mid stop after x := by
  generalize hnew : ({ name, options } : Gate) = new at hx hends ⊢
  have hfresh : new.Coherent := hnew ▸ coherent_initial name options
  have hnone : new.slot.grant = none := by
    rw [← hnew]
  have hbefore : (new.run before).Coherent := hfresh.run before
  have hstop : (new.run (before ++ .acquire asked :: mid)).Coherent := hfresh.run _
  rcases hstop.left_of_endsWaiting hends with ⟨hpending, hother, hleft⟩
  have hnever : x ∉ new.grants (before ++ .acquire asked :: (mid ++ stop :: after)) := by
    rw [← List.cons_append, ← List.append_assoc, grants_append, List.mem_append, not_or]
    refine ⟨?_, hstop.notMem_grants_of_left hleft hother after⟩
    rw [hfresh.mem_grants_iff hnone hpending]
    exact hother
  -- The slot has an owner when the request is made, or the request would own it at once.
  have howned : (new.run before).slot.grant ≠ none := by
    intro hfree
    apply hnever
    rw [grants_append, grants, newGrant, step, hbefore.acquire_of_free hfree, hfree, hx]
    simp
  obtain ⟨haside, hsame⟩ := hbefore.aside_acquire howned asked
  rw [hx] at haside hsame
  have hwithout : ∀ pre, pre <+: mid ++ stop :: after →
      x ∉ ((new.run before).step (.acquire asked)).1.grants pre := by
    rintro pre ⟨post, hpost⟩ hmem
    apply hnever
    rw [grants_append, grants, ← hpost, grants_append]
    simp [hmem]
  have hrun : ∀ pre, new.run (before ++ .acquire asked :: pre) =
      ((new.run before).step (.acquire asked)).1.run pre := by
    intro pre
    rw [run_append, run_cons]
  constructor
  case never => exact hnever
  case waits =>
    rintro pre ⟨post, rfl⟩
    have hpre : pre <+: pre ++ post ++ stop :: after := by
      rw [List.append_assoc]
      exact List.prefix_append _ _
    obtain ⟨-, -, -, hstill⟩ := haside.run_without (hwithout pre hpre)
    have hline := hstop.pending_subset_line hpending
    rw [← List.cons_append, ← List.append_assoc, run_append, hrun] at hline
    have hmem := hstill.coherent.mem_line_of_run hstill.le_issued hline
    rw [hrun, Slot.isQueued_iff]
    rw [Slot.line, List.mem_append, Option.mem_toList] at hmem
    exact hmem.resolve_left hstill.grant
  case gone =>
    rintro pre -
    have hline := hstop.notMem_line_of_left hleft pre
    rw [← List.cons_append, ← List.append_assoc, run_append, run_cons, Bool.eq_false_iff]
    intro hqueued
    apply hline
    rw [Slot.line, List.mem_append]
    exact Or.inr (Slot.isQueued_iff.1 hqueued)
  case same =>
    intro pre hpre
    obtain ⟨heq, -, -, hstill⟩ := haside.run_without (hwithout pre hpre)
    rw [hsame] at heq
    rw [hrun, run_append, heq]
    exact hstill.sameBut
  case leftOut => rw [Event.without?, if_pos hends.number]
  case told =>
    obtain ⟨-, htold, -, -⟩ := haside.run_without (hwithout _ (List.prefix_refl _))
    rw [hsame] at htold
    rw [trace_append, htold, hrun, run_nil]
  case granted =>
    obtain ⟨-, -, hgrants, -⟩ := haside.run_without (hwithout _ (List.prefix_refl _))
    rw [hsame] at hgrants
    have hfirst : (new.run before).newGrant (.acquire asked) = none := by
      rw [newGrant, step, hbefore.acquire_of_grant howned, if_pos rfl]
    have hold : (new.grants before).map (renumber x) = new.grants before := by
      rw [List.map_congr_left (g := id), List.map_id]
      intro n hn
      apply renumber_of_lt
      rw [← hx]
      exact Nat.lt_succ_of_le (le_issued_of_mem_grants hfresh hn)
    rw [grants_append, grants_append, grants, hfirst, hgrants, List.map_append, hold]
    rfl
  case timely =>
    intro htimely
    rw [Timely, List.filterMap_append] at htimely ⊢
    refine htimely.sublist (List.Sublist.append_left ?_ _)
    exact (times_eventsWithout x _).trans (List.sublist_cons_self _ _)

/-- A request behind a ticket and before another request times out. -/
theorem leaves_no_trace_timedOut :
    NoTrace { name := "awards", options := {} } [.acquire 0, .lock 1] 1 [.acquire 2]
      (.resume 10001 2) [.unlock 1, .resume 10003 3] 2 :=
  leaves_no_trace "awards" {} _ _ _ 1 _ (by decide +kernel)
    (.timedOut 10001 (by decide +kernel))

example :
    eventsWithout 2 [.acquire 2, .resume 10001 2, .unlock 1, .resume 10003 3] =
      [.acquire 2, .unlock 1, .resume 10003 2] := by
  decide

end Gate
end AwardsDesk
