import AwardsDesk.Proofs.Gate.Halls

/-!
# Moves in a hall

What callers do to the gates of a hall, one move after another, at whatever gate.  What a
call does to its own tickets and requests leaves the line of all others, and a request that
is over stays so.

Main definitions:

- Structure {lit}`Hall.Move` and function {lit}`Hall.moves`: events at the gates of a hall.
- Definition {lit}`Hall.By`: moves that are all about given tickets and requests.
- Structure {lit}`Gate.Over`: a request that has come to its end.

Main results:

- Theorem {lit}`Hall.others_moves`: moves about some leave the line of the others.
- Theorem {lit}`Hall.over_moves`: a request that is over stays so.
- Theorem {lit}`Slot.Ordered.passed_release`: a slot that is given back goes to the first in
  line.
-/

namespace AwardsDesk
namespace Gate

variable {g : Gate} {s : Slot} {id n : Nat}

/-! ## Requests that are over -/

/-- An event in which a request is made is about it. -/
theorem subject_of_joined {e : Event} (h : joined (e, (g.step e).2) = some id) :
    g.subject e = id := by
  cases e with
  | acquire now => exact (eq_nextId_of_joined h).1.symm
  | resume now n => simp [joined] at h
  | cancel n => simp [joined] at h
  | lock n => simp [joined] at h
  | unlock n => simp [joined] at h
  | drop n => simp [joined] at h

/-- An event in which a request ends is about it. -/
theorem subject_of_left {e : Event} {r : Reply} (h : left (e, r) = some id) :
    g.subject e = id := by
  unfold left at h
  split at h <;> simp_all [subject]

/-- A request that was made, and is not in the line and has no ticket any more. -/
structure Over (g : Gate) (id : Nat) : Prop where
  made : id ≤ g.slot.issued
  line : id ∉ g.slot.line
  ticket : id ∉ g.ticketIds

namespace Over

/-- A request that is over stays so. -/
theorem step (h : g.Over id) (hg : g.Coherent) (e : Event) : (g.step e).1.Over id := by
  have hmade : id ≤ (g.step e).1.slot.issued := Nat.le_trans h.made (issued_le_step g e)
  have hline : id ∉ (g.step e).1.slot.line := by
    intro hmem
    rcases hg.mem_line_of_step hmem with hold | hlate
    · exact h.line hold
    · exact absurd h.made (Nat.not_le_of_lt hlate)
  refine ⟨hmade, hline, ?_⟩
  intro hmem
  rcases mem_ticketIds_step hmem with hold | hgrant
  · exact h.ticket hold
  · exact hline (Slot.mem_line_of_grant hgrant)

end Over

namespace Coherent

/-- A request that has ended and has no ticket is over. -/
theorem over_of_left (h : g.Coherent) {e : Event} (hleft : left (e, (g.step e).2) = some id)
    (hticket : id ∉ (g.step e).1.ticketIds) : (g.step e).1.Over id where
  made := Nat.le_trans (h.le_issued_of_left hleft) (issued_le_step g e)
  line := h.notMem_line_of_left hleft []
  ticket := hticket

/-- A ticket that is thrown away is over. -/
theorem over_drop (h : g.Coherent) (hid : id ∈ g.ticketIds) : (g.step (.drop id)).1.Over id := by
  apply h.over_of_left
  · rw [Gate.step, if_pos (hasTicket_iff.2 hid)]
    rfl
  · intro hmem
    have herase : (g.step (.drop id)).1.ticketIds = g.ticketIds.erase id :=
      map_eraseP_key Ticket.id g.tickets id
    rw [herase] at hmem
    exact h.kept.nodup.not_mem_erase hmem

/-- A request that is given up is over. -/
theorem over_cancel (h : g.Coherent) (hid : id ∈ g.pending) :
    (g.step (.cancel id)).1.Over id := by
  apply h.over_of_left
  · rw [Gate.step, if_pos (isPending_iff.2 hid)]
    rfl
  · intro hmem
    have htickets : (g.step (.cancel id)).1.ticketIds = g.ticketIds := by
      simp only [Gate.step, Gate.cancel]
      split <;> rfl
    rw [htickets] at hmem
    exact h.kept.apart id hmem hid

/-- A request that times out is over. -/
theorem over_timedOut (h : g.Coherent) {now : Nat}
    (hout : (g.step (.resume now id)).2 = .turned .timedOut) :
    (g.step (.resume now id)).1.Over id := by
  rcases h.resume_of_timedOut hout with ⟨-, ⟨w, hw, rfl, -⟩, heq⟩
  apply h.over_of_left
  · rw [hout]
    rfl
  · intro hmem
    rw [heq] at hmem
    exact h.kept.apart w.id hmem (List.mem_map_of_mem hw)

/-- A request in hand stays in hand as long as it is not named. -/
theorem mem_pending_step (h : g.Coherent) {e : Event} (he : e.number? ≠ some id)
    (hid : id ∈ g.pending) : id ∈ (g.step e).1.pending := by
  have herase : ∀ m, m ≠ id → id ∈ (g.forget m).pending := by
    intro m hne
    rw [pending_forget, h.nodup_pending.mem_erase_iff]
    exact ⟨hne.symm, hid⟩
  cases e with
  | acquire now =>
      simp only [Gate.step, Gate.acquire]
      split
      · exact hid
      · rw [Gate.pending, List.map_append]
        exact List.mem_append_left _ hid
  | resume now m =>
      have hne : m ≠ id := by simpa [Event.number?] using he
      simp only [Gate.step]
      rcases resume_cases g now m with heq | ⟨-, -, heq⟩ | ⟨-, -, heq⟩
      · rw [heq]
        exact hid
      · rw [heq]
        exact herase m hne
      · rw [heq]
        exact herase m hne
  | cancel m =>
      have hne : m ≠ id := by simpa [Event.number?] using he
      rw [Gate.step, pending_cancel, h.nodup_pending.mem_erase_iff]
      exact ⟨hne.symm, hid⟩
  | lock m =>
      rcases step_lock_cases g m with ⟨e, heq⟩ | ⟨-, -, heq⟩ <;>
        exact heq ▸ hid
  | unlock m =>
      rcases step_unlock_cases g m with ⟨e, heq⟩ | ⟨-, heq⟩ <;>
        exact heq ▸ hid
  | drop m => exact hid

end Coherent

/-! ## Slots that are passed on -/

/-- The slot is with the first in line and shows that, or it is free. -/
structure Slot.Passed (s : Slot) : Prop where
  grant : s.grant = s.line.head?
  locked : s.locked = !s.line.isEmpty

/-- A slot that its owner gives back goes to the first in line. -/
theorem Slot.Ordered.passed_release (h : s.Ordered) (hg : s.grant = some id) :
    (s.release id).Passed := by
  rw [h.release_eq hg]
  cases hw : s.waiters with
  | nil => exact ⟨by simp [line], by simp [line]⟩
  | cons w rest => exact ⟨by simp [line], by simp [line]⟩

/-! ## Moves -/

namespace Hall

/-- Something that a caller does to one of the gates. -/
structure Move where
  gate : Nat
  event : Event
deriving DecidableEq, Repr

/-- A caller does something. -/
def move (h : Hall) (m : Move) : Hall :=
  h.put m.gate ((h.gate m.gate).step m.event).1

/-- Callers do one thing after another. -/
def moves (h : Hall) (ms : List Move) : Hall :=
  ms.foldl move h

variable {h : Hall} {m : Move} {t : Hold}

/-- Moves from one on. -/
@[simp]
theorem moves_cons (h : Hall) (m : Move) (ms : List Move) :
    h.moves (m :: ms) = (h.move m).moves ms :=
  rfl

/-- Nothing is done. -/
@[simp]
theorem moves_nil (h : Hall) : h.moves [] = h :=
  rfl

/-- Moves go on where others ended. -/
theorem moves_append (h : Hall) (ms more : List Move) :
    h.moves (ms ++ more) = (h.moves ms).moves more :=
  List.foldl_append

/-- A gate that is put in place twice is the second one. -/
theorem put_put (h : Hall) (n : Nat) (g g' : Gate) : (h.put n g).put n g' = h.put n g' := by
  rw [put, put, put, List.set_set]

/-- Nothing is put in the place of a gate that there is not. -/
theorem put_of_length_le {n : Nat} (hn : h.gates.length ≤ n) (g : Gate) : h.put n g = h := by
  rw [put, List.set_eq_of_length_le hn]

/-- No move adds a gate or takes one away. -/
@[simp]
theorem length_moves (h : Hall) (ms : List Move) :
    (h.moves ms).gates.length = h.gates.length := by
  induction ms generalizing h with
  | nil => rfl
  | cons m ms ih =>
      rw [moves_cons, ih]
      exact List.length_set

/-- A move does to its gate what its event does. -/
theorem gate_move_self (hn : m.gate < h.gates.length) :
    (h.move m).gate m.gate = ((h.gate m.gate).step m.event).1 :=
  gate_put_self hn _

/-- A move leaves the other gates. -/
theorem gate_move_ne (hne : m.gate ≠ n) : (h.move m).gate n = h.gate n :=
  gate_put_ne hne _

/-- What every event keeps at every gate, a move keeps. -/
theorem gate_move_induction {P : Gate → Prop} (hgate : P (h.gate n))
    (hstep : m.gate = n → P ((h.gate n).step m.event).1) : P ((h.move m).gate n) := by
  by_cases heq : m.gate = n
  · subst heq
    by_cases hn : m.gate < h.gates.length
    · rw [gate_move_self hn]
      exact hstep rfl
    · rw [move, put_of_length_le (Nat.le_of_not_lt hn)]
      exact hgate
  · rw [gate_move_ne heq]
    exact hgate

/-- All gates go on agreeing with their callers. -/
theorem Coherent.move (hh : h.Coherent) (m : Move) : (h.move m).Coherent := by
  intro n
  exact gate_move_induction (hh n) fun _ => (hh n).step m.event

/-- All gates go on agreeing with their callers. -/
theorem Coherent.moves (hh : h.Coherent) (ms : List Move) : (h.moves ms).Coherent := by
  induction ms generalizing h with
  | nil => exact hh
  | cons m ms ih => exact ih (hh.move m)

/-- New gates of the given names and options. -/
def ofSpecs (specs : List (String × Options)) : Hall where
  gates := specs.map fun s => { name := s.1, options := s.2 }

/-- New gates agree with their callers. -/
theorem coherent_ofSpecs (specs : List (String × Options)) : (ofSpecs specs).Coherent := by
  intro n
  rw [gate, ofSpecs, List.getD_eq_getElem?_getD, List.getElem?_map]
  cases specs[n]? with
  | none => exact coherent_initial default default
  | some s => exact coherent_initial s.1 s.2

/-! ## Whom moves are about -/

/-- The ticket or request that a move is about. -/
def subject (h : Hall) (m : Move) : Hold :=
  ⟨m.gate, (h.gate m.gate).subject m.event⟩

/-- Moves that are all about given tickets and requests. -/
def By (own : List Hold) (h : Hall) : List Move → Prop
  | [] => True
  | m :: ms => h.subject m ∈ own ∧ By own (h.move m) ms

/-- Moves by a caller go on. -/
theorem by_append {own : List Hold} {ms more : List Move} (hms : By own h ms)
    (hmore : By own (h.moves ms) more) : By own h (ms ++ more) := by
  induction ms generalizing h with
  | nil => exact hmore
  | cons m ms ih => exact ⟨hms.1, ih hms.2 hmore⟩

/-- Moves by a caller are moves by one who has more. -/
theorem By.mono {own own' : List Hold} (hsub : own ⊆ own') {ms : List Move} (hms : By own h ms) :
    By own' h ms := by
  induction ms generalizing h with
  | nil => trivial
  | cons m ms ih => exact ⟨hsub hms.1, ih hms.2⟩

/-- Those in the line of a gate who are not among the given. -/
def others (own : List Hold) (h : Hall) (n : Nat) : List Nat :=
  (h.gate n).slot.line.filter fun id => ⟨n, id⟩ ∉ own

/-- A move leaves the line of those whom it is not about. -/
theorem others_move (hh : h.Coherent) {own : List Hold} (hm : h.subject m ∈ own) (n : Nat) :
    (h.move m).others own n = h.others own n := by
  refine gate_move_induction
    (P := fun g => (g.slot.line.filter fun id => ⟨n, id⟩ ∉ own) = h.others own n) rfl ?_
  intro heq
  have hown : ∀ id, (h.gate n).subject m.event = id → ⟨n, id⟩ ∈ own := by
    intro id hid
    rw [← hid, ← heq]
    exact hm
  rw [(hh n).line_step, others]
  cases hjoined : joined (m.event, ((h.gate n).step m.event).2) with
  | some id =>
      have hout := hown id (subject_of_joined hjoined)
      simp [List.filter_append, hout]
  | none =>
      cases hleft : left (m.event, ((h.gate n).step m.event).2) with
      | none => rfl
      | some id =>
          have hout := hown id (subject_of_left hleft)
          simp only [(hh n).slot.nodup.erase_eq_filter, List.filter_filter]
          refine List.filter_congr fun k _ => ?_
          by_cases hk : k = id
          · simp [hk, hout]
          · simp [hk]

/-- Moves about some leave the line of the others. -/
theorem others_moves (hh : h.Coherent) {own : List Hold} {ms : List Move} (hms : By own h ms)
    (n : Nat) : (h.moves ms).others own n = h.others own n := by
  induction ms generalizing h with
  | nil => rfl
  | cons m ms ih => rw [moves_cons, ih (hh.move m) hms.2, others_move hh hms.1]

/-! ## What moves leave -/

/-- A request that is over at its gate. -/
def Over (h : Hall) (t : Hold) : Prop :=
  (h.gate t.gate).Over t.ticket

/-- A request that is over stays so. -/
theorem Over.move (ht : h.Over t) (hh : h.Coherent) (m : Move) : (h.move m).Over t :=
  gate_move_induction (P := fun g => g.Over t.ticket) ht fun _ => Gate.Over.step ht (hh t.gate) _

/-- A request that is over stays so. -/
theorem over_moves (ht : h.Over t) (hh : h.Coherent) (ms : List Move) : (h.moves ms).Over t := by
  induction ms generalizing h with
  | nil => exact ht
  | cons m ms ih => exact ih (ht.move hh m) (hh.move m)

/-- A move leaves the tickets that it is not about. -/
theorem phase_move (hne : h.subject m ≠ t) :
    ((h.move m).gate t.gate).phase t.ticket = (h.gate t.gate).phase t.ticket := by
  refine gate_move_induction
    (P := fun g => g.phase t.ticket = (h.gate t.gate).phase t.ticket) rfl ?_
  intro heq
  apply phase_step
  intro hsubject
  apply hne
  rw [subject, heq, ← hsubject]

/-- A ticket that can still be used is one of a gate of the hall. -/
theorem lt_length_of_phase (ht : (h.gate t.gate).phase t.ticket ≠ .released) :
    t.gate < h.gates.length := by
  by_contra hn
  rw [gate_of_length_le (Nat.le_of_not_lt hn)] at ht
  exact ht rfl

end Hall
end Gate
end AwardsDesk
