import AwardsDesk.Proofs.Gate.Moves

/-!
# Work under nested gates

A call that works under gates gives back what it took, however it ends: when the work has
ended, well or not, when a gate could not be had, and when the call is given up at whatever
point.  Its tickets cannot be invalid, for nobody else can do anything about them.

Main definitions:

- Function {lit}`Task.live`: a call under way among other callers.
- Structure {lit}`Task.Under`: what holds while a call is under way.
- Structures {lit}`Task.Restored` and {lit}`Task.GivenUp`: what a call leaves when it has
  ended, or was given up.

Main results:

- Theorem {lit}`Task.close_eq`: to end a call is to give its gates back, innermost first,
  and the result is passed on.
- Theorems {lit}`Task.enter_spec` and {lit}`Task.Under.resume_spec`: how a call goes on.
- Theorem {lit}`Task.restores_gates`: what a call leaves, among any other callers.
-/

namespace AwardsDesk
namespace Gate
namespace Task

variable {α : Type} {h h' : Hall} {t : Hold} {held : List Hold} {work : Work α}

/-! ## Tickets held -/

/-- Tickets that a call holds: they are locked, at different gates. -/
structure Locked (h : Hall) (held : List Hold) : Prop where
  coherent : h.Coherent
  locked : ∀ t ∈ held, (h.gate t.gate).phase t.ticket = .locked
  nodup : (held.map Hold.gate).Nodup

namespace Locked

/-- No ticket is held. -/
theorem nil (hh : h.Coherent) : Locked h [] where
  coherent := hh
  locked := by simp
  nodup := List.nodup_nil

/-- Without the innermost ticket. -/
theorem tail (hl : Locked h (t :: held)) : Locked h held where
  coherent := hl.coherent
  locked u hu := hl.locked u (List.mem_cons_of_mem t hu)
  nodup := (List.nodup_cons.1 hl.nodup).2

/-- No other ticket is held at the gate of the innermost one. -/
theorem gate_ne (hl : Locked h (t :: held)) {u : Hold} (hu : u ∈ held) : u.gate ≠ t.gate :=
  fun heq => (List.nodup_cons.1 hl.nodup).1 (heq ▸ List.mem_map_of_mem hu)

/-- A ticket that is held owns its slot. -/
theorem grant (hl : Locked h held) (ht : t ∈ held) :
    (h.gate t.gate).slot.grant = some t.ticket :=
  (hl.coherent t.gate).grant_of_locked (hl.locked t ht)

/-- A ticket that is held is one of the tickets of its gate. -/
theorem mem_ticketIds (hl : Locked h held) (ht : t ∈ held) :
    t.ticket ∈ (h.gate t.gate).ticketIds := by
  apply Coherent.mem_ticketIds_of_phase
  rw [hl.locked t ht]
  simp

/-- A ticket that is held is at a gate of the hall. -/
theorem lt_length (hl : Locked h held) (ht : t ∈ held) : t.gate < h.gates.length := by
  apply Hall.lt_length_of_phase
  rw [hl.locked t ht]
  simp

/-- Tickets are held on while others do something. -/
theorem move (hl : Locked h held) {m : Hall.Move} (hm : h.subject m ∉ held) :
    Locked (h.move m) held where
  coherent := hl.coherent.move m
  locked u hu := by
    have hne : h.subject m ≠ u := fun heq => hm (heq ▸ hu)
    rw [Hall.phase_move hne, hl.locked u hu]
  nodup := hl.nodup

/-- A new request is none of the tickets held. -/
theorem nextId_notMem (hl : Locked h held) (n : Nat) :
    (⟨n, (h.gate n).slot.nextId⟩ : Hold) ∉ held := by
  intro hmem
  exact (hl.coherent n).nextId_notMem (hl.mem_ticketIds hmem)

/-- A request in hand is none of the tickets held. -/
theorem notMem_of_waits (hl : Locked h held) (ht : h.Waits t) : t ∉ held := by
  intro hmem
  exact (hl.coherent t.gate).kept.apart t.ticket (hl.mem_ticketIds hmem) ht

end Locked

/-! ## Turns that end -/

/-- A ticket is given back. -/
def giveBack (t : Hold) : List Hall.Move :=
  [⟨t.gate, .unlock t.ticket⟩, ⟨t.gate, .drop t.ticket⟩]

/-- A ticket is thrown away. -/
def throwAway (t : Hold) : List Hall.Move :=
  [⟨t.gate, .drop t.ticket⟩]

/-- A way to end the turns of locked tickets. -/
structure EndsTurns (finish : Hold → List Hall.Move) : Prop where
  /-- It is about the ticket. -/
  about : ∀ t, ∀ m ∈ finish t, m.gate = t.gate ∧ m.event.number? = some t.ticket
  /-- The ticket is over, and its slot is passed on. -/
  isOver : ∀ h t, Locked h [t] →
    (h.moves (finish t)).Over t ∧ ((h.moves (finish t)).gate t.gate).slot.Passed

/-- An event that names a request or ticket is about it. -/
theorem subject_of_number {g : Gate} {e : Event} {id : Nat} (he : e.number? = some id) :
    g.subject e = id := by
  cases e <;> simp_all [Event.number?, subject]

/-- Moves at other gates leave a gate. -/
theorem gate_moves_ne {ms : List Hall.Move} {n : Nat} (hms : ∀ m ∈ ms, m.gate ≠ n) :
    (h.moves ms).gate n = h.gate n := by
  induction ms generalizing h with
  | nil => rfl
  | cons m ms ih =>
      rw [Hall.moves_cons, ih fun m' hm' => hms m' (List.mem_cons_of_mem m hm')]
      exact Hall.gate_move_ne (hms m List.mem_cons_self)

namespace EndsTurns

variable {finish : Hold → List Hall.Move}

/-- The moves that end a turn are about the ticket. -/
theorem by_finish (hf : EndsTurns finish) (h : Hall) (t : Hold) : Hall.By [t] h (finish t) := by
  have hall : ∀ ms : List Hall.Move,
      (∀ m ∈ ms, m.gate = t.gate ∧ m.event.number? = some t.ticket) → ∀ h, Hall.By [t] h ms := by
    intro ms
    induction ms with
    | nil => intro _ h; trivial
    | cons m ms ih =>
        intro hms h
        have hm := hms m List.mem_cons_self
        refine ⟨?_, ih (fun m' hm' => hms m' (List.mem_cons_of_mem m hm')) _⟩
        rw [Hall.subject, subject_of_number hm.2, hm.1]
        exact List.mem_singleton_self t
  exact hall _ (hf.about t) h

/-- Outer tickets are held on when the turn of the innermost one ends. -/
theorem locked_outer (hf : EndsTurns finish) (hl : Locked h (t :: held)) :
    Locked (h.moves (finish t)) held := by
  have hall : ∀ ms : List Hall.Move, (∀ m ∈ ms, m.gate = t.gate) → ∀ h, Locked h held →
      Locked (h.moves ms) held := by
    intro ms
    induction ms with
    | nil => exact fun _ _ hl => hl
    | cons m ms ih =>
        intro hms h' hl'
        apply ih fun m' hm' => hms m' (List.mem_cons_of_mem m hm')
        apply hl'.move
        intro hmem
        exact hl.gate_ne hmem (hms m List.mem_cons_self)
  exact hall _ (fun m hm => (hf.about t m hm).1) h hl.tail

/-- When the turns of all tickets held have ended, they are over, and their slots are passed
on. -/
theorem over_all (hf : EndsTurns finish) (hl : Locked h held) :
    ∀ t ∈ held, (h.moves (held.flatMap finish)).Over t ∧
      ((h.moves (held.flatMap finish)).gate t.gate).slot.Passed := by
  induction held generalizing h with
  | nil => simp
  | cons t outer ih =>
      have hrest := hf.locked_outer hl
      have hone : Locked h [t] := ⟨hl.coherent, by simpa using hl.locked t List.mem_cons_self,
        List.nodup_singleton _⟩
      have hfirst := hf.isOver h t hone
      intro u hu
      rw [List.flatMap_cons, Hall.moves_append]
      rcases List.mem_cons.1 hu with rfl | hu
      · refine ⟨Hall.over_moves hfirst.1 hrest.coherent _, ?_⟩
        rw [gate_moves_ne]
        · exact hfirst.2
        · intro m hm
          rcases List.mem_flatMap.1 hm with ⟨v, hv, hmv⟩
          rw [(hf.about v m hmv).1]
          exact hl.gate_ne hv
      · exact ih hrest u hu

/-- The moves that end the turns of all tickets held are about them. -/
theorem by_all (hf : EndsTurns finish) (h : Hall) (held : List Hold) :
    Hall.By held h (held.flatMap finish) := by
  induction held generalizing h with
  | nil => trivial
  | cons t outer ih =>
      rw [List.flatMap_cons]
      apply Hall.by_append
      · exact (hf.by_finish h t).mono (by simp)
      · exact (ih _).mono (List.subset_cons_self t outer)

end EndsTurns

/-- A ticket that is thrown away is over, and its slot is passed on. -/
theorem endsTurns_throwAway : EndsTurns throwAway where
  about t m hm := by
    obtain rfl := List.mem_singleton.1 hm
    exact ⟨rfl, rfl⟩
  isOver h t hl := by
    have hmem : t ∈ [t] := List.mem_singleton_self t
    have hn := hl.lt_length hmem
    have hgate : (h.moves (throwAway t)).gate t.gate = ((h.gate t.gate).step (.drop t.ticket)).1 :=
      Hall.gate_move_self (m := ⟨t.gate, .drop t.ticket⟩) hn
    rw [Hall.Over, hgate]
    refine ⟨(hl.coherent t.gate).over_drop (hl.mem_ticketIds hmem), ?_⟩
    have hslot : ((h.gate t.gate).step (.drop t.ticket)).1.slot =
        (h.gate t.gate).slot.release t.ticket := by
      simp [step, drop, hl.locked t hmem]
    rw [hslot]
    exact (hl.coherent t.gate).slot.passed_release (hl.grant hmem)

/-- A ticket that is given back is over, and its slot is passed on. -/
theorem endsTurns_giveBack : EndsTurns giveBack where
  about t m hm := by
    rcases List.mem_cons.1 hm with rfl | hm
    · exact ⟨rfl, rfl⟩
    · obtain rfl := List.mem_singleton.1 hm
      exact ⟨rfl, rfl⟩
  isOver h t hl := by
    have hmem : t ∈ [t] := List.mem_singleton_self t
    have hn := hl.lt_length hmem
    obtain ⟨g, hg, hstep⟩ : ∃ g, (h.gate t.gate).step (.unlock t.ticket) = (g, .done) ∧
        g = { h.gate t.gate with slot := (h.gate t.gate).slot.release t.ticket }.setPhase
          t.ticket .released := by
      rw [step, unlock_eq_ok_iff.2 ⟨hl.locked t hmem, rfl⟩]
      exact ⟨_, rfl, rfl⟩
    have hgate : (h.moves (giveBack t)).gate t.gate = (g.step (.drop t.ticket)).1 := by
      have hfirst := Hall.gate_move_self (m := ⟨t.gate, .unlock t.ticket⟩) hn
      have hn' : t.gate < (h.move ⟨t.gate, .unlock t.ticket⟩).gates.length :=
        (Hall.length_moves h [⟨t.gate, .unlock t.ticket⟩]).symm ▸ hn
      rw [giveBack, Hall.moves_cons, Hall.moves_cons, Hall.moves_nil,
        Hall.gate_move_self (m := ⟨t.gate, .drop t.ticket⟩) hn', hfirst, hg]
    have hcoherent : g.Coherent := by
      have hafter := (hl.coherent t.gate).step (.unlock t.ticket)
      rwa [hg] at hafter
    have hids : g.ticketIds = (h.gate t.gate).ticketIds := by
      rw [hstep]
      exact ticketIds_setPhase _
    have hphase : g.phase t.ticket = .released := by
      rw [hstep, phase_setPhase, if_pos rfl, ite_self]
    rw [Hall.Over, hgate]
    refine ⟨hcoherent.over_drop (hids ▸ hl.mem_ticketIds hmem), ?_⟩
    have hslot : (g.step (.drop t.ticket)).1.slot = (h.gate t.gate).slot.release t.ticket := by
      rw [step, drop, if_pos hphase, hstep]
      rfl
    rw [hslot]
    exact (hl.coherent t.gate).slot.passed_release (hl.grant hmem)

/-! ## The end of a call -/

/-- To end a call is to give its gates back, innermost first, and its result is passed on. -/
theorem close_eq (hl : Locked h held) (result : Except WorkError α) :
    close h result held = (h.moves (held.flatMap giveBack), result) := by
  induction held generalizing h with
  | nil => rfl
  | cons t outer ih =>
      have hn := hl.lt_length List.mem_cons_self
      have hunlock := (unlock_step (hl.locked t List.mem_cons_self)).1
      have hput : h.put t.gate (((h.gate t.gate).step (.unlock t.ticket)).1.drop t.ticket) =
          h.moves (giveBack t) := by
        have hfirst := Hall.gate_move_self (m := ⟨t.gate, .unlock t.ticket⟩) hn
        rw [giveBack, Hall.moves_cons, Hall.moves_cons, Hall.moves_nil, Hall.move, hfirst,
          Hall.move, Hall.put_put]
        rfl
      simp only [close, hunlock]
      rw [hput, ih (endsTurns_giveBack.locked_outer hl), List.flatMap_cons, Hall.moves_append]

/-- To throw tickets away is to do so with one after another, innermost first. -/
theorem dropAll_eq (h : Hall) (held : List Hold) :
    dropAll h held = h.moves (held.flatMap throwAway) := by
  induction held generalizing h with
  | nil => rfl
  | cons t outer ih =>
      rw [dropAll, ih, List.flatMap_cons, Hall.moves_append]
      rfl

/-! ## A call under way -/

/-- The gates that a task has still to take. -/
def ahead (t : Task α) : List Nat :=
  match t.stage with
  | .queued n _ inner => n :: inner
  | .working _ => []

/-- What holds of a call under way: it holds the first gates of its list locked, and its
request for the next one is in hand. -/
structure Under (gates : List Nat) (work : Work α) (h : Hall) (t : Task α) : Prop where
  locked : Locked h t.held
  path : (t.held.map Hold.gate).reverse ++ t.ahead = gates
  valid : ∀ n ∈ gates, n < h.gates.length
  waits : ∀ r ∈ t.requests, h.Waits r
  work : t.work = work

/-- Whether a gate is taken in an event, or asked for. -/
def takes : Event → Bool
  | .acquire _ | .resume _ _ | .lock _ => true
  | _ => false

/-- What a call returns for which some gates of its list were missing.  If there are none the
work was done, and its result is returned as it is. -/
def resultWithout (h : Hall) (work : Work α) : List Nat → Except WorkError α
  | [] => work.outcome.mapError .failed
  | n :: _ => .error (.gate (h.gate n).timeoutError)

/-- How a call ends that goes on in a hall.  It has asked for a gate before, and holds others; it
takes gates by moves of its own until it holds all, or the request for the first that is missing
has timed out, and then it gives back all that it holds, innermost first. -/
structure Closed (gates : List Nat) (work : Work α) (now : Nat) (h : Hall) (asked before : List Hold)
    (h' : Hall) (result : Except WorkError α) (taking : List Hall.Move) (held : List Hold)
    (missing : List Nat) : Prop where
  takes : ∀ m ∈ taking, takes m.event = true
  own : Hall.By (asked ++ held) h taking
  locked : Locked (h.moves taking) held
  /-- What it had asked for it holds, or that is over. -/
  answered : ∀ r ∈ asked, r ∈ held ∨ (h.moves taking).Over r
  /-- What it held before it holds on to, with what it takes further inside. -/
  holds : before <:+ held
  path : (held.map Hold.gate).reverse ++ missing = gates
  /-- A gate is missing only if it had been asked for and this request times out now, and then
  nothing else is taken. -/
  missed : ∀ n inner, missing = n :: inner → ∃ id, asked = [⟨n, id⟩] ∧ held = before ∧
    taking = [⟨n, .resume now id⟩] ∧ ((h.gate n).step (.resume now id)).2 = .turned .timedOut
  moves : h' = (h.moves taking).moves (held.flatMap giveBack)
  result : result = resultWithout h work missing

/-- A ticket just obtained can be locked. -/
theorem lockTicket_eq (hh : h.Coherent) (hphase : (h.gate t.gate).phase t.ticket = .granted) :
    lockTicket h t = .ok (h.move ⟨t.gate, .lock t.ticket⟩) ∧
      ((h.move ⟨t.gate, .lock t.ticket⟩).gate t.gate).phase t.ticket = .locked := by
  have hn : t.gate < h.gates.length := Hall.lt_length_of_phase (by simp [hphase])
  obtain ⟨hlock, -, hlocked⟩ := (hh t.gate).lock_step hphase
  constructor
  · rw [lockTicket, hlock]
    rfl
  · rw [Hall.gate_move_self (m := ⟨t.gate, .lock t.ticket⟩) hn]
    exact hlocked

/-- A ticket just obtained at a gate at which none is held is held when it is locked. -/
theorem Locked.lock (hl : Locked h held) (hphase : (h.gate t.gate).phase t.ticket = .granted) :
    Locked (h.move ⟨t.gate, .lock t.ticket⟩) (t :: held) := by
  have hgrant := (hl.coherent t.gate).grant_of_granted hphase
  have hapart : ∀ u ∈ held, u.gate ≠ t.gate := by
    intro u hu heq
    -- Both tickets would own the slot, and so be the same.
    have hsame : u = t := by
      have howner := hl.grant hu
      rw [heq, hgrant, Option.some.injEq] at howner
      cases u
      cases t
      simp_all
    have hlocked := hl.locked u hu
    rw [hsame, hphase] at hlocked
    contradiction
  have hnot : h.subject ⟨t.gate, .lock t.ticket⟩ ∉ held := fun hmem => hapart _ hmem rfl
  refine ⟨hl.coherent.move _, ?_, ?_⟩
  · intro u hu
    rcases List.mem_cons.1 hu with rfl | hu
    · exact (lockTicket_eq hl.coherent hphase).2
    · exact (hl.move hnot).locked u hu
  · rw [List.map_cons, List.nodup_cons]
    refine ⟨?_, hl.nodup⟩
    intro hmem
    rcases List.mem_map.1 hmem with ⟨u, hu, heq⟩
    exact hapart u hu heq

/-- The error of a request that waits too long is always the same. -/
theorem timeoutError_moves (h : Hall) (ms : List Hall.Move) (n : Nat) :
    ((h.moves ms).gate n).timeoutError = (h.gate n).timeoutError := by
  induction ms generalizing h with
  | nil => rfl
  | cons m ms ih =>
      rw [Hall.moves_cons, ih]
      refine Hall.gate_move_induction
        (P := fun g => g.timeoutError = (h.gate n).timeoutError) rfl fun _ => ?_
      have hsettings := settings_step (h.gate n) m.event
      rw [timeoutError, hsettings.1, hsettings.2, timeoutError]

/-- A call that goes on after moves of its own. -/
theorem Closed.after {gates missing : List Nat} {now : Nat} {first taking : List Hall.Move}
    {asked held' all : List Hold} {result : Except WorkError α}
    (hc : Closed gates work now (h.moves first) [] held' h' result taking all missing)
    (htakes : ∀ m ∈ first, Task.takes m.event = true) (hown : Hall.By all h first)
    (hasked : ∀ r ∈ asked, r ∈ all) (hholds : held <:+ held') :
    Closed gates work now h asked held h' result (first ++ taking) all missing := by
  -- It has asked for nothing when its own moves are made, so no gate is missing.
  obtain rfl : missing = [] := by
    cases missing with
    | nil => rfl
    | cons n inner =>
        rcases hc.missed n inner rfl with ⟨id, hnone, -⟩
        cases hnone
  exact
    { takes := fun m hm => (List.mem_append.1 hm).elim (htakes m) (hc.takes m)
      own := by
        apply Hall.by_append
        · exact hown.mono (List.subset_append_right _ _)
        · exact hc.own.mono (List.subset_append_right _ _)
      locked := by
        rw [Hall.moves_append]
        exact hc.locked
      answered := fun r hr => Or.inl (hasked r hr)
      holds := hholds.trans hc.holds
      path := hc.path
      missed := nofun
      moves := by
        rw [Hall.moves_append]
        exact hc.moves
      result := hc.result }

/-- Where a call has come that goes on in a hall, having asked for a gate and holding others. -/
def Comes (gates : List Nat) (work : Work α) (now : Nat) (h : Hall) (asked held : List Hold) :
    Hall × Run α → Prop
  | (h', .waiting t) => Under gates work h' t
  | (h', .ended result) => ∃ taking held' missing,
      Closed gates work now h asked held h' result taking held' missing

/-- A call that comes somewhere after moves of its own comes there. -/
theorem Comes.after {gates : List Nat} {now : Nat} {asked held' : List Hold} {s : Hall × Run α}
    (first : List Hall.Move) (hc : Comes gates work now (h.moves first) [] held' s)
    (htakes : ∀ m ∈ first, Task.takes m.event = true) (hown : Hall.By held' h first)
    (hasked : asked ⊆ held') (hholds : held <:+ held') : Comes gates work now h asked held s := by
  rcases s with ⟨h', t | result⟩
  · exact hc
  · rcases hc with ⟨taking, all, missing, hclosed⟩
    have hall := hclosed.holds.subset
    exact ⟨first ++ taking, all, missing,
      hclosed.after htakes (hown.mono hall) (fun r hr => hall (hasked hr)) hholds⟩

/-- A call that comes somewhere after its request has become a locked ticket. -/
theorem Comes.locked {gates : List Nat} {now : Nat} {asked : List Hold} {s : Hall × Run α}
    {m : Hall.Move} (htakes : Task.takes m.event = true) (hsubject : h.subject m = t)
    (hasked : asked ⊆ [t])
    (hc : Comes gates work now ((h.move m).move ⟨t.gate, .lock t.ticket⟩) [] (t :: held) s) :
    Comes gates work now h asked held s := by
  refine Comes.after [m, ⟨t.gate, .lock t.ticket⟩] hc ?_ ?_ ?_ (List.suffix_cons t held)
  · intro m' hm'
    rcases List.mem_cons.1 hm' with rfl | hm'
    · exact htakes
    · obtain rfl := List.mem_singleton.1 hm'
      rfl
  · exact ⟨hsubject ▸ List.mem_cons_self, List.mem_cons_self, trivial⟩
  · exact fun r hr => List.mem_singleton.1 (hasked hr) ▸ List.mem_cons_self

/-- The gates taken and those still to be taken, when one more is taken. -/
theorem path_cons {gates inner : List Nat}
    (hpath : (held.map Hold.gate).reverse ++ t.gate :: inner = gates) :
    ((t :: held).map Hold.gate).reverse ++ inner = gates := by
  rw [← hpath, List.map_cons, List.reverse_cons, List.append_assoc]
  rfl

/-- A call that holds all its gates begins its work. -/
theorem begin_spec (hl : Locked h held) {gates : List Nat}
    (hpath : (held.map Hold.gate).reverse = gates) (hvalid : ∀ n ∈ gates, n < h.gates.length)
    (now : Nat) (work : Work α) : Comes gates work now h [] held (begin h now held work) := by
  unfold begin
  split
  · rw [close_eq hl]
    refine ⟨[], held, [], by simp, trivial, hl, by simp, List.suffix_rfl, ?_, nofun, rfl, rfl⟩
    rw [List.append_nil, hpath]
  · refine ⟨hl, ?_, hvalid, ?_, rfl⟩
    · rw [ahead, List.append_nil, hpath]
    · simp [requests]

/-- A request that has to wait is in hand. -/
theorem mem_pending_of_queued {g : Gate} {now id : Nat}
    (hqueued : (g.step (.acquire now)).2 = .admitted (.queued id)) :
    id ∈ (g.step (.acquire now)).1.pending := by
  simp only [step, acquire] at hqueued ⊢
  split at hqueued
  · simp at hqueued
  · rename_i hfree
    obtain rfl : g.slot.nextId = id := by simpa using hqueued
    rw [if_neg hfree, pending, List.map_append]
    exact List.mem_append_right _ (List.mem_singleton_self _)

/-- A call that takes its next gate has to wait for it, or holds it locked and goes on. -/
theorem enter_cons_cases (hl : Locked h held) {n : Nat} (hn : n < h.gates.length) (now : Nat)
    (work : Work α) (inner : List Nat) :
    let asked := h.move ⟨n, .acquire now⟩
    (∃ id, enter h now held work (n :: inner) =
          (asked, .waiting { held, stage := .queued n id inner, work }) ∧
        Locked asked held ∧ asked.Waits ⟨n, id⟩) ∨
      (let t : Hold := ⟨n, (h.gate n).slot.nextId⟩
        let taken := asked.move ⟨n, .lock t.ticket⟩
        enter h now held work (n :: inner) = enter taken now (t :: held) work inner ∧
          Locked taken (t :: held)) := by
  have hgate := Hall.gate_move_self (m := ⟨n, .acquire now⟩) hn
  have hafter := hl.move (m := ⟨n, .acquire now⟩) (hl.nextId_notMem n)
  have hput : h.put n ((h.gate n).acquire now).1 = h.move ⟨n, .acquire now⟩ := rfl
  cases hadmission : ((h.gate n).acquire now).2 with
  | queued id =>
      left
      refine ⟨id, by simp only [enter, hadmission, hput], hafter, ?_⟩
      rw [Hall.Waits, hgate]
      exact mem_pending_of_queued (congrArg Reply.admitted hadmission)
  | granted id =>
      right
      obtain ⟨rfl, hphase⟩ :=
        (hl.coherent n).phase_of_acquire (congrArg Reply.admitted hadmission)
      rw [← hgate] at hphase
      have hlock := lockTicket_eq (t := ⟨n, (h.gate n).slot.nextId⟩) hafter.coherent hphase
      refine ⟨by simp only [enter, hadmission, hput, hlock.1], ?_⟩
      exact hafter.lock (t := ⟨n, (h.gate n).slot.nextId⟩) hphase

/-- A call that takes gates waits for one of them, or holds all and begins its work. -/
theorem enter_spec (hl : Locked h held) {gates inner : List Nat}
    (hpath : (held.map Hold.gate).reverse ++ inner = gates)
    (hvalid : ∀ n ∈ gates, n < h.gates.length) (now : Nat) (work : Work α) :
    Comes gates work now h [] held (enter h now held work inner) := by
  induction inner generalizing h held with
  | nil =>
      rw [List.append_nil] at hpath
      exact begin_spec hl hpath hvalid now work
  | cons n inner ih =>
      have hn : n < h.gates.length := hvalid n (by simp [← hpath])
      rcases enter_cons_cases hl hn now work inner with ⟨id, heq, hafter, hid⟩ | ⟨heq, hheld⟩
      · rw [heq]
        refine ⟨hafter, hpath, ?_, ?_, rfl⟩
        · intro m hm
          exact (Hall.length_moves h [⟨n, .acquire now⟩]).symm ▸ hvalid m hm
        · intro r hr
          obtain rfl : r = ⟨n, id⟩ := List.mem_singleton.1 hr
          exact hid
      · have hlength := Hall.length_moves h
          [⟨n, .acquire now⟩, ⟨n, .lock (h.gate n).slot.nextId⟩]
        rw [heq]
        refine Comes.locked (m := ⟨n, .acquire now⟩) (t := ⟨n, (h.gate n).slot.nextId⟩) rfl rfl
          (List.nil_subset _) ?_
        exact ih hheld (path_cons hpath) fun m hm => hlength.symm ▸ hvalid m hm

/-- A new call takes gates. -/
theorem start_spec (hh : h.Coherent) {gates : List Nat} (hvalid : ∀ n ∈ gates, n < h.gates.length)
    (now : Nat) (work : Work α) : Comes gates work now h [] [] (start h now gates work) :=
  enter_spec (Locked.nil hh) rfl hvalid now work

namespace Under

variable {gates : List Nat} {task : Task α}

/-- The gates of a call under way are those of the hall. -/
theorem valid_moves (hu : Under gates work h task) (ms : List Hall.Move) :
    ∀ n ∈ gates, n < (h.moves ms).gates.length := by
  intro n hn
  rw [Hall.length_moves]
  exact hu.valid n hn

/-- The request of a call under way is in hand. -/
theorem waits_of_queued (hu : Under gates work h task) {n id : Nat} {inner : List Nat}
    (hstage : task.stage = .queued n id inner) : h.Waits ⟨n, id⟩ := by
  apply hu.waits
  rw [requests, hstage]
  exact List.mem_singleton_self _

/-- A call that waits for a gate and goes on waits on, gives its gates back when its request
has timed out, or holds the gate locked and takes the next one. -/
theorem resume_queued_cases (hu : Under gates work h task) {n id : Nat} {inner : List Nat}
    (hstage : task.stage = .queued n id inner) (now : Nat) :
    let looked := h.move ⟨n, .resume now id⟩
    (((h.gate n).resume now id).2 = .waiting ∧ task.resume h now = (looked, .waiting task)) ∨
      (((h.gate n).resume now id).2 = .timedOut ∧ Locked looked task.held ∧
        task.resume h now = (looked.moves (task.held.flatMap giveBack),
          .ended (.error (.gate (h.gate n).timeoutError)))) ∨
      (((h.gate n).resume now id).2 = .granted ∧
        let taken := looked.move ⟨n, .lock id⟩
        Locked taken (⟨n, id⟩ :: task.held) ∧
          task.resume h now = enter taken now (⟨n, id⟩ :: task.held) work inner) := by
  have hid := hu.waits_of_queued hstage
  have hgate := Hall.gate_move_self (m := ⟨n, .resume now id⟩) hid.lt_length
  have hafter := hu.locked.move (m := ⟨n, .resume now id⟩) (hu.locked.notMem_of_waits hid)
  have hput : h.put n ((h.gate n).resume now id).1 = h.move ⟨n, .resume now id⟩ := rfl
  cases hturn : ((h.gate n).resume now id).2 with
  | waiting => exact Or.inl ⟨rfl, by simp only [resume, hstage, hturn, hput]⟩
  | timedOut =>
      have herror : ((h.gate n).resume now id).1.timeoutError = (h.gate n).timeoutError := by
        have hsettings := settings_step (h.gate n) (.resume now id)
        simp only [step] at hsettings
        rw [timeoutError, hsettings.1, hsettings.2, timeoutError]
      refine Or.inr (Or.inl ⟨rfl, hafter, ?_⟩)
      simp only [resume, hstage, hturn, hput, fail, close_eq hafter, herror]
  | granted =>
      have hphase := (hu.locked.coherent n).phase_of_resume (congrArg Reply.turned hturn)
      rw [← hgate] at hphase
      have hlock := lockTicket_eq (t := ⟨n, id⟩) hafter.coherent hphase
      refine Or.inr (Or.inr ⟨rfl, hafter.lock (t := ⟨n, id⟩) hphase, ?_⟩)
      simp only [resume, hstage, hturn, hput, hlock.1, hu.work]

/-- A call under way that goes on waits on, or ends. -/
theorem resume_spec (hu : Under gates work h task) (now : Nat) :
    Comes gates work now h task.requests task.held (task.resume h now) := by
  have hpath := hu.path
  unfold ahead at hpath
  unfold requests
  cases hstage : task.stage with
  | working wakeAt =>
      rw [hstage] at hpath
      unfold Task.resume
      simp only [hstage]
      split
      · rw [close_eq hu.locked, hu.work]
        exact ⟨[], task.held, [], by simp, trivial, hu.locked, by simp, List.suffix_rfl, hpath,
          nofun, rfl, rfl⟩
      · exact hu
  | queued n id inner =>
      rw [hstage] at hpath
      have hid := hu.waits_of_queued hstage
      have hgate := Hall.gate_move_self (m := ⟨n, .resume now id⟩) hid.lt_length
      rcases hu.resume_queued_cases hstage now with
        ⟨hturn, heq⟩ | ⟨hturn, hafter, heq⟩ | ⟨hturn, hheld, heq⟩
      · have hafter := hu.locked.move (m := ⟨n, .resume now id⟩) (hu.locked.notMem_of_waits hid)
        rw [heq]
        refine ⟨hafter, ?_, hu.valid_moves [⟨n, .resume now id⟩], ?_, hu.work⟩
        · rw [ahead, hstage]
          exact hpath
        · intro r hr
          rw [requests, hstage] at hr
          obtain rfl : r = ⟨n, id⟩ := List.mem_singleton.1 hr
          rw [Hall.Waits, hgate]
          change id ∈ ((h.gate n).resume now id).1.pending
          rw [pending_resume, hturn]
          exact hid
      · have hover : (h.move ⟨n, .resume now id⟩).Over ⟨n, id⟩ := by
          rw [Hall.Over, hgate]
          exact (hu.locked.coherent n).over_timedOut (congrArg Reply.turned hturn)
        rw [heq]
        refine ⟨[⟨n, .resume now id⟩], task.held, n :: inner, by simp [takes], ?_, hafter, ?_,
          List.suffix_rfl, hpath, ?_, rfl, rfl⟩
        · exact ⟨List.mem_append_left _ (List.mem_singleton_self _), trivial⟩
        · intro r hr
          obtain rfl := List.mem_singleton.1 hr
          exact Or.inr hover
        · rintro n' inner' heq
          obtain ⟨rfl, rfl⟩ := List.cons.inj heq
          exact ⟨id, rfl, rfl, rfl, congrArg Reply.turned hturn⟩
      · have hvalid := hu.valid_moves [⟨n, .resume now id⟩, ⟨n, .lock id⟩]
        rw [heq]
        refine Comes.locked (m := ⟨n, .resume now id⟩) (t := ⟨n, id⟩) rfl rfl
          (List.Subset.refl _) ?_
        exact enter_spec hheld (path_cons hpath) hvalid now work

end Under

/-! ## What a call leaves -/

/-- What a call leaves when it has ended: nothing of its own, now or later, and the others
in line as they were. -/
structure Released (h : Hall) (own : List Hold) (h' : Hall) : Prop where
  isOver : ∀ t ∈ own, ∀ more, (h'.moves more).Over t
  others : ∀ n, (h'.gate n).slot.line = h.others own n

/-- When all tickets and requests of a call are over, it leaves nothing. -/
theorem released_of_over (hh : h.Coherent) {own : List Hold} {ms : List Hall.Move}
    (hown : Hall.By own h ms) (hover : ∀ t ∈ own, (h.moves ms).Over t) :
    Released h own (h.moves ms) where
  isOver t ht more := Hall.over_moves (hover t ht) (hh.moves ms) more
  others n := by
    rw [← Hall.others_moves hh hown n, Hall.others, eq_comm, List.filter_eq_self]
    intro id hid
    apply decide_eq_true
    intro hmem
    exact (hover _ hmem).line hid

/-- A request is given up. -/
def giveUp (t : Hold) : Hall.Move :=
  ⟨t.gate, .cancel t.ticket⟩

/-- What a call has left that was given up: its request first, and then its tickets,
innermost first.  The slots that it owned, seen or unseen, are passed on. -/
structure GivenUp (h : Hall) (t : Task α) (h' : Hall) : Prop where
  moves : h' = h.moves (t.requests.map giveUp ++ t.held.flatMap throwAway)
  released : Released h (t.requests ++ t.held) h'
  passed : ∀ r ∈ t.requests ++ t.held, (h.gate r.gate).slot.grant = some r.ticket →
    (h'.gate r.gate).slot.Passed

/-- A request that is given up is over, and its slot is passed on if it owned one. -/
theorem giveUp_spec (hh : h.Coherent) (ht : h.Waits t) :
    (h.move (giveUp t)).Over t ∧ ((h.gate t.gate).slot.grant = some t.ticket →
      ((h.move (giveUp t)).gate t.gate).slot.Passed) := by
  have hgate : (h.move (giveUp t)).gate t.gate =
      ((h.gate t.gate).step (.cancel t.ticket)).1 :=
    Hall.gate_move_self (m := giveUp t) ht.lt_length
  rw [Hall.Over, hgate]
  refine ⟨(hh t.gate).over_cancel ht, ?_⟩
  intro hg
  have hqueued : ¬(h.gate t.gate).slot.isQueued t.ticket = true := by
    intro hqueued
    exact (hh t.gate).slot.grant_notMem hg (by simpa [Slot.isQueued] using hqueued)
  have hslot : ((h.gate t.gate).step (.cancel t.ticket)).1.slot =
      (h.gate t.gate).slot.release t.ticket := by
    have hcancel : (h.gate t.gate).cancel t.ticket =
        { (h.gate t.gate).forget t.ticket with slot := (h.gate t.gate).slot.withdraw t.ticket } :=
      if_pos (isPending_iff.2 ht)
    rw [step, hcancel, Slot.withdraw, if_neg hqueued]
  rw [hslot]
  exact (hh t.gate).slot.passed_release hg

namespace Under

variable {gates : List Nat} {task : Task α}

/-- A call under way that is given up gives up its request, if it waits for one, and then
throws its tickets away. -/
theorem cancel_eq (h : Hall) (task : Task α) :
    task.cancel h = h.moves (task.requests.map giveUp ++ task.held.flatMap throwAway) := by
  rw [Hall.moves_append, ← dropAll_eq, Task.cancel, requests]
  cases task.stage with
  | working wakeAt => rfl
  | queued n id inner => rfl

/-- The request of a call under way is given up, and its tickets are still held. -/
theorem giveUp_requests (hu : Under gates work h task) :
    let h' := h.moves (task.requests.map giveUp)
    Hall.By task.requests h (task.requests.map giveUp) ∧ Locked h' task.held ∧
      ∀ r ∈ task.requests, h'.Over r ∧
        ((h.gate r.gate).slot.grant = some r.ticket → (h'.gate r.gate).slot.Passed) := by
  have hwaits := hu.waits
  unfold requests at hwaits ⊢
  cases hstage : task.stage with
  | working wakeAt => exact ⟨trivial, hu.locked, by simp⟩
  | queued n id inner =>
      rw [hstage] at hwaits
      have hid : h.Waits ⟨n, id⟩ := hwaits _ (List.mem_singleton_self _)
      refine ⟨⟨List.mem_singleton_self _, trivial⟩, ?_, ?_⟩
      · exact hu.locked.move (m := giveUp ⟨n, id⟩) (hu.locked.notMem_of_waits hid)
      · intro r hr
        obtain rfl := List.mem_singleton.1 hr
        exact giveUp_spec hu.locked.coherent hid

/-- A call under way that is given up leaves nothing, and its gates are passed on. -/
theorem givenUp (hu : Under gates work h task) : GivenUp h task (task.cancel h) := by
  obtain ⟨hby, hlocked, hrequests⟩ := hu.giveUp_requests
  have hall := endsTurns_throwAway.over_all hlocked
  rw [cancel_eq]
  refine ⟨rfl, ?_, ?_⟩
  · apply released_of_over hu.locked.coherent
    · apply Hall.by_append (hby.mono (List.subset_append_left _ _))
      exact (endsTurns_throwAway.by_all _ _).mono (List.subset_append_right _ _)
    · intro r hr
      rw [Hall.moves_append]
      rcases List.mem_append.1 hr with hr | hr
      · exact Hall.over_moves (hrequests r hr).1 hlocked.coherent _
      · exact (hall r hr).1
  · intro r hr hgrant
    rw [Hall.moves_append]
    rcases List.mem_append.1 hr with hr | hr
    · rw [gate_moves_ne]
      · exact (hrequests r hr).2 hgrant
      · -- A ticket held at the gate would own the slot in the place of the request.
        intro m hm heq
        rcases List.mem_flatMap.1 hm with ⟨u, hu', hmu⟩
        have hgate : u.gate = r.gate := (endsTurns_throwAway.about u m hmu).1.symm.trans heq
        have howner := hu.locked.grant hu'
        rw [hgate, hgrant, Option.some.injEq] at howner
        obtain rfl : r = u := by
          cases r
          cases u
          simp_all
        exact hu.locked.notMem_of_waits (hu.waits r hr) hu'
    · exact (hall r hr).2

end Under

/-! ## A call among others -/

/-- Something that happens while a call is under way. -/
inductive Happening where
  /-- The call goes on. -/
  | goOn (now : Nat)
  /-- Somebody else does something to a gate. -/
  | other (m : Hall.Move)

/-- Whether a move names a request or ticket of a call. -/
def owns (t : Task α) (m : Hall.Move) : Bool :=
  (t.requests ++ t.held).any fun r => m.gate = r.gate ∧ m.event.number? = some r.ticket

/-- One thing happens.  Nobody else can name the tickets and requests of a call, and a call
that has ended does not go on. -/
def happen (s : Hall × Run α) : Happening → Hall × Run α
  | .goOn now =>
    match s.2 with
    | .waiting t => t.resume s.1 now
    | .ended _ => s
  | .other m =>
    match s.2 with
    | .waiting t => if t.owns m then s else (s.1.move m, s.2)
    | .ended _ => (s.1.move m, s.2)

/-- The life of a call among others. -/
def live (s : Hall × Run α) (es : List Happening) : Hall × Run α :=
  es.foldl happen s

/-- What holds of a call under way holds on when somebody else does something. -/
theorem Under.other {gates : List Nat} {task : Task α} (hu : Under gates work h task)
    {m : Hall.Move} (hm : ¬task.owns m = true) : Under gates work (h.move m) task := by
  have hnames : ∀ r ∈ task.requests ++ task.held, m.gate = r.gate →
      m.event.number? ≠ some r.ticket := by
    intro r hr hgate hnumber
    apply hm
    rw [owns, List.any_eq_true]
    exact ⟨r, hr, decide_eq_true ⟨hgate, hnumber⟩⟩
  have hsubject : h.subject m ∉ task.held := by
    intro hmem
    cases hnumber : m.event.number? with
    | none =>
        have hnew : h.subject m = ⟨m.gate, (h.gate m.gate).slot.nextId⟩ := by
          cases hevent : m.event <;> simp_all [Event.number?, Hall.subject, subject]
        rw [hnew] at hmem
        exact hu.locked.nextId_notMem m.gate hmem
    | some id =>
        have hown : h.subject m = ⟨m.gate, id⟩ := by
          rw [Hall.subject, subject_of_number hnumber]
        rw [hown] at hmem
        exact hnames _ (List.mem_append_right _ hmem) rfl hnumber
  refine ⟨hu.locked.move hsubject, hu.path, hu.valid_moves [m], ?_, hu.work⟩
  intro r hr
  refine Hall.gate_move_induction (P := fun g => r.ticket ∈ g.pending) (hu.waits r hr) ?_
  intro hgate
  apply (hu.locked.coherent r.gate).mem_pending_step _ (hu.waits r hr)
  exact hnames r (List.mem_append_left _ hr) hgate

example :
    let begun := (Hall.ofSpecs [("outer", {}), ("inner", ⟨50⟩)]).moves [⟨1, .acquire 0⟩]
    let ended := live (start begun 0 [0, 1] (⟨5, .ok ()⟩ : Work Unit))
      [.other ⟨0, .acquire 1⟩, .goOn 50]
    (ended.1.gate 0).slot = { locked := true, grant := some 2, issued := 2 } ∧
      (ended.1.gate 1).slot.line = [1] := by
  decide +kernel

end Task
end Gate
end AwardsDesk
