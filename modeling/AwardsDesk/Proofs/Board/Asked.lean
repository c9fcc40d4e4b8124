import AwardsDesk.Proofs.Board.Sound

/-!
# Requests to the backend

An action asks the backend at most once, and only while it holds the gate of its board.  So
the board never has two requests under way.  An action that ends for want of the gate, of an
event, of a note or of an awardee has asked nothing, unless the backend has failed so itself.

Main definitions:

- Function {lit}`Board.asked`: the requests that are made in a run, each with the number of
  the job that makes it.
- Inductive type {lit}`Board.Barren`: the results of actions that have asked nothing.
- Structure {lit}`Board.OneCall`: what holds of the requests of a board.

Main results:

- Theorem {lit}`Board.Accounted.step`: every event accounts for the requests made so far.
- Theorem {lit}`Board.IsNew.oneCall`: a new board has at most one request under way, in every
  run.
-/

namespace AwardsDesk
namespace Board

/-! ## Requests made -/

/-- The request that is made in an event, with the number of the job that makes it. -/
def asked? (b : Board) (e : Event) : Option (Nat × Request) :=
  match (b.step e).2 with
  | some (.asking id r) => some (id, r)
  | _ => none

/-- The requests that are made in a run. -/
def asked (b : Board) : List Event → List (Nat × Request)
  | [] => []
  | e :: es => (b.asked? e).toList ++ asked (b.step e).1 es

/-- The number of the call that an event is about: the next one if an action is started, and
that of its job later. -/
def callNumber? (b : Board) : Event → Option Nat
  | .start _ _ => some b.started
  | .resume _ job | .answer job _ | .cancel job => some job
  | .outside _ => none

/-- The results of actions that have asked the backend nothing: the gate could not be had,
there was no event or no note, or there was no awardee in the cell. -/
inductive Barren : Except Error Outcome → Prop where
  | gate (e : Gate.Error) : Barren (.error (.gate e))
  | noEvent : Barren (.error .noEvent)
  | noNoteOpen : Barren (.error .noNoteOpen)
  | noStatus : Barren (.ok (.status none))
  | noNote : Barren (.ok (.note none))

variable {b b' : Board} {s : View} {id : Nat} {r : Request}

/-- The requests of a run that goes on are those of its parts. -/
theorem asked_append (b : Board) (es more : List Event) :
    b.asked (es ++ more) = b.asked es ++ (b.run es).asked more := by
  induction es generalizing b with
  | nil => rfl
  | cons e es ih => rw [List.cons_append, asked, asked, ih, run_cons, List.append_assoc]

/-- A request that is made in an event is told. -/
theorem asked?_eq_some_iff {e : Event} :
    b.asked? e = some (id, r) ↔ (b.step e).2 = some (.asking id r) := by
  unfold asked?
  split
  · rename_i id' r' hreply
    simp [hreply]
  · rename_i hnot
    constructor
    · simp
    · intro hreply
      exact absurd hreply (hnot id r)

/-- A request is under way if its job waits for the backend. -/
theorem Fits.request?_eq (h : b.Fits) {j : Job} (hj : j ∈ b.jobs) {t : Nat} {w : Await}
    (hstage : j.stage = .calling t w) : b.request? j.id = some w.request := by
  have hjob := h.job?_eq hj
  rcases j with ⟨id, action, stage⟩
  obtain rfl : stage = .calling t w := hstage
  simp [request?, hjob]

/-- The job whose request is under way waits for the backend. -/
theorem exists_of_request? (h : b.request? id = some r) :
    ∃ j ∈ b.jobs, j.id = id ∧ ∃ t w, j.stage = .calling t w ∧ w.request = r := by
  have hsome : (b.request? id).isSome := by simp [h]
  rcases job?_of_request? hsome with ⟨j, t, w, hjob, hstage⟩
  rcases mem_of_job? hjob with ⟨hmem, hid⟩
  refine ⟨j, hmem, hid, t, w, hstage, ?_⟩
  rcases j with ⟨id', action, stage⟩
  obtain rfl : stage = .calling t w := hstage
  simpa [request?, hjob] using h

/-- Two requests are never under way. -/
theorem Fits.id_eq_of_request? (h : b.Fits) {n : Nat} {r' : Request}
    (hrequest : b.request? id = some r) (hother : b.request? n = some r') : id = n := by
  rcases exists_of_request? hrequest with ⟨j, hj, rfl, t, w, hstage, -⟩
  rcases exists_of_request? hother with ⟨k, hk, rfl, t', w', hstage', -⟩
  have hgrant : b.gate.slot.grant = some k.number := by
    rw [h.ticket_eq hk hstage', Job.number, hstage']
    rfl
  exact h.id_eq_of_calling hk hgrant hj hstage

/-- An answer to no request changes nothing. -/
theorem answer_of_none (h : b.request? id = none) (respond : Responder) :
    (b.answer id respond).1 = b := by
  unfold answer
  unfold request? at h
  split
  · rename_i hjob
    simp [hjob] at h
  · rfl

/-! ## What an event does to requests -/

namespace Change

variable {reply : Option Advance} {es : List Gate.Event} {x : Option Body}

/-- A job that waits for the backend when another one has got the gate did so before. -/
theorem mem_of_enters {j k : Job} {e : Gate.Event} (henters : b.Enters b' j e) (hk : k ∈ b'.jobs)
    {t : Nat} {w : Await} (hstage : k.stage = .calling t w) : k ∈ b.jobs := by
  cases henters with
  | started now a granted early =>
      rcases List.mem_append.1 hk with hold | hnew
      · exact hold
      · rw [List.mem_singleton.1 hnew] at hstage
        simp [newJob] at hstage
  | turned now j request mem stage granted => exact hk

/-- A job that waits for the backend did so before, or has just made its request. -/
theorem of_calling (h : b.InStep s) (c : b.Change b' reply es x) {k : Job} (hk : k ∈ b'.jobs)
    {t : Nat} {w : Await} (hstage : k.stage = .calling t w) :
    k ∈ b.jobs ∨ reply = some (.asking k.id w.request) := by
  cases c with
  | idle reply es still told quiet => exact Or.inl hk
  | outside e strange => exact Or.inl hk
  | queued now a early =>
      rcases List.mem_append.1 hk with hold | hnew
      · exact Or.inl hold
      · rw [List.mem_singleton.1 hnew] at hstage
        simp [newJob] at hstage
  | gone j mem e about v reply fate => exact Or.inl (List.mem_of_mem_eraseP hk)
  | asking enters w' begins =>
      rcases enters.inStep h with ⟨hstep, hmem, -⟩
      rcases hstep.fits.mem_call hmem hk with ⟨hold, -⟩ | rfl
      · exact Or.inl (mem_of_enters enters hold hstage)
      · obtain ⟨-, rfl⟩ := Stage.calling.inj hstage
        exact Or.inr rfl
  | done enters v result begins =>
      exact Or.inl (mem_of_enters enters (List.mem_of_mem_eraseP hk) hstage)
  | answered j mem w' stage respond => exact Or.inl (List.mem_of_mem_eraseP hk)

/-- When a job makes a request no other is under way, and the job is not over. -/
theorem fresh_of_asking (h : b.InStep s) (c : b.Change b' reply es x)
    (hreply : reply = some (.asking id r)) :
    (∀ n, b.request? n = none) ∧ ¬b.IsOver id := by
  cases c with
  | idle reply es still told quiet => exact absurd hreply (quiet id r)
  | outside e strange => simp at hreply
  | queued now a early => simp at hreply
  | gone j mem e about v reply fate =>
      rcases fate with ⟨-, hgate⟩ | ⟨-, hnone⟩
      · simp [hgate] at hreply
      · simp [hnone] at hreply
  | @asking b' j e enters w begins =>
      obtain ⟨rfl, -⟩ : j.id = id ∧ w.request = r := by simpa using hreply
      constructor
      · intro n
        cases hrequest : b.request? n with
        | none => rfl
        | some r' =>
            rcases exists_of_request? hrequest with ⟨k, hk, -, t, w', hstage, -⟩
            exact (not_enters h enters hk hstage).elim
      · intro hover
        exact (hover.of_enters enters).2 j (enters.inStep h).2.1 rfl
  | done enters v result begins => simp at hreply
  | answered j mem w stage respond => simp at hreply

end Change

/-- A request stays under way when another job is over. -/
theorem request?_removeJob_ne {n : Nat} (hne : n ≠ id) :
    (b.removeJob id).request? n = b.request? n := by
  have hjob : (b.removeJob id).job? n = b.job? n := find?_eraseP_key_ne Job.id hne b.jobs
  rw [request?, hjob, request?]

namespace InStep

/-- A job that waits for the gate has made no request. -/
theorem ne_of_queued {n t : Nat} {j : Job} (hrequest : b.request? n = some r)
    (hjob : b.job? id = some j) (hstage : j.stage = .queued t) : n ≠ id := by
  rintro rfl
  rcases j with ⟨id, action, stage⟩
  obtain rfl : stage = .queued t := hstage
  simp [request?, hjob] at hrequest

/-- While a request is under way nobody gets the gate. -/
theorem not_enters_of_request? (h : b.InStep s) {n : Nat} (hrequest : b.request? n = some r)
    {j : Job} {e : Gate.Event} (henters : b.Enters b' j e) : False := by
  rcases exists_of_request? hrequest with ⟨k, hk, -, t, w, hstage, -⟩
  exact Change.not_enters h henters hk hstage

/-- A request stays under way when an action is started. -/
theorem request?_start (h : b.InStep s) {n : Nat} (hrequest : b.request? n = some r) (now : Nat)
    (a : Action) : (b.start now a).1.request? n = some r := by
  cases hearly : a.early? b.view with
  | some result =>
      have hstart : b.start now a = (b, .ended result) := by
        simp [start, hearly]
      rw [hstart]
      exact hrequest
  | none =>
      rcases h.start_cases now hearly with ⟨henters, -, -⟩ | ⟨-, hstart⟩
      · exact (h.not_enters_of_request? hrequest henters).elim
      · rw [hstart]
        rcases exists_of_request? hrequest with ⟨j, hj, rfl, t, w, hstage, rfl⟩
        exact (h.enroll now a).fits.request?_eq (List.mem_append_left _ hj) hstage

/-- A request stays under way when a job goes on that waits for the gate. -/
theorem request?_resume (h : b.InStep s) {n : Nat} (hrequest : b.request? n = some r)
    (now id : Nat) : (b.resume now id).1.request? n = some r := by
  cases hjob : b.job? id with
  | none =>
      have hresume : b.resume now id = (b, .waiting id) := by
        simp [resume, hjob]
      rw [hresume]
      exact hrequest
  | some j =>
      rcases mem_of_job? hjob with ⟨hmem, rfl⟩
      rcases j with ⟨id, action, stage⟩
      cases stage with
      | calling ticket w =>
          have hresume : b.resume now id = (b, .waiting id) := by
            simp [resume, hjob]
          rw [hresume]
          exact hrequest
      | queued request =>
          have hne := ne_of_queued hrequest hjob rfl
          rcases Gate.resume_cases b.gate now request with heq | ⟨-, -, heq⟩ | ⟨-, -, heq⟩
          · have hresume : b.resume now id = (b, .waiting id) := by
              simp [resume, hjob, heq]
            rw [hresume]
            exact hrequest
          · have hgranted : (b.gate.step (.resume now request)).2 = .turned .granted := by
              rw [Gate.step, heq]
            have henters := Enters.turned now _ request hmem rfl hgranted
            exact (h.not_enters_of_request? hrequest henters).elim
          · have hgone : (b.resume now id).1.request? n = (b.removeJob id).request? n := by
              simp only [resume, hjob, heq, close]
              rfl
            rw [hgone, request?_removeJob_ne hne]
            exact hrequest

/-- A request stays under way until it is answered or its job is given up. -/
theorem request?_step (h : b.InStep s) {n : Nat} (hrequest : b.request? n = some r) {e : Event}
    (hanswer : ∀ respond, e ≠ .answer n respond) (hcancel : e ≠ .cancel n) :
    (b.step e).1.request? n = some r := by
  cases e with
  | start now a => exact h.request?_start hrequest now a
  | resume now id => exact h.request?_resume hrequest now id
  | answer id respond =>
      cases hother : b.request? id with
      | none =>
          simp only [Board.step, answer_of_none hother]
          exact hrequest
      | some r' => exact absurd (h.fits.id_eq_of_request? hother hrequest ▸ rfl) (hanswer respond)
  | cancel id =>
      have hne : n ≠ id := fun heq => hcancel (heq ▸ rfl)
      have hkept : (b.cancel id).request? n = (b.removeJob id).request? n ∨ b.cancel id = b := by
        unfold Board.cancel
        split
        · exact Or.inl rfl
        · exact Or.inl rfl
        · exact Or.inr rfl
      simp only [Board.step]
      rcases hkept with heq | heq
      · rw [heq, request?_removeJob_ne hne]
        exact hrequest
      · rw [heq]
        exact hrequest
  | outside e =>
      simp only [Board.step, Board.outside]
      split <;> exact hrequest

end InStep

/-! ## Requests accounted for -/

/-- The requests made so far are accounted for: no job has made two, each is under way or its
job is over, and no other is under way. -/
structure Accounted (b : Board) (seen : List (Nat × Request)) : Prop where
  nodup : (seen.map Prod.fst).Nodup
  spent : ∀ p ∈ seen, b.request? p.1 = some p.2 ∨ b.IsOver p.1
  known : ∀ id r, b.request? id = some r → (id, r) ∈ seen

/-- A new board has made no request. -/
theorem IsNew.accounted (h : b.IsNew) : b.Accounted [] := by
  rcases h.eq with ⟨name, options, event, rfl⟩
  exact ⟨List.nodup_nil, by simp, by simp [request?, job?]⟩

namespace Accounted

variable {seen : List (Nat × Request)}

/-- Every event accounts for the requests made so far. -/
theorem step (ha : b.Accounted seen) (h : b.InStep s) (e : Event) :
    (b.step e).1.Accounted (seen ++ (b.asked? e).toList) := by
  have hchange := h.change e
  have hnext := h.step e
  refine ⟨?_, ?_, ?_⟩
  · cases hasked : b.asked? e with
    | none => simpa using ha.nodup
    | some p =>
        rcases p with ⟨id, r⟩
        obtain ⟨hnone, hover⟩ := hchange.fresh_of_asking h (asked?_eq_some_iff.1 hasked)
        rw [Option.toList_some, List.map_append, List.nodup_append]
        refine ⟨ha.nodup, List.nodup_singleton _, ?_⟩
        intro m hm n hn heq
        obtain rfl : n = id := by simpa using hn
        rcases List.mem_map.1 hm with ⟨p, hp, rfl⟩
        rcases ha.spent p hp with hrequest | hdone
        · rw [hnone] at hrequest
          simp at hrequest
        · exact hover (heq ▸ hdone)
  · intro p hp
    rcases List.mem_append.1 hp with hold | hnew
    · rcases ha.spent p hold with hrequest | hover
      · rcases exists_of_request? hrequest with ⟨j, hj, hid, t, w, hstage, hr⟩
        rcases hchange.calling h hj hstage with ⟨hmem, -⟩ | hover
        · left
          rw [← hid, ← hr]
          exact hnext.fits.request?_eq hmem hstage
        · exact Or.inr (hid ▸ hover)
      · exact Or.inr (hchange.isOver hover)
    · left
      rw [Option.mem_toList] at hnew
      exact h.request?_of_asking e (asked?_eq_some_iff.1 hnew)
  · intro id r hrequest
    rw [List.mem_append, Option.mem_toList]
    rcases exists_of_request? hrequest with ⟨j, hj, rfl, t, w, hstage, rfl⟩
    rcases hchange.of_calling h hj hstage with hold | hreply
    · exact Or.inl (ha.known _ _ (h.fits.request?_eq hold hstage))
    · exact Or.inr (asked?_eq_some_iff.2 hreply)

/-- Every run accounts for the requests made in it. -/
theorem run (ha : b.Accounted seen) (h : b.InStep s) (es : List Event) :
    (b.run es).Accounted (seen ++ b.asked es) := by
  induction es generalizing b s seen with
  | nil => simpa [asked] using ha
  | cons e es ih =>
      rw [asked, ← List.append_assoc]
      exact ih (ha.step h e) (h.step e)

end Accounted

/-! ## Results without a request -/

/-- The answer to a request is a failure if it brings a result that needs no request. -/
theorem Await.error_of_barren {w : Await} {answer : Except Error w.request.Answer} {v : View}
    (hbarren : Barren (w.finish answer v).2) :
    ∃ e, answer = .error e ∧ (w.finish answer v).2 = .error e := by
  cases answer with
  | error e =>
      refine ⟨e, rfl, ?_⟩
      cases w <;> rfl
  | ok data => cases w <;> simp only [finish] at hbarren <;> cases hbarren

/-- A job whose wait for the gate ends in an event had made no request. -/
theorem queued_of_resume {now : Nat} {result : Except Error Outcome}
    (hreply : (b.resume now id).2 = .ended result) :
    ∃ j n, b.job? id = some j ∧ j.stage = .queued n := by
  unfold resume at hreply
  split at hreply
  · rename_i hjob
    exact ⟨_, _, hjob, rfl⟩
  · simp at hreply

/-- An action that ends with a result that needs no request has made none, unless the backend
itself has answered with that failure. -/
theorem Accounted.of_barren {seen : List (Nat × Request)} (ha : b.Accounted seen)
    (h : b.InStep s) {e : Event} (hnumber : b.callNumber? e = some id)
    {result : Except Error Outcome} (hreply : (b.step e).2 = some (.ended result))
    (hbarren : Barren result) :
    (∀ r, (id, r) ∉ seen) ∨ ∃ respond r err, e = .answer id respond ∧
      b.request? id = some r ∧ respond r = .error err ∧ result = .error err := by
  cases e with
  | start now a =>
      left
      obtain rfl : b.started = id := by simpa [callNumber?] using hnumber
      intro r hmem
      rcases ha.spent _ hmem with hrequest | hover
      · rcases exists_of_request? hrequest with ⟨j, hj, hid, -⟩
        exact absurd (h.fits.lt_started j hj) (by simp [hid])
      · exact Nat.lt_irrefl _ hover.1
  | resume now job =>
      left
      obtain rfl : job = id := by simpa [callNumber?] using hnumber
      have hended : (b.resume now job).2 = .ended result := by simpa [Board.step] using hreply
      rcases queued_of_resume hended with ⟨j, n, hjob, hstage⟩
      intro r hmem
      rcases ha.spent _ hmem with hrequest | hover
      · rcases j with ⟨id, action, stage⟩
        obtain rfl : stage = .queued n := hstage
        simp [request?, hjob] at hrequest
      · rcases mem_of_job? hjob with ⟨hj, hid⟩
        exact hover.2 j hj hid
  | answer job respond =>
      right
      obtain rfl : job = id := by simpa [callNumber?] using hnumber
      cases hjob : b.job? job with
      | none => simp [Board.step, Board.answer, hjob] at hreply
      | some j =>
          rcases mem_of_job? hjob with ⟨hj, rfl⟩
          cases hstage : j.stage with
          | queued n =>
              rcases j with ⟨id, action, stage⟩
              obtain rfl : stage = .queued n := hstage
              simp [Board.step, Board.answer, hjob] at hreply
          | calling t w =>
              have hresult : (w.finish (respond w.request) b.view).2 = result := by
                simpa [Board.step, h.answer_eq hjob hstage respond] using hreply
              rw [← hresult] at hbarren
              rcases Await.error_of_barren hbarren with ⟨err, herror, hsame⟩
              exact ⟨respond, w.request, err, rfl, h.fits.request?_eq hj hstage, herror,
                hresult.symm.trans hsame⟩
  | cancel job => simp [Board.step] at hreply
  | outside e => simp [callNumber?] at hnumber

/-! ## One request at a time -/

/-- The requests of a board in a run. -/
structure OneCall (b : Board) (es : List Event) : Prop where
  /-- Two requests are never under way. -/
  one : ∀ id id' r r', (b.run es).request? id = some r → (b.run es).request? id' = some r' →
    id = id'
  /-- While a request is under way the ticket of its job owns the slot of the gate and is
  locked. -/
  holder : ∀ id r, (b.run es).request? id = some r →
    ∃ j t w, (b.run es).job? id = some j ∧ j.stage = .calling t w ∧ w.request = r ∧
      (b.run es).gate.slot.grant = some t ∧ (b.run es).gate.phase t = .locked
  /-- Those requests are under way that were made by jobs which are not over. -/
  underWay : ∀ id r, (b.run es).request? id = some r ↔
    (id, r) ∈ b.asked es ∧ ¬(b.run es).IsOver id
  /-- No call makes two requests. -/
  once : ((b.asked es).map Prod.fst).Nodup
  /-- A call that ends for want of the gate, of an event, of a note or of an awardee has made
  no request, unless a backend has answered it so. -/
  barren : ∀ e id result, (b.run es).callNumber? e = some id →
    ((b.run es).step e).2 = some (.ended result) → Barren result →
    (∀ r, (id, r) ∉ b.asked (es ++ [e])) ∨
      ∃ respond r err, e = .answer id respond ∧ (b.run es).request? id = some r ∧
        respond r = .error err ∧ result = .error err

/-- A new board has at most one request under way, in every run. -/
theorem IsNew.oneCall (hnew : b.IsNew) (es : List Event) : b.OneCall es := by
  have h := hnew.inStep.run es
  have ha : (b.run es).Accounted (b.asked es) := by
    simpa using hnew.accounted.run hnew.inStep es
  constructor
  case one =>
    intro id id' r r' hrequest hrequest'
    exact h.fits.id_eq_of_request? hrequest hrequest'
  case holder =>
    intro id r hrequest
    rcases exists_of_request? hrequest with ⟨j, hj, rfl, t, w, hstage, hr⟩
    exact ⟨j, t, w, h.fits.job?_eq hj, hstage, hr, h.fits.ticket_eq hj hstage,
      h.fits.locked j hj t w hstage⟩
  case underWay =>
    intro id r
    constructor
    · intro hrequest
      refine ⟨ha.known id r hrequest, ?_⟩
      intro hover
      rcases exists_of_request? hrequest with ⟨j, hj, hid, -⟩
      exact hover.2 j hj hid
    · rintro ⟨hmem, hnot⟩
      exact (ha.spent _ hmem).resolve_right hnot
  case once => exact ha.nodup
  case barren =>
    intro e id result hnumber hreply hbarren
    rcases ha.of_barren h hnumber hreply hbarren with hnone | hbackend
    · left
      intro r hmem
      rw [asked_append, List.mem_append] at hmem
      rcases hmem with hold | hnow
      · exact hnone r hold
      · simp [asked, asked?, hreply] at hnow
    · exact Or.inr hbackend

end Board
end AwardsDesk
