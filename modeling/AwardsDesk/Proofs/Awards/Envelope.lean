import AwardsDesk.Proofs.Awards.Decoding
import AwardsDesk.Proofs.Json.Meaning

/-!
# What responses say

The three readers of responses look at what a response says and not at how it is written, and they
pass on a failure that it reports before they look at anything else.  Whether it reports one, and
which, is decided by its last `error` and `status` members alone.

Main definitions:

- Definition {lit}`Response.SayTheSame`: two responses denote the same.
- Structures {lit}`Response.AllReport` and {lit}`Response.NoneReports`: the readers pass on the same
  failure, or none of them passes on a failure.
- Structure {lit}`Response.AllRefuse`: the readers take a response for no document.
- Inductive type {lit}`Response.Reported`: the failure that a document reports.

Main results:

- Theorem {lit}`Response.allReport_iff_reported`: the readers pass on what a document reports.
- Theorem {lit}`Response.reported_congr`: what the `error` and `status` members decide.
- Theorem {lit}`Response.readers_agree`: the three readers treat responses alike.
-/

namespace AwardsDesk
namespace Response

open Json Board

variable {body body' reason : String} {v v' : Value} {t u : Tree}

/-- Two responses denote documents that say the same. -/
def SayTheSame (body body' : String) : Prop :=
  ∃ t u : Tree, t.DenotedBy body ∧ u.DenotedBy body' ∧ t.Same u

/-- All readers pass on the failure. -/
structure AllReport (body reason : String) : Prop where
  awards : awards body = .error (.backend reason)
  pickup : pickup body = .error (.backend reason)
  notes : notes body = .error (.backend reason)

/-- No reader passes on a failure. -/
structure NoneReports (body : String) : Prop where
  awards : ∀ reason, awards body ≠ .error (.backend reason)
  pickup : ∀ reason, pickup body ≠ .error (.backend reason)
  notes : ∀ reason, notes body ≠ .error (.backend reason)

/-- All readers take the response for no document. -/
structure AllRefuse (body : String) : Prop where
  awards : awards body = .error (.decode (.document .malformed))
  pickup : pickup body = .error (.decode (.document .malformed))
  notes : notes body = .error (.decode (.document .malformed))

/-! ## Failures -/

/-- A structure that cannot be read is no failure that is reported. -/
theorem decode_ne_backend {α : Type} (s : Schema α) (v : Value) (reason : String) :
    decode s v ≠ .error (.backend reason) := by
  unfold decode
  cases s.read v <;> simp [Except.mapError]

/-- A failure is passed on if the envelope has it. -/
theorem bind_eq_backend_iff {α : Type} {x : Except Board.Error Value}
    {f : Value → Except Board.Error α} (hf : ∀ v, f v ≠ .error (.backend reason)) :
    (x >>= f) = .error (.backend reason) ↔ x = .error (.backend reason) := by
  cases x with
  | error e =>
      have herror : (Except.error e >>= f) = .error e := rfl
      rw [herror, Except.error.injEq, Except.error.injEq]
  | ok v => exact ⟨fun h => absurd h (hf v), fun h => by cases h⟩

/-- Awards are not had because of a failure if the envelope has it. -/
theorem awards_eq_backend_iff :
    awards body = .error (.backend reason) ↔ envelope body = .error (.backend reason) := by
  refine bind_eq_backend_iff fun v => ?_
  split
  · exact decode_ne_backend _ _ _
  · exact fun h => by cases h

/-- The state of an award is not had because of a failure if the envelope has it. -/
theorem pickup_eq_backend_iff :
    pickup body = .error (.backend reason) ↔ envelope body = .error (.backend reason) :=
  bind_eq_backend_iff fun v => decode_ne_backend _ v _

/-- Notes are not had because of a failure if the envelope has it. -/
theorem notes_eq_backend_iff :
    notes body = .error (.backend reason) ↔ envelope body = .error (.backend reason) :=
  bind_eq_backend_iff fun v => decode_ne_backend _ v _

/-- All readers pass on a failure if the envelope has it. -/
theorem allReport_iff : AllReport body reason ↔ envelope body = .error (.backend reason) :=
  ⟨fun h => awards_eq_backend_iff.1 h.awards, fun h =>
    ⟨awards_eq_backend_iff.2 h, pickup_eq_backend_iff.2 h, notes_eq_backend_iff.2 h⟩⟩

/-- The envelope of a response that stands for a value has the failure of the value. -/
theorem envelope_eq_backend_iff (h : Value.ofText? body = some v) :
    envelope body = .error (.backend reason) ↔ failure? v = some reason := by
  simp only [envelope, h]
  cases failure? v <;> simp

/-- The failure that a document reports: the text of its last `error` member, or else that a request
failed if its last `status` member says so. -/
inductive Reported (t : Tree) : String → Prop where
  | error {reason : String} (error : t.member? "error" = some (.str (some reason))) :
      Reported t reason
  | status (noError : ∀ reason, t.member? "error" ≠ some (.str (some reason)))
      (status : t.member? "status" = some (.str (some "fail"))) : Reported t "request failed"

/-- A member of a value is text if that of the document is. -/
theorem bind_text?_eq_some_iff {room : Nat} (hv : t.value? room = some v) (key s : String) :
    (v.member? key).bind Value.text? = some s ↔ t.member? key = some (.str (some s)) := by
  rw [Tree.member?_of_value? hv]
  cases t.member? key with
  | none => simp
  | some x =>
      rw [Option.bind_some, Option.some.injEq]
      constructor
      · intro h
        rcases Option.bind_eq_some_iff.1 h with ⟨w, hw, htext⟩
        rw [text?_eq_some_iff.1 htext] at hw
        cases Tree.same_of_value? hw (u := .str (some s)) rfl
        rfl
      · rintro rfl
        rfl

/-- The failure of a value is the one that the document reports. -/
theorem failure?_eq_some_iff {room : Nat} (hv : t.value? room = some v) :
    failure? v = some reason ↔ Reported t reason := by
  have htext := bind_text?_eq_some_iff hv
  rw [failure?]
  cases herror : (v.member? "error").bind Value.text? with
  | some r =>
      have hmember := (htext "error" r).1 herror
      constructor
      · intro h
        cases h
        exact .error hmember
      · intro h
        cases h with
        | error h =>
            rw [hmember] at h
            cases h
            rfl
        | status noError _ => exact absurd hmember (noError r)
  | none =>
      have hnone : ∀ r, t.member? "error" ≠ some (.str (some r)) := by
        intro r hr
        rw [(htext "error" r).2 hr] at herror
        cases herror
      constructor
      · intro h
        simp only at h
        split_ifs at h with hstatus
        cases h
        exact .status hnone ((htext "status" "fail").1 hstatus)
      · intro h
        cases h with
        | error h => exact absurd h (hnone reason)
        | status _ status => exact if_pos ((htext "status" "fail").2 status)

/-- The same text is at a key of documents that say the same there. -/
theorem text_congr {x y : Option Tree} (h : Option.Rel Tree.Same x y) (s : Option String) :
    x = some (.str s) ↔ y = some (.str s) := by
  cases h with
  | none => exact Iff.rfl
  | some h =>
      rw [Option.some.injEq, Option.some.injEq]
      constructor
      · rintro rfl
        cases h
        rfl
      · rintro rfl
        cases h
        rfl

/-- Which failure is reported depends on the `error` and `status` members. -/
theorem reported_congr (herror : Option.Rel Tree.Same (t.member? "error") (u.member? "error"))
    (hstatus : Option.Rel Tree.Same (t.member? "status") (u.member? "status")) :
    Reported t reason ↔ Reported u reason := by
  constructor
  · intro h
    cases h with
    | error h => exact .error ((text_congr herror _).1 h)
    | status noError status =>
        exact .status (fun r => mt (text_congr herror _).2 (noError r))
          ((text_congr hstatus _).1 status)
  · intro h
    cases h with
    | error h => exact .error ((text_congr herror _).2 h)
    | status noError status =>
        exact .status (fun r => mt (text_congr herror _).1 (noError r))
          ((text_congr hstatus _).2 status)

/-- All readers pass on the failure that the document of a response reports. -/
theorem allReport_iff_reported (ht : t.DenotedBy body) :
    AllReport body reason ↔ Reported t reason := by
  rcases Tree.exists_value?_iff.2 ht.fits with ⟨v, hv⟩
  rw [allReport_iff, envelope_eq_backend_iff ((Value.ofText?_of_denotedBy ht).trans hv),
    failure?_eq_some_iff hv]

/-! ## The three readers -/

/-- A response is read as the value that it stands for. -/
theorem readers_congr (h : Value.ofText? body = Value.ofText? body') :
    awards body = awards body' ∧ pickup body = pickup body' ∧ notes body = notes body' := by
  have henvelope : envelope body = envelope body' := by
    rw [envelope, envelope, h]
  exact ⟨by rw [awards, awards, henvelope], by rw [pickup, pickup, henvelope],
    by rw [notes, notes, henvelope]⟩

/-- A failure is passed on by all readers or by none. -/
theorem allReport_or_noneReports (body : String) :
    (∃ reason, AllReport body reason) ∨ NoneReports body := by
  by_cases h : ∃ reason, envelope body = .error (.backend reason)
  · rcases h with ⟨reason, hreason⟩
    exact Or.inl ⟨reason, allReport_iff.2 hreason⟩
  · rw [not_exists] at h
    exact Or.inr ⟨fun reason => mt awards_eq_backend_iff.1 (h reason),
      fun reason => mt pickup_eq_backend_iff.1 (h reason),
      fun reason => mt notes_eq_backend_iff.1 (h reason)⟩

/-- A response that denotes nothing is taken for no document. -/
theorem allRefuse_of_not_denotedBy (h : ∀ t : Tree, ¬t.DenotedBy body) : AllRefuse body := by
  have henvelope : envelope body = .error (.decode (.document .malformed)) := by
    rw [envelope, Value.ofText?_eq_none h]
  exact ⟨by rw [awards, henvelope]; rfl, by rw [pickup, henvelope]; rfl,
    by rw [notes, henvelope]; rfl⟩

/-- The three readers treat responses alike.  Responses that say the same are read with the same
result, whatever is wrong with them.  A failure is passed on by all readers or by none, and it is
the one that the document reports, so it depends on the last `error` and `status` members alone.  A
response that denotes nothing is refused as no document. -/
theorem readers_agree :
    (∀ body body', SayTheSame body body' →
      awards body = awards body' ∧ pickup body = pickup body' ∧ notes body = notes body') ∧
    (∀ body, (∃ reason, AllReport body reason) ∨ NoneReports body) ∧
    (∀ body (t : Tree), t.DenotedBy body → ∀ reason, AllReport body reason ↔ Reported t reason) ∧
    (∀ body body' (t u : Tree), t.DenotedBy body → u.DenotedBy body' →
      Option.Rel Tree.Same (t.member? "error") (u.member? "error") →
      Option.Rel Tree.Same (t.member? "status") (u.member? "status") →
      ∀ reason, AllReport body reason ↔ AllReport body' reason) ∧
    ∀ body, (∀ t : Tree, ¬t.DenotedBy body) → AllRefuse body := by
  refine ⟨?_, allReport_or_noneReports, fun _ _ ht _ => allReport_iff_reported ht, ?_,
    fun _ => allRefuse_of_not_denotedBy⟩
  · rintro body body' ⟨t, u, ht, hu, hsame⟩
    refine readers_congr ?_
    rw [Value.ofText?_of_denotedBy ht, Value.ofText?_of_denotedBy hu]
    exact (Tree.same_iff ht.fits hu.fits).1 hsame
  · intro body body' t u ht hu herror hstatus reason
    rw [allReport_iff_reported ht, allReport_iff_reported hu, reported_congr herror hstatus]

/-- A document of awards with a fault in two places: a division that is a number, and an award
without an awardee. -/
def crossed : Tree :=
  .record [(some "data", .record
    [(some "divisions", .list [.num { whole := ['1'] }] true),
      (some "awards", .list [.record [] true] true)] true)] true

/-- The same awards in another order, after some that are overridden. -/
def crossedBack : Tree :=
  .record [(some "data", .record
    [(some "awards", .list [] true), (some "awards", .list [.record [] true] true),
      (some "divisions", .list [.num { whole := ['1'] }] true)] true)] true

/-- Crossed awards are refused for the awardee both ways, for awards are read before divisions.  A
failure is passed on beside data and beside another status, and an open brace is no document. -/
theorem readers_agree_crossed :
    awards "\x7b\"data\": \x7b\"divisions\": [1], \"awards\": [\x7b\x7d]\x7d\x7d" =
      .error (.decode (.document (.missingField "awardee_id"))) ∧
    awards "\x7b\"d\\u0061ta\":\x7b\"awards\":[],\"awards\":[\x7b\x7d],\"divisions\":[1]\x7d\x7d" =
      .error (.decode (.document (.missingField "awardee_id"))) ∧
    AllReport "\x7b\"error\":\"no\",\"data\":1\x7d" "no" ∧
    AllReport "\x7b\"error\":1,\"error\":\"n\\u006f\"\x7d" "no" ∧ AllRefuse "\x7b" := by
  have hcrossed : crossed.DenotedBy
      "\x7b\"data\": \x7b\"divisions\": [1], \"awards\": [\x7b\x7d]\x7d\x7d" :=
    Tree.denotedBy_of_ofText rfl rfl
  have hback : crossedBack.DenotedBy
      "\x7b\"d\\u0061ta\":\x7b\"awards\":[],\"awards\":[\x7b\x7d],\"divisions\":[1]\x7d\x7d" :=
    Tree.denotedBy_of_ofText rfl rfl
  have hsame : crossed.Same crossedBack :=
    Tree.same_of_value? (show crossed.value? 4 = some _ from rfl) rfl
  have hfailed : (Tree.record [(some "error", .str (some "no")),
      (some "data", .num { whole := ['1'] })] true).DenotedBy
      "\x7b\"error\":\"no\",\"data\":1\x7d" :=
    Tree.denotedBy_of_ofText rfl rfl
  have hagain : (Tree.record [(some "error", .num { whole := ['1'] }),
      (some "error", .str (some "no"))] true).DenotedBy
      "\x7b\"error\":1,\"error\":\"n\\u006f\"\x7d" :=
    Tree.denotedBy_of_ofText rfl rfl
  have hawards : awards "\x7b\"data\": \x7b\"divisions\": [1], \"awards\": [\x7b\x7d]\x7d\x7d" =
      .error (.decode (.document (.missingField "awardee_id"))) := by
    rw [awards, envelope, Value.ofText?_of_denotedBy hcrossed]
    rfl
  have hreport : AllReport "\x7b\"error\":\"no\",\"data\":1\x7d" "no" :=
    (readers_agree.2.2.1 _ _ hfailed _).2 (.error rfl)
  refine ⟨hawards, ?_, hreport, ?_, ?_⟩
  · rw [← (readers_agree.1 _ _ ⟨_, _, hcrossed, hback, hsame⟩).1]
    exact hawards
  · exact (readers_agree.2.2.2.1 _ _ _ _ hfailed hagain (.some (.str _)) .none _).1 hreport
  · refine readers_agree.2.2.2.2 _ fun t ht => ?_
    rcases Tree.exists_value?_iff.2 ht.fits with ⟨v, hv⟩
    cases (Value.ofText?_of_denotedBy ht).trans hv

end Response
end AwardsDesk
