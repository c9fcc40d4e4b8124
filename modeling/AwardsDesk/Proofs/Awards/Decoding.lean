import AwardsDesk.Awards.Response
import AwardsDesk.Proofs.Json.Entries

/-!
# What responses bring

The awards of an event are had from just the responses that represent them, and from each response
at most once: every number and text is the one that was sent.

Main definitions:

- Functions {lit}`Division.entries`, {lit}`Award.entries` and {lit}`AwardsData.entries`: the
  fields of what is sent.
- Structure {lit}`Response.Brings`: a response represents the awards of an event.

Main results:

- Theorems {lit}`Division.reads_schema`, {lit}`Award.reads_schema` and
  {lit}`AwardsData.reads_schema`: structures are read from just the values that represent them.
- Theorem {lit}`Response.failure?_eq_none_iff`: what a response that reports no failure is.
- Theorem {lit}`Response.awards_exact`: awards are had from just the responses that represent
  them, and all others are refused.
-/

namespace AwardsDesk

open Json

/-! ## Divisions -/

namespace Division

/-- The fields of a division. -/
def entries (d : Division) : List (Entry Value) :=
  [.needed "div_id" (Value.IsUInt64 d.divId),
    .needed "rsu_div_id" (Value.IsUInt64 d.rsuDivId),
    .needed "name" (Value.IsText d.name),
    .needed "num_awards" (Value.IsUInt32 d.numAwards),
    .spare "shname" (Value.OrNull Value.IsText d.shname) (d.shname = none),
    .spare "prio" (Value.OrNull Value.IsUInt32 d.prio) (d.prio = none),
    .spare "gen" (Value.OrNull Value.IsText d.gender) (d.gender = none),
    .spare "min" (Value.OrNull Value.IsUInt32 d.min) (d.min = none),
    .spare "max" (Value.OrNull Value.IsUInt32 d.max) (d.max = none)]

/-- A value represents a division. -/
def RepresentedBy (d : Division) (v : Value) : Prop :=
  v.Represents d.entries

/-- Divisions are read from just the values that represent them. -/
theorem reads_schema : Reader.Reads schema.read RepresentedBy := by
  have htext := Reader.reads_text.orNull (fun _ => Value.noConfusion)
  have hnumber := Reader.reads_uint32.orNull (by simp [Value.IsUInt32])
  have h : Schema.Reads schema _ _ := Schema.reads_const Division.mk
    |>.field Reader.reads_uint64
    |>.field Reader.reads_uint64
    |>.field Reader.reads_text
    |>.field Reader.reads_uint32
    |>.optional htext none
    |>.optional hnumber none
    |>.optional htext none
    |>.optional hnumber none
    |>.optional hnumber none
  intro v hv d
  rw [h.read_eq_ok_iff hv]
  constructor
  · rintro ⟨g, rfl, hg⟩
    exact hg
  · intro hd
    exact ⟨((((((((((), d.divId), d.rsuDivId), d.name), d.numAwards), d.shname), d.prio),
      d.gender), d.min), d.max), rfl, hd⟩

/-- Null represents no division. -/
theorem not_representedBy_null (d : Division) : ¬d.RepresentedBy .null :=
  id

end Division

/-! ## Awards -/

namespace Award

/-- The fields of an award. -/
def entries (a : Award) : List (Entry Value) :=
  [.needed "awardee_id" (Value.IsUInt64 a.awardeeId),
    .needed "div_id" (Value.IsUInt64 a.divId),
    .needed "rsu_div_id" (Value.IsUInt64 a.rsuDivId),
    .needed "place" (Value.IsUInt32 a.place),
    .needed "name" (Value.IsText a.name),
    .needed "bib" (Value.IsText a.bib),
    .needed "picked_up" (Value.IsBool a.pickedUp),
    .needed "prev_picked_up" (Value.IsBool a.prevPickedUp),
    .spare "notes" (Value.OrNull Value.IsText a.notes) (a.notes = none)]

/-- A value represents an award. -/
def RepresentedBy (a : Award) (v : Value) : Prop :=
  v.Represents a.entries

/-- Awards are read from just the values that represent them. -/
theorem reads_schema : Reader.Reads schema.read RepresentedBy := by
  have h : Schema.Reads schema _ _ := Schema.reads_const Award.mk
    |>.field Reader.reads_uint64
    |>.field Reader.reads_uint64
    |>.field Reader.reads_uint64
    |>.field Reader.reads_uint32
    |>.field Reader.reads_text
    |>.field Reader.reads_text
    |>.field Reader.reads_bool
    |>.field Reader.reads_bool
    |>.optional (Reader.reads_text.orNull (fun _ => Value.noConfusion)) none
  intro v hv a
  rw [h.read_eq_ok_iff hv]
  constructor
  · rintro ⟨g, rfl, hg⟩
    exact hg
  · intro ha
    exact ⟨((((((((((), a.awardeeId), a.divId), a.rsuDivId), a.place), a.name), a.bib),
      a.pickedUp), a.prevPickedUp), a.notes), rfl, ha⟩

end Award

/-! ## The awards of an event -/

namespace AwardsData

/-- A value represents the rows of divisions: a list of lists of divisions or null. -/
def RowsRepresentedBy (rows : List (List (Option Division))) (v : Value) : Prop :=
  Value.ListOf (Value.ListOf (Value.OrNull Division.RepresentedBy)) rows v

/-- The fields of the awards of an event. -/
def entries (d : AwardsData) : List (Entry Value) :=
  [.spare "divisions" (Value.OrNull RowsRepresentedBy d.divisions) (d.divisions = none),
    .spare "awards" (Value.ListOf Award.RepresentedBy d.awards) (d.awards = [])]

/-- A value represents the awards of an event. -/
def RepresentedBy (d : AwardsData) (v : Value) : Prop :=
  v.Represents d.entries

/-- The awards of an event are read from just the values that represent them. -/
theorem reads_schema : Reader.Reads schema.read RepresentedBy := by
  have hrows := (Division.reads_schema.orNull Division.not_representedBy_null).listOf.listOf
  have h : Schema.Reads schema _ _ := Schema.reads_const AwardsData.mk
    |>.optional (hrows.orNull (by simp [Value.ListOf])) none
    |>.optional Award.reads_schema.listOf []
  intro v hv d
  rw [h.read_eq_ok_iff hv]
  constructor
  · rintro ⟨g, rfl, hg⟩
    exact hg
  · intro hd
    exact ⟨(((), d.divisions), d.awards), rfl, hd⟩

end AwardsData

/-! ## Responses -/

namespace Response

variable {body : String} {d : AwardsData}

/-- A response reports a failure if it has an error in words, or its status is failure. -/
def ReportsFailure (v : Value) : Prop :=
  (∃ reason, v.member? "error" = some (.str reason)) ∨ v.member? "status" = some (.str "fail")

/-- A member that is text. -/
theorem text?_eq_some_iff {v : Value} {s : String} : v.text? = some s ↔ v = .str s := by
  cases v <;> simp [Value.text?]

/-- No failure is found in just the responses that report none. -/
theorem failure?_eq_none_iff {v : Value} : failure? v = none ↔ ¬ReportsFailure v := by
  rw [failure?, ReportsFailure, not_or]
  cases herror : (v.member? "error").bind Value.text? with
  | some reason =>
      rcases Option.bind_eq_some_iff.1 herror with ⟨w, hw, htext⟩
      rw [text?_eq_some_iff] at htext
      simp [hw, htext]
  | none =>
      have hnone : ¬∃ reason, v.member? "error" = some (.str reason) := by
        rintro ⟨reason, hreason⟩
        rw [hreason] at herror
        cases herror
      have hstatus : (v.member? "status").bind Value.text? = some "fail" ↔
          v.member? "status" = some (.str "fail") := by
        simp [Option.bind_eq_some_iff, text?_eq_some_iff]
      simp [hnone, hstatus]

/-- A response is taken for the value that it stands for, if it reports no failure. -/
theorem envelope_eq_ok_iff {v : Value} :
    envelope body = .ok v ↔ Value.ofText? body = some v ∧ ¬ReportsFailure v := by
  rw [envelope, ← failure?_eq_none_iff]
  cases Value.ofText? body with
  | none => simp
  | some w =>
      simp only [Option.some.injEq]
      constructor
      · intro h
        split at h
        · cases h
        · rename_i hnone
          cases h
          exact ⟨rfl, hnone⟩
      · rintro ⟨rfl, hnone⟩
        rw [hnone]

/-- A response brings the awards of an event: its text spells a document, the document stands for
a value that reports no failure, and the data of the value represent the awards. -/
def Brings (body : String) (d : AwardsData) : Prop :=
  ∃ (t : Tree) (v data : Value), t.SpelledBy body ∧ t.value? maxDepth = some v ∧
    ¬ReportsFailure v ∧ v.member? "data" = some data ∧ d.RepresentedBy data

/-- The data of an orderly value are orderly. -/
theorem orderly_of_member? {v w : Value} (h : v.Orderly) {key : String}
    (hw : v.member? key = some w) : w.Orderly := by
  cases h with
  | record sorted orderly => exact orderly _ (Members.mem_of_get? hw)
  | null | bool | num | str | list => cases hw

/-- Awards are had from just the responses that bring them. -/
theorem awards_eq_ok_iff : awards body = .ok d ↔ Brings body d := by
  have hread : ∀ t : Tree, ∀ v data, t.value? maxDepth = some v → v.member? "data" = some data →
      (decode AwardsData.schema data = .ok d ↔ d.RepresentedBy data) := by
    intro t v data hv hdata
    have horderly := orderly_of_member? (Tree.orderly_of_value? hv) hdata
    rw [← AwardsData.reads_schema data horderly d, decode]
    cases AwardsData.schema.read data <;> simp [Except.mapError]
  rw [awards, bind_eq_ok_iff]
  constructor
  · rintro ⟨v, henvelope, hdecode⟩
    rcases envelope_eq_ok_iff.1 henvelope with ⟨htext, hfailure⟩
    rcases Value.ofText?_eq_some_iff.1 htext with ⟨t, ht, hv⟩
    cases hdata : v.member? "data" with
    | none =>
        rw [hdata] at hdecode
        cases hdecode
    | some data =>
        rw [hdata] at hdecode
        exact ⟨t, v, data, ht, hv, hfailure, hdata, (hread t v data hv hdata).1 hdecode⟩
  · rintro ⟨t, v, data, ht, hv, hfailure, hdata, hd⟩
    refine ⟨v, envelope_eq_ok_iff.2 ⟨Value.ofText?_eq_some_iff.2 ⟨t, ht, hv⟩, hfailure⟩, ?_⟩
    rw [hdata]
    exact (hread t v data hv hdata).2 hd

/-- Awards are had from just the responses that bring them, no response brings different awards,
and a response that brings none is refused. -/
theorem awards_exact (body : String) :
    (∀ d, awards body = .ok d ↔ Brings body d) ∧
      (∀ d d', Brings body d → Brings body d' → d = d') ∧
      ((∀ d, ¬Brings body d) → ∃ e, awards body = .error e) := by
  refine ⟨fun d => awards_eq_ok_iff, fun d d' hd hd' => ?_, fun hnone => ?_⟩
  · rw [← awards_eq_ok_iff] at hd hd'
    exact Except.ok.inj (hd.symm.trans hd')
  · cases hawards : awards body with
    | ok d => exact absurd (awards_eq_ok_iff.1 hawards) (hnone d)
    | error e => exact ⟨e, rfl⟩

end Response
end AwardsDesk
