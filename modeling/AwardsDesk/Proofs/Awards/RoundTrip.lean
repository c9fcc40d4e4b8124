import AwardsDesk.Awards.Response
import AwardsDesk.Proofs.Json.Fields
import AwardsDesk.Proofs.Json.Written

/-!
# Responses are read back

What is written as a response is read back, with every field that was there and none that was
not.

Main definitions:

- Functions {lit}`Division.written`, {lit}`Award.written`, {lit}`AwardsData.written` and
  {lit}`PickupStatus.written`: records with their members as they are declared.
- Functions {lit}`Response.ofAwards` and {lit}`Response.ofNotes`: whole responses.

Main results:

- Theorems {lit}`Division.read_toValue`, {lit}`Award.read_toValue` and
  {lit}`AwardsData.read_toValue`: a structure is read from its record.
- Theorem {lit}`responses_read_back`: responses of all three kinds are read back.
-/

namespace AwardsDesk

open Json

/-! ## Members that may be left out -/

namespace Json.Members

variable {α : Type}

/-- A member that may be left out is found at its key, if it is there. -/
@[simp]
theorem lookup_reverse_ofOption (key other : String) (write : α → Value) (o : Option α) :
    (ofOption key write o).reverse.lookup other = if other = key then o.map write else none := by
  cases o with
  | none => simp [ofOption]
  | some a =>
      by_cases heq : other = key
      · simp [ofOption, heq]
      · simp [ofOption, List.lookup_cons, heq, beq_false_of_ne heq]

/-- What may be left out is plain if it is there. -/
theorem plain_ofOption {room : Nat} {key : String} {write : α → Value} {o : Option α}
    (h : ∀ a, (write a).Plain room) : ∀ m ∈ ofOption key write o, m.2.Plain room := by
  cases o with
  | none => simp [ofOption]
  | some a => simpa [ofOption] using h a

end Json.Members

/-! ## Divisions -/

namespace Division

/-- A division as it is written. -/
def written (d : Division) : Value :=
  .record d.members

/-- All members of a division are numbers and texts. -/
theorem plain_members (d : Division) : ∀ m ∈ d.members, m.2.Plain 0 := by
  have hnat32 : ∀ n : UInt32, (Value.ofNat n.toNat).Plain 0 := fun n =>
    .nat 0 (Nat.lt_trans n.toNat_lt (by decide))
  have hnat64 : ∀ n : UInt64, (Value.ofNat n.toNat).Plain 0 := fun n => .nat 0 n.toNat_lt
  simp only [members, List.forall_mem_append]
  refine ⟨⟨⟨⟨⟨?_, ?_⟩, ?_⟩, ?_⟩, ?_⟩, ?_⟩
  · simp [hnat64, hnat32, Value.Plain.str]
  · exact Members.plain_ofOption (.str 0)
  · exact Members.plain_ofOption hnat32
  · exact Members.plain_ofOption (.str 0)
  · exact Members.plain_ofOption hnat32
  · exact Members.plain_ofOption hnat32

/-- A division is written as a container of things that are none. -/
theorem plain_written (d : Division) : d.written.Plain 1 :=
  .record d.plain_members

/-- What is found in the record of a division. -/
theorem find_members (d : Division) :
    let find := Members.get? (Members.ofList d.members)
    find "div_id" = some (.ofNat d.divId.toNat) ∧
      find "rsu_div_id" = some (.ofNat d.rsuDivId.toNat) ∧
      find "name" = some (.str d.name) ∧
      find "num_awards" = some (.ofNat d.numAwards.toNat) ∧
      find "shname" = d.shname.map .str ∧
      find "prio" = d.prio.map (fun n => .ofNat n.toNat) ∧
      find "gen" = d.gender.map .str ∧
      find "min" = d.min.map (fun n => .ofNat n.toNat) ∧
      find "max" = d.max.map (fun n => .ofNat n.toNat) := by
  simp [Members.get?_ofList, members, List.lookup_append, List.lookup_cons]

/-- A division is read from its record. -/
theorem read_toValue (d : Division) : schema.read d.toValue = .ok d := by
  rcases d.find_members with
    ⟨hdivId, hrsuDivId, hname, hnumAwards, hshname, hprio, hgender, hmin, hmax⟩
  have hstr : ∀ s, Value.str s ≠ .null := fun s => Value.noConfusion
  have hnat : ∀ n : UInt32, Value.ofNat n.toNat ≠ .null := fun n => Value.noConfusion
  exact Schema.accepts_const Division.mk _
    |>.field hdivId (Reader.uint64_ofNat d.divId)
    |>.field hrsuDivId (Reader.uint64_ofNat d.rsuDivId)
    |>.field hname rfl
    |>.field hnumAwards (Reader.uint32_ofNat d.numAwards)
    |>.orAbsent hshname hstr (fun _ => rfl)
    |>.orAbsent hprio hnat Reader.uint32_ofNat
    |>.orAbsent hgender hstr (fun _ => rfl)
    |>.orAbsent hmin hnat Reader.uint32_ofNat
    |>.orAbsent hmax hnat Reader.uint32_ofNat
    |>.read

/-- The record of a division is what is written, in order. -/
theorem ordered_written (d : Division) : d.written.ordered = d.toValue :=
  congrArg Value.ofMembers (Value.orderedMembers_eq_self d.plain_members)

end Division

/-! ## Awards -/

namespace Award

/-- An award as it is written. -/
def written (a : Award) : Value :=
  .record a.members

/-- All members of an award are numbers, texts, truth values or null. -/
theorem plain_members (a : Award) : ∀ m ∈ a.members, m.2.Plain 0 := by
  have hplace : (Value.ofNat a.place.toNat).Plain 0 :=
    .nat 0 (Nat.lt_trans a.place.toNat_lt (by decide))
  have hnumber : ∀ n : UInt64, (Value.ofNat n.toNat).Plain 0 := fun n => .nat 0 n.toNat_lt
  have hnotes : (a.notes.elim .null .str : Value).Plain 0 := by
    cases a.notes with
    | none => exact .null 0
    | some s => exact .str 0 s
  simp [members, hnumber, hplace, hnotes, Value.Plain.str, Value.Plain.bool]

/-- An award is written as a container of things that are none. -/
theorem plain_written (a : Award) : a.written.Plain 1 :=
  .record a.plain_members

/-- What is found in the record of an award. -/
theorem find_members (a : Award) :
    let find := Members.get? (Members.ofList a.members)
    find "awardee_id" = some (.ofNat a.awardeeId.toNat) ∧
      find "div_id" = some (.ofNat a.divId.toNat) ∧
      find "rsu_div_id" = some (.ofNat a.rsuDivId.toNat) ∧
      find "place" = some (.ofNat a.place.toNat) ∧
      find "name" = some (.str a.name) ∧
      find "bib" = some (.str a.bib) ∧
      find "picked_up" = some (.bool a.pickedUp) ∧
      find "prev_picked_up" = some (.bool a.prevPickedUp) ∧
      find "notes" = some (a.notes.elim .null .str) := by
  simp [Members.get?_ofList, members, List.lookup_cons]

/-- An award is read from its record. -/
theorem read_toValue (a : Award) : schema.read a.toValue = .ok a := by
  rcases a.find_members with
    ⟨hawardeeId, hdivId, hrsuDivId, hplace, hname, hbib, hpickedUp, hprevPickedUp, hnotes⟩
  have hstr : ∀ s, Value.str s ≠ .null := fun s => Value.noConfusion
  have hread : Reader.orNull Reader.text (a.notes.elim .null .str) = .ok a.notes :=
    Reader.orNull_elim hstr (fun s => rfl) a.notes
  exact Schema.accepts_const Award.mk _
    |>.field hawardeeId (Reader.uint64_ofNat a.awardeeId)
    |>.field hdivId (Reader.uint64_ofNat a.divId)
    |>.field hrsuDivId (Reader.uint64_ofNat a.rsuDivId)
    |>.field hplace (Reader.uint32_ofNat a.place)
    |>.field hname rfl
    |>.field hbib rfl
    |>.field hpickedUp rfl
    |>.field hprevPickedUp rfl
    |>.optional (fun v hv => by rw [Option.some.inj (hv.symm.trans hnotes), hread])
      (fun hnone => by rw [hnotes] at hnone; cases hnone)
    |>.read

/-- The record of an award is what is written, in order. -/
theorem ordered_written (a : Award) : a.written.ordered = a.toValue :=
  congrArg Value.ofMembers (Value.orderedMembers_eq_self a.plain_members)

end Award

/-! ## The awards of an event -/

namespace AwardsData

/-- The awards of an event as they are written. -/
def written (d : AwardsData) : Value :=
  .record (d.members Division.written Award.written)

/-- The record of the awards of an event is what is written, in order. -/
theorem ordered_written (d : AwardsData) : d.written.ordered = d.toValue := by
  have hentry : ∀ entry : Option Division,
      (entry.elim .null Division.written).ordered = entry.elim .null Division.toValue := by
    intro entry
    cases entry with
    | none => rfl
    | some d => exact d.ordered_written
  have hrow : ∀ row : List (Option Division),
      (Value.list (row.map fun entry => entry.elim .null Division.written)).ordered =
        .list (row.map fun entry => entry.elim .null Division.toValue) := by
    intro row
    simp [Value.ordered, Value.orderedItems_eq, hentry]
  have hmembers : Value.orderedMembers (d.members Division.written Award.written) =
      d.members Division.toValue Award.toValue := by
    cases hdivisions : d.divisions with
    | none =>
        simp [members, hdivisions, Members.ofOption, Value.orderedMembers, Value.ordered,
          Value.orderedItems_eq, Award.ordered_written]
    | some rows =>
        simp only [members, hdivisions, Members.ofOption, Value.orderedMembers, Value.ordered,
          Value.orderedItems_eq, List.map_map, Function.comp_def, hentry, Award.ordered_written,
          List.cons_append, List.nil_append]
  exact congrArg Value.ofMembers hmembers

/-- The awards of an event are written as containers four deep. -/
theorem plain_written (d : AwardsData) : d.written.Plain 4 := by
  have hentry : ∀ entry : Option Division, (entry.elim .null Division.written).Plain 1 := by
    intro entry
    cases entry with
    | none => exact .null 1
    | some d => exact d.plain_written
  have hawards : (Value.list (d.awards.map Award.written)).Plain 2 := by
    refine .list fun v hv => ?_
    rcases List.mem_map.1 hv with ⟨a, -, rfl⟩
    exact a.plain_written
  refine .record (List.forall_mem_append.2 ⟨Members.plain_ofOption fun rows => ?_, ?_⟩)
  · refine .list fun v hv => ?_
    rcases List.mem_map.1 hv with ⟨row, -, rfl⟩
    refine .list fun v hv => ?_
    rcases List.mem_map.1 hv with ⟨entry, -, rfl⟩
    exact hentry entry
  · simpa using hawards.mono (Nat.le_succ 2)

/-- What is found in the record of the awards of an event. -/
theorem find_members (d : AwardsData) :
    let find := Members.get? (Members.ofList (d.members Division.toValue Award.toValue))
    find "divisions" = d.divisions.map (fun rows => .list (rows.map fun row =>
        .list (row.map fun entry => entry.elim .null Division.toValue))) ∧
      find "awards" = some (.list (d.awards.map Award.toValue)) := by
  simp [Members.get?_ofList, members, List.lookup_cons]

/-- The awards of an event are read from their record. -/
theorem read_toValue (d : AwardsData) : schema.read d.toValue = .ok d := by
  rcases d.find_members with ⟨hdivisions, hawards⟩
  have hentry : ∀ entry : Option Division,
      Reader.orNull Division.schema.read (entry.elim .null Division.toValue) = .ok entry :=
    Reader.orNull_elim (fun d => Value.noConfusion) Division.read_toValue
  exact Schema.accepts_const AwardsData.mk _
    |>.orAbsent hdivisions (fun rows => Value.noConfusion)
      (Reader.listOf_map (Reader.listOf_map hentry))
    |>.optional
      (fun v hv => by
        rw [Option.some.inj (hv.symm.trans hawards), Reader.listOf_map Award.read_toValue])
      (fun hnone => by rw [hawards] at hnone; cases hnone)
    |>.read

end AwardsData

/-! ## The state of an award -/

namespace PickupStatus

/-- The state of an award as it is written. -/
def written (s : PickupStatus) : Value :=
  .record s.members

/-- The state of an award is written as two truth values. -/
theorem plain_members (s : PickupStatus) : ∀ m ∈ s.members, m.2.Plain 0 := by
  simp [members, Value.Plain.bool]

/-- The record of the state of an award is what is written, in order. -/
theorem ordered_written (s : PickupStatus) : s.written.ordered = s.toValue :=
  congrArg Value.ofMembers (Value.orderedMembers_eq_self s.plain_members)

/-- The state of an award is read from its record. -/
theorem read_toValue (s : PickupStatus) : schema.read s.toValue = .ok s := by
  have hpickedUp : Members.get? (Members.ofList s.members) "picked_up" =
      some (.bool s.pickedUp) := by
    simp [Members.get?_ofList, members, List.lookup_cons]
  have hprevPickedUp : Members.get? (Members.ofList s.members) "prev_picked_up" =
      some (.bool s.prevPickedUp) := by
    simp [Members.get?_ofList, members]
  exact Schema.accepts_const PickupStatus.mk _
    |>.field hpickedUp rfl
    |>.optional (fun v hv => by rw [Option.some.inj (hv.symm.trans hprevPickedUp)]; rfl)
      (fun hnone => by rw [hprevPickedUp] at hnone; cases hnone)
    |>.read

end PickupStatus

/-! ## Responses -/

namespace Response

/-- A response that reports no failure is taken for what is written. -/
theorem envelope_render {v : Value} (h : v.Plain maxDepth) (hsound : failure? v.ordered = none) :
    envelope v.render = .ok v.ordered := by
  simp only [envelope, h.ofText?_render, hsound]

/-- A response that is written in order is taken for the same. -/
theorem envelope_render_ordered {v : Value} (h : v.Plain maxDepth)
    (hsound : failure? v.ordered = none) : envelope v.ordered.render = .ok v.ordered := by
  have hagain := envelope_render h.ordered (h.ordered_ordered.symm ▸ hsound)
  rwa [h.ordered_ordered] at hagain

/-! ### Awards -/

/-- The response to a request for the awards of an event. -/
def ofAwards (d : AwardsData) : Value :=
  .record [("status", .str "success"), ("data", d.written)]

/-- What the response holds, in order. -/
theorem ordered_ofAwards (d : AwardsData) :
    (ofAwards d).ordered = .ofMembers [("status", .str "success"), ("data", d.toValue)] := by
  simp [ofAwards, Value.ordered, Value.orderedMembers, d.ordered_written]

/-- The response is nested five deep. -/
theorem plain_ofAwards (d : AwardsData) : (ofAwards d).Plain maxDepth := by
  refine Value.Plain.mono (.record ?_) (show 4 + 1 ≤ maxDepth by decide)
  simp [d.plain_written, Value.Plain.str]

/-- The response reports no failure. -/
theorem failure?_ofAwards (d : AwardsData) : failure? (ofAwards d).ordered = none := by
  rw [ordered_ofAwards]
  simp [failure?, Value.ofMembers, Value.member?, Members.get?_ofList, List.lookup_cons, Value.text?]

/-- The awards are read from the member of the response that holds them. -/
theorem awards_of_envelope {body : String} {d : AwardsData}
    (h : envelope body = .ok (ofAwards d).ordered) : awards body = .ok d := by
  have hdata : (ofAwards d).ordered.member? "data" = some d.toValue := by
    rw [ordered_ofAwards]
    simp [Value.ofMembers, Value.member?, Members.get?_ofList]
  have hread : decode AwardsData.schema d.toValue = .ok d := by
    rw [decode, d.read_toValue]
    rfl
  simp only [awards, h, bind, Except.bind, hdata, hread]

/-! ### The state of an award -/

/-- The response reports no failure. -/
theorem failure?_written (s : PickupStatus) : failure? s.written.ordered = none := by
  rw [s.ordered_written]
  simp [failure?, PickupStatus.toValue, PickupStatus.members, Value.ofMembers, Value.member?,
    Members.get?_ofList, List.lookup_cons]

/-- The state of an award is read from the whole response. -/
theorem pickup_of_envelope {body : String} {s : PickupStatus}
    (h : envelope body = .ok s.written.ordered) : pickup body = .ok s := by
  have hread : decode PickupStatus.schema s.written.ordered = .ok s := by
    rw [s.ordered_written, decode, s.read_toValue]
    rfl
  simp only [pickup, h, bind, Except.bind, hread]

/-! ### Notes -/

/-- The response to a request for notes. -/
def ofNotes (text : String) : Value :=
  .record [("notes", .str text)]

/-- Notes are read back. -/
theorem notes_ofNotes (text : String) : notes (ofNotes text).render = .ok text := by
  have hordered : (ofNotes text).ordered = .ofMembers [("notes", .str text)] := rfl
  have hplain : (ofNotes text).Plain maxDepth := .record (by simp [Value.Plain.str])
  have hsound : failure? (ofNotes text).ordered = none := rfl
  have hnotes : Members.get? (Members.ofList [("notes", .str text)]) "notes" =
      some (.str text) := rfl
  have hread : notesSchema.read (.ofMembers [("notes", .str text)]) = .ok text :=
    Schema.accepts_const id _
      |>.optional (fun v hv => by rw [Option.some.inj (hv.symm.trans hnotes)]; rfl)
        (fun hnone => by rw [hnotes] at hnone; cases hnone)
      |>.read
  simp only [notes, envelope_render hplain hsound, bind, Except.bind, decode, hordered, hread]
  rfl

end Response

/-- Responses are read back whether the members of their records are written as they are
declared or in the order of their keys. -/
theorem responses_read_back :
    (∀ d : AwardsData, Response.awards (Response.ofAwards d).render = .ok d ∧
      Response.awards (Response.ofAwards d).ordered.render = .ok d) ∧
    (∀ s : PickupStatus, Response.pickup s.written.render = .ok s ∧
      Response.pickup s.toValue.render = .ok s) ∧
    ∀ text : String, Response.notes (Response.ofNotes text).render = .ok text := by
  refine ⟨fun d => ?_, fun s => ?_, Response.notes_ofNotes⟩
  · have hplain := Response.plain_ofAwards d
    have hsound := Response.failure?_ofAwards d
    exact ⟨Response.awards_of_envelope (Response.envelope_render hplain hsound),
      Response.awards_of_envelope (Response.envelope_render_ordered hplain hsound)⟩
  · have hplain : s.written.Plain maxDepth :=
      Value.Plain.mono (.record s.plain_members) (show 0 + 1 ≤ maxDepth by decide)
    have hsound := Response.failure?_written s
    rw [← s.ordered_written]
    exact ⟨Response.pickup_of_envelope (Response.envelope_render hplain hsound),
      Response.pickup_of_envelope (Response.envelope_render_ordered hplain hsound)⟩

example : (Response.ofNotes "8\t\"").render = "\x7b\"notes\":\"8\\t\\\"\"\x7d" := by
  decide +kernel

end AwardsDesk
