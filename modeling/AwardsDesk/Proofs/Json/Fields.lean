import AwardsDesk.Json.Schema
import AwardsDesk.Proofs.Json.Members

/-!
# Fields that are read back

A structure is read from the members of a record if every member that is there is accepted and
every field gets its value.  This is shown field by field, along the schema.

Main definitions:

- Structure {lit}`Schema.Accepts`: a schema puts a structure together from members.

Main results:

- Theorems {lit}`Schema.Accepts.field` and {lit}`Schema.Accepts.optional`: one more field.
- Theorem {lit}`Schema.Accepts.read`: the structure is read from the record.
- Theorem {lit}`Reader.listOf_map`: a list is read if its items are.
-/

namespace AwardsDesk
namespace Json

/-! ## Readers -/

namespace Reader

variable {α : Type} {r : Reader α} {v : Value}

/-- A number of 64 bits is read back. -/
theorem uint64_ofNat (n : UInt64) : uint64 (.ofNat n.toNat) = .ok n := by
  have hlt : n.toNat < UInt64.size := n.toNat_lt
  have hread : natBelow UInt64.size (.ofNat n.toNat) = .ok n.toNat := by
    simp [Value.ofNat, natBelow, Numeral.int?_ofNat hlt, hlt]
  rw [uint64, hread]
  exact congrArg Except.ok (UInt64.ofNat_toNat)

/-- A number of 32 bits is read back. -/
theorem uint32_ofNat (n : UInt32) : uint32 (.ofNat n.toNat) = .ok n := by
  have hlt : n.toNat < UInt32.size := n.toNat_lt
  have hread : natBelow UInt32.size (.ofNat n.toNat) = .ok n.toNat := by
    have hlt64 : n.toNat < UInt64.size := Nat.lt_trans hlt (by decide)
    simp [Value.ofNat, natBelow, Numeral.int?_ofNat hlt64, hlt]
  rw [uint32, hread]
  exact congrArg Except.ok (UInt32.ofNat_toNat)

/-- What is there is read as it would be without null. -/
theorem orNull_eq {a : α} (hne : v ≠ .null) (h : r v = .ok a) : orNull r v = .ok (some a) := by
  unfold orNull
  split
  · exact absurd rfl hne
  · rw [h]
    rfl

/-- Nothing is written as null. -/
theorem orNull_elim {write : α → Value} (hne : ∀ a, write a ≠ .null) (h : ∀ a, r (write a) = .ok a)
    (o : Option α) : orNull r (o.elim .null write) = .ok o := by
  cases o with
  | none => rfl
  | some a => exact orNull_eq (hne a) (h a)

/-- A list is read if its items are. -/
theorem listOf_map {write : α → Value} (h : ∀ a, r (write a) = .ok a) (as : List α) :
    listOf r (.list (as.map write)) = .ok as := by
  induction as with
  | nil => rfl
  | cons a as ih =>
      have hrest : items r (as.map write) = .ok as := ih
      rw [List.map_cons, listOf, items, h, hrest]
      rfl

end Reader

/-! ## Schemas -/

namespace Schema

variable {α β : Type} {members : String → Option Value} {name : String}

/-- A schema accepts all members that are there, and puts a structure together from them. -/
structure Accepts (s : Schema α) (members : String → Option Value) (a : α) : Prop where
  check : ∀ key v, members key = some v → s.check key v = .ok ()
  ofMembers : s.ofMembers members = .ok a

/-- The schema without fields accepts all members. -/
theorem accepts_const (a : α) (members : String → Option Value) :
    (const a).Accepts members a where
  check := fun _ _ _ => rfl
  ofMembers := rfl

namespace Accepts

variable {f : β → α} {r : Reader β} {b default : β}

/-- One more field that has to be there. -/
theorem field {s : Schema (β → α)} (h : s.Accepts members f) {v : Value}
    (hv : members name = some v) (hr : r v = .ok b) :
    (s.field name r).Accepts members (f b) where
  check := by
    intro key w hw
    simp only [Schema.field, h.check key w hw]
    split
    · rename_i hkey
      obtain rfl : v = w := Option.some.inj (hv.symm.trans (hkey ▸ hw))
      rw [hr]
      rfl
    · rfl
  ofMembers := by
    simp only [Schema.field, h.ofMembers, hv, hr]
    rfl

/-- One more field that may be left out. -/
theorem optional {s : Schema (β → α)} (h : s.Accepts members f)
    (hv : ∀ v, members name = some v → r v = .ok b) (hnone : members name = none → default = b) :
    (s.optional name r default).Accepts members (f b) where
  check := by
    intro key w hw
    simp only [Schema.optional, h.check key w hw]
    split
    · rename_i hkey
      rw [hv w (hkey ▸ hw)]
      rfl
    · rfl
  ofMembers := by
    cases hname : members name with
    | none =>
        simp only [Schema.optional, h.ofMembers, hname, hnone hname]
        rfl
    | some v =>
        simp only [Schema.optional, h.ofMembers, hname, hv v hname]
        rfl

/-- One more field that is left out if there is nothing to write. -/
theorem orAbsent {s : Schema (Option β → α)} {f : Option β → α} (h : s.Accepts members f)
    {write : β → Value} {o : Option β} (hname : members name = o.map write)
    (hne : ∀ b, write b ≠ .null) (hr : ∀ b, r (write b) = .ok b) :
    (s.optional name (Reader.orNull r) none).Accepts members (f o) := by
  cases o with
  | none =>
      refine h.optional (fun v hv => ?_) fun _ => rfl
      rw [hname] at hv
      cases hv
  | some b =>
      refine h.optional (fun v hv => ?_) fun hnone => ?_
      · obtain rfl := Option.some.inj (hname.symm.trans hv)
        exact Reader.orNull_eq (hne b) (hr b)
      · rw [hname] at hnone
        cases hnone

/-- The members of a record are accepted one by one. -/
theorem checkAll {s : Schema α} {ms : List (String × Value)}
    (h : ∀ m ∈ ms, s.check m.1 m.2 = .ok ()) : s.checkAll ms = .ok () := by
  induction ms with
  | nil => rfl
  | cons m ms ih =>
      rw [Schema.checkAll, h m List.mem_cons_self]
      exact ih fun n hn => h n (List.mem_cons_of_mem _ hn)

/-- The structure is read from the record. -/
theorem read {s : Schema α} {a : α} {ms : List (String × Value)}
    (h : s.Accepts (Members.get? (Members.ofList ms)) a) : s.read (.ofMembers ms) = .ok a := by
  have hcheck : s.checkAll (Members.ofList ms) = .ok () :=
    checkAll fun m hm => h.check m.1 m.2 ((Members.sorted_ofList ms).get?_eq hm)
  rw [Value.ofMembers, Schema.read, hcheck]
  exact h.ofMembers

end Accepts
end Schema
end Json
end AwardsDesk
