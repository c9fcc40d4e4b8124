import AwardsDesk.Proofs.Json.Documents
import AwardsDesk.Proofs.Json.Fields
import AwardsDesk.Proofs.Json.Numbers

/-!
# Values that represent structures

What a value has to be to represent a structure is said field by field: what may stand for the
value of the field, and whether nothing has to stand for it.  A schema reads a structure from
just the values that represent it.

Main definitions:

- Structure {lit}`Entry`: a field of a structure with its value.
- Definition {lit}`Value.Represents`: a record or a list gives every field its value.
- Inductive type {lit}`Value.Orderly`: values whose records list their members in order.
- Structure {lit}`Schema.Reads`: a schema reads what the values represent.

Main results:

- Theorem {lit}`Tree.orderly_of_value?`: the value of a document is orderly.
- Theorems {lit}`Schema.Reads.field` and {lit}`Schema.Reads.optional`: one more field.
- Theorem {lit}`Schema.Reads.read_eq_ok_iff`: a schema reads just the values that represent a
  structure.
-/

namespace AwardsDesk
namespace Json

/-! ## Results -/

section Results

variable {ε α β : Type} {e : Except ε α} {b : β}

/-- What is made of a result is there if the result is. -/
theorem map_eq_ok_iff {f : α → β} : e.map f = .ok b ↔ ∃ a, e = .ok a ∧ f a = b := by
  cases e <;> simp [Except.map]

/-- The second of two results is there if the first one is. -/
theorem bind_eq_ok_iff {f : α → Except ε β} : e >>= f = .ok b ↔ ∃ a, e = .ok a ∧ f a = .ok b := by
  cases e <;> simp [bind, Except.bind]

end Results

/-! ## Entries of structures -/

/-- A field of a structure with its value: what may stand for the value at the place of the
field, and when nothing has to stand there. -/
structure Entry (ν : Type) where
  name : String
  given : ν → Prop
  absent : Prop

namespace Entry

variable {ν : Type}

/-- What is found at the place of a field gives it its value. -/
def Holds (p : Entry ν) : Option ν → Prop
  | some v => p.given v
  | none => p.absent

/-- A field that has to be there. -/
def needed (name : String) (given : ν → Prop) : Entry ν where
  name := name
  given := given
  absent := False

/-- A field that may be left out. -/
def spare (name : String) (given : ν → Prop) (absent : Prop) : Entry ν where
  name := name
  given := given
  absent := absent

end Entry

/-! ## Values of fields -/

namespace Value

variable {α : Type}

/-- A truth value. -/
def IsBool (b : Bool) (v : Value) : Prop :=
  v = .bool b

/-- Text. -/
def IsText (s : String) (v : Value) : Prop :=
  v = .str s

/-- A number of 64 bits. -/
def IsUInt64 (u : UInt64) (v : Value) : Prop :=
  ∃ n, v = .num n ∧ n.IsNat u.toNat

/-- A number of 32 bits. -/
def IsUInt32 (u : UInt32) (v : Value) : Prop :=
  ∃ n, v = .num n ∧ n.IsNat u.toNat

/-- Null, or what stands for something. -/
def OrNull (given : α → Value → Prop) : Option α → Value → Prop
  | none, v => v = .null
  | some a, v => given a v

/-- A list of what stands for the items. -/
def ListOf (given : α → Value → Prop) (as : List α) (v : Value) : Prop :=
  ∃ vs, v = .list vs ∧ List.Forall₂ given as vs

/-- A record represents a structure if its members do, whatever other members it has; a list does
if its items are the fields in order, of which the last ones may be left out. -/
def Represents (entries : List (Entry Value)) : Value → Prop
  | .record members => ∀ p ∈ entries, p.Holds (Members.get? members p.name)
  | .list items => items.length ≤ entries.length ∧
      ∀ (i : Nat) (p : Entry Value), entries[i]? = some p → p.Holds items[i]?
  | _ => False

/-- A value whose records list their members in the order of their keys. -/
inductive Orderly : Value → Prop where
  | null : Orderly .null
  | bool (b : Bool) : Orderly (.bool b)
  | num (n : Numeral) : Orderly (.num n)
  | str (s : String) : Orderly (.str s)
  | list {items : List Value} (orderly : ∀ v ∈ items, Orderly v) : Orderly (.list items)
  | record {members : List (String × Value)} (sorted : Members.Sorted members)
      (orderly : ∀ m ∈ members, Orderly m.2) : Orderly (.record members)

end Value

/-- What is found is a member. -/
theorem Members.mem_of_get? {members : List (String × Value)} {key : String} {v : Value}
    (h : get? members key = some v) : (key, v) ∈ members := by
  induction members with
  | nil => cases h
  | cons m members ih =>
      rcases m with ⟨k, w⟩
      rw [get?] at h
      split_ifs at h with hkey
      · cases h
        subst hkey
        exact List.mem_cons_self
      · exact List.mem_cons_of_mem _ (ih h)

/-- The value of a document is orderly. -/
theorem Tree.orderly_of_value? {t : Tree} {room : Nat} {v : Value} (h : t.value? room = some v) :
    v.Orderly := by
  induction t using Tree.induction generalizing room v with
  | null =>
      cases h
      exact .null
  | bool b =>
      cases h
      exact .bool b
  | num n =>
      rw [value?] at h
      split_ifs at h
      cases h
      exact .num n
  | str s =>
      rcases Option.map_eq_some_iff.1 h with ⟨s, -, rfl⟩
      exact .str s
  | list items whole ih =>
      rw [value?] at h
      split_ifs at h
      rcases Option.map_eq_some_iff.1 h with ⟨vs, hvs, rfl⟩
      refine .list fun v hv => ?_
      rcases (exists_of_values? hvs).2 v hv with ⟨t, ht, htv⟩
      exact ih t ht htv
  | record members whole ih =>
      rw [value?] at h
      split_ifs at h
      rcases Option.map_eq_some_iff.1 h with ⟨vs, hvs, rfl⟩
      refine .record (Members.sorted_ofList vs) fun n hn => ?_
      rcases (exists_of_memberValues? hvs).2 n (Members.mem_of_mem_ofList hn) with ⟨m, hm, hmn⟩
      exact ih m hm hmn
  | broken => cases h

/-! ## Readers -/

namespace Reader

variable {α : Type} {r : Reader α} {given : α → Value → Prop}

/-- Something is read from just the values that stand for it. -/
def Reads (r : Reader α) (given : α → Value → Prop) : Prop :=
  ∀ v, v.Orderly → ∀ a, r v = .ok a ↔ given a v

/-- Truth values are read. -/
theorem reads_bool : Reads bool Value.IsBool := by
  intro v _ b
  cases v <;> simp [bool, Value.IsBool]

/-- Text is read. -/
theorem reads_text : Reads text Value.IsText := by
  intro v _ s
  cases v <;> simp [text, Value.IsText]

/-- Natural numbers below a bound are read. -/
theorem natBelow_eq_ok_iff {bound : Nat} (hbound : bound ≤ UInt64.size) {v : Value} {k : Nat} :
    natBelow bound v = .ok k ↔ k < bound ∧ ∃ n, v = .num n ∧ n.IsNat k := by
  cases v with
  | num n =>
      have hnat : (∃ m, Value.num n = .num m ∧ m.IsNat k) ↔ n.IsNat k := by simp
      rw [hnat]
      constructor
      · intro h
        simp only [natBelow] at h
        split at h
        · rename_i j hj
          split_ifs at h with hlt
          cases h
          exact ⟨hlt, (Numeral.int?_eq_some_iff.1 hj).1⟩
        · cases h
        · cases h
      · rintro ⟨hlt, hk⟩
        have hint := Numeral.int?_eq_some_iff.2 ⟨hk, Nat.lt_of_lt_of_le hlt hbound⟩
        simp [natBelow, hint, hlt]
  | null | bool | str | list | record => simp [natBelow]

/-- Numbers of 64 bits are read. -/
theorem reads_uint64 : Reads uint64 Value.IsUInt64 := by
  intro v _ u
  rw [uint64, map_eq_ok_iff]
  constructor
  · rintro ⟨k, hk, rfl⟩
    rcases (natBelow_eq_ok_iff le_rfl).1 hk with ⟨hlt, n, rfl, hn⟩
    exact ⟨n, rfl, by rwa [UInt64.toNat_ofNat_of_lt' hlt]⟩
  · rintro ⟨n, rfl, hn⟩
    exact ⟨u.toNat, (natBelow_eq_ok_iff le_rfl).2 ⟨u.toNat_lt, n, rfl, hn⟩, UInt64.ofNat_toNat⟩

/-- Numbers of 32 bits are read. -/
theorem reads_uint32 : Reads uint32 Value.IsUInt32 := by
  have hbound : UInt32.size ≤ UInt64.size := by decide
  intro v _ u
  rw [uint32, map_eq_ok_iff]
  constructor
  · rintro ⟨k, hk, rfl⟩
    rcases (natBelow_eq_ok_iff hbound).1 hk with ⟨hlt, n, rfl, hn⟩
    exact ⟨n, rfl, by rwa [UInt32.toNat_ofNat_of_lt' hlt]⟩
  · rintro ⟨n, rfl, hn⟩
    exact ⟨u.toNat, (natBelow_eq_ok_iff hbound).2 ⟨u.toNat_lt, n, rfl, hn⟩, UInt32.ofNat_toNat⟩

/-- Null is read as nothing. -/
theorem Reads.orNull (h : r.Reads given) (hnull : ∀ a, ¬given a .null) :
    Reads (orNull r) (Value.OrNull given) := by
  intro v hv o
  by_cases hne : v = .null
  · subst hne
    cases o <;> simp [Reader.orNull, Value.OrNull, hnull]
  · have heq : Reader.orNull r v = (r v).map some := by
      unfold Reader.orNull
      split
      · exact absurd rfl hne
      · rfl
    rw [heq, map_eq_ok_iff]
    cases o with
    | none => simp [Value.OrNull, hne]
    | some a => simpa [Value.OrNull] using h v hv a

/-- Lists are read item by item. -/
theorem Reads.listOf (h : r.Reads given) : Reads (listOf r) (Value.ListOf given) := by
  have hitems : ∀ vs : List Value, (∀ v ∈ vs, v.Orderly) → ∀ as,
      items r vs = .ok as ↔ List.Forall₂ given as vs := by
    intro vs
    induction vs with
    | nil => simp [items, eq_comm]
    | cons v vs ih =>
        intro horderly as
        rcases List.forall_mem_cons.1 horderly with ⟨hv, hvs⟩
        simp only [items, bind_eq_ok_iff, h v hv, ih hvs, List.forall₂_cons_right_iff, pure,
          Except.pure, Except.ok.injEq]
        constructor
        · rintro ⟨a, ha, as', has, rfl⟩
          exact ⟨a, as', ha, has, rfl⟩
        · rintro ⟨a, as', ha, has, rfl⟩
          exact ⟨a, ha, as', has, rfl⟩
  intro v hv as
  cases hv with
  | list orderly => simpa [Reader.listOf, Value.ListOf] using hitems _ orderly as
  | null | bool | num | str | record => simp [Reader.listOf, Value.ListOf]

end Reader

/-! ## Schemas -/

namespace Schema

variable {α β γ : Type} {build : γ → α} {entries : γ → List (Entry Value)}

/-- A schema puts a structure together from values for its fields, just if each field has its
value at its place. -/
structure Reads (s : Schema α) (build : γ → α) (entries : γ → List (Entry Value)) : Prop where
  ofMembers : ∀ members : String → Option Value, (∀ key v, members key = some v → v.Orderly) →
    ∀ a, s.ofMembers members = .ok a ↔
      ∃ g, build g = a ∧ ∀ p ∈ entries g, p.Holds (members p.name)
  /-- A record from which the structure can be put together passes all checks. -/
  check : ∀ members : String → Option Value, ∀ a, s.ofMembers members = .ok a →
    ∀ key v, members key = some v → s.check key v = .ok ()
  ofItems : ∀ vs : List Value, (∀ v ∈ vs, v.Orderly) → ∀ a rest, s.ofItems vs = .ok (a, rest) ↔
    ∃ g, build g = a ∧ rest = vs.drop (entries g).length ∧
      ∀ (i : Nat) (p : Entry Value), (entries g)[i]? = some p → p.Holds vs[i]?

/-- The schema without fields. -/
theorem reads_const (a : α) : (const a).Reads (fun _ : Unit => a) fun _ => [] where
  ofMembers := by simp [const]
  check := fun _ _ _ _ _ _ => rfl
  ofItems := by simp [const, eq_comm]

/-- One more place in a list. -/
theorem holds_concat_iff {ps : List (Entry Value)} {q : Entry Value} {vs : List Value} :
    (∀ (i : Nat) (p : Entry Value), (ps ++ [q])[i]? = some p → p.Holds vs[i]?) ↔
      (∀ (i : Nat) (p : Entry Value), ps[i]? = some p → p.Holds vs[i]?) ∧
        q.Holds vs[ps.length]? := by
  constructor
  · intro h
    refine ⟨fun i p hp => h i p ?_, h ps.length q (by simp)⟩
    rw [List.getElem?_append_left (List.getElem?_eq_some_iff.1 hp).1]
    exact hp
  · rintro ⟨hps, hq⟩ i p hp
    rcases Nat.lt_trichotomy i ps.length with hlt | rfl | hgt
    · rw [List.getElem?_append_left hlt] at hp
      exact hps i p hp
    · obtain rfl : q = p := by simpa using hp
      exact hq
    · rw [List.getElem?_eq_none (by simp; omega)] at hp
      cases hp

section Next

variable {s : Schema (β → α)} {build : γ → β → α} {t : Schema α} {r : Reader β}
  {given : β → Value → Prop} {name : String}

/-- The value of a field, from what is found at its place. -/
def take (r : Reader β) (absent : Except Fault β) : Option Value → Except Fault β
  | some v => r v
  | none => absent

/-- A field takes its value from what may stand for it. -/
theorem take_eq_ok_iff (hr : r.Reads given) {absent : Except Fault β} {out : β → Prop}
    (hout : ∀ b, absent = .ok b ↔ out b) {found : Option Value}
    (hfound : ∀ v, found = some v → v.Orderly) (b : β) :
    take r absent found = .ok b ↔ (Entry.spare name (given b) (out b)).Holds found := by
  cases found with
  | none => exact hout b
  | some v => exact hr v (hfound v rfl) b

/-- One more field, whose value is taken from the member of its name or from the next item. -/
theorem Reads.next (h : s.Reads build entries) (hr : r.Reads given)
    {absent absent' : Except Fault β} {out : β → Prop}
    (hout : ∀ b, absent = .ok b ↔ out b) (hout' : ∀ b, absent' = .ok b ↔ out b)
    (hmembers : ∀ members, t.ofMembers members =
      s.ofMembers members >>= fun f => (take r absent (members name)).map f)
    (hcheck : ∀ key v, t.check key v =
      s.check key v >>= fun _ => if key = name then discard (r v) else .ok ())
    (hitems : ∀ vs, t.ofItems vs =
      s.ofItems vs >>= fun x => (take r absent' x.2.head?).map fun b => (x.1 b, x.2.tail)) :
    t.Reads (fun g : γ × β => build g.1 g.2)
      fun g => entries g.1 ++ [.spare name (given g.2) (out g.2)] where
  ofMembers := by
    intro members horderly a
    have htake : ∀ b, take r absent (members name) = .ok b ↔
        (Entry.spare name (given b) (out b)).Holds (members name) :=
      take_eq_ok_iff hr hout (horderly name)
    simp only [hmembers, bind_eq_ok_iff, map_eq_ok_iff, htake]
    constructor
    · rintro ⟨f, hf, b, hb, rfl⟩
      rcases (h.ofMembers members horderly f).1 hf with ⟨g, rfl, hg⟩
      refine ⟨(g, b), rfl, fun p hp => ?_⟩
      rcases List.mem_append.1 hp with hp | hp
      · exact hg p hp
      · rwa [List.mem_singleton.1 hp]
    · rintro ⟨⟨g, b⟩, rfl, hg⟩
      refine ⟨build g, (h.ofMembers members horderly _).2 ⟨g, rfl, fun p hp => ?_⟩, b, ?_, rfl⟩
      · exact hg p (List.mem_append_left _ hp)
      · exact hg _ (by simp)
  check := by
    intro members a ha key v hv
    rw [hmembers, bind_eq_ok_iff] at ha
    rcases ha with ⟨f, hf, hb⟩
    rcases map_eq_ok_iff.1 hb with ⟨b, hb, -⟩
    rw [hcheck, h.check members f hf key v hv]
    by_cases hkey : key = name
    · rw [← hkey, hv, take] at hb
      simp [hkey, hb, discard, bind, Except.bind, Functor.discard, Functor.mapConst, Except.map]
    · simp [hkey, bind, Except.bind]
  ofItems := by
    intro vs horderly a rest
    have htake : ∀ more : List Value, (∀ v ∈ more, v.Orderly) → ∀ b,
        take r absent' more.head? = .ok b ↔
          (Entry.spare name (given b) (out b)).Holds more.head? := fun more hmore =>
      take_eq_ok_iff hr hout' fun v hv => hmore v (List.mem_of_head? hv)
    simp only [hitems, bind_eq_ok_iff, map_eq_ok_iff, Prod.mk.injEq]
    constructor
    · rintro ⟨⟨f, more⟩, hf, b, hb, rfl, rfl⟩
      rcases (h.ofItems vs horderly f more).1 hf with ⟨g, rfl, rfl, hg⟩
      rw [htake _ fun v hv => horderly v (List.mem_of_mem_drop hv), List.head?_drop] at hb
      exact ⟨(g, b), rfl, by simp, holds_concat_iff.2 ⟨hg, hb⟩⟩
    · rintro ⟨⟨g, b⟩, rfl, rfl, hg⟩
      rcases holds_concat_iff.1 hg with ⟨hentries, hb⟩
      refine ⟨(build g, _), (h.ofItems vs horderly _ _).2 ⟨g, rfl, rfl, hentries⟩, b, ?_, rfl,
        by simp⟩
      rwa [htake _ fun v hv => horderly v (List.mem_of_mem_drop hv), List.head?_drop]

/-- One more field that has to be there. -/
theorem Reads.field (h : s.Reads build entries) (hr : r.Reads given) :
    (s.field name r).Reads (fun g : γ × β => build g.1 g.2)
      fun g => entries g.1 ++ [.needed name (given g.2)] := by
  have hmissing : ∀ b : β, Except.error (Fault.missingField name) = .ok b ↔ False := by simp
  have hlength : ∀ b : β, Except.error Fault.invalidLength = .ok b ↔ False := by simp
  refine h.next hr hmissing hlength ?_ (fun _ _ => rfl) ?_
  · intro members
    simp only [Schema.field]
    cases members name <;> rfl
  · intro vs
    refine congrArg _ (funext fun x => ?_)
    rcases x with ⟨f, _ | ⟨v, rest⟩⟩ <;> rfl

/-- One more field that may be left out. -/
theorem Reads.optional (h : s.Reads build entries) (hr : r.Reads given) (default : β) :
    (s.optional name r default).Reads (fun g : γ × β => build g.1 g.2)
      fun g => entries g.1 ++ [.spare name (given g.2) (g.2 = default)] := by
  have hdefault : ∀ b : β, (.ok default : Except Fault β) = .ok b ↔ b = default := by simp [eq_comm]
  refine h.next hr hdefault hdefault ?_ (fun _ _ => rfl) ?_
  · intro members
    simp only [Schema.optional]
    cases members name <;> rfl
  · intro vs
    refine congrArg _ (funext fun x => ?_)
    rcases x with ⟨f, _ | ⟨v, rest⟩⟩ <;> rfl

end Next

/-- A schema reads just the values that represent what it puts together. -/
theorem Reads.read_eq_ok_iff {s : Schema α} (h : s.Reads build entries) {v : Value} (hv : v.Orderly)
    (a : α) : s.read v = .ok a ↔ ∃ g, build g = a ∧ v.Represents (entries g) := by
  cases hv with
  | @record members sorted orderly =>
      have hfound : ∀ key v, Members.get? members key = some v → v.Orderly := fun key v hv =>
        orderly _ (Members.mem_of_get? hv)
      simp only [read, bind_eq_ok_iff, h.ofMembers _ hfound, Value.Represents]
      constructor
      · rintro ⟨-, -, hg⟩
        exact hg
      · intro hg
        have hmembers := (h.ofMembers _ hfound a).2 hg
        have hcheck : s.checkAll members = .ok () := Accepts.checkAll fun m hm =>
          h.check _ a hmembers m.1 m.2 (sorted.get?_eq hm)
        exact ⟨(), hcheck, hg⟩
  | @list items orderly =>
      have hread : s.read (.list items) = .ok a ↔ s.ofItems items = .ok (a, []) := by
        simp only [read, bind_eq_ok_iff]
        constructor
        · rintro ⟨⟨b, _ | ⟨v, rest⟩⟩, hitems, hb⟩
          · cases hb
            exact hitems
          · cases hb
        · exact fun hitems => ⟨(a, []), hitems, rfl⟩
      rw [hread, h.ofItems items orderly]
      simp only [Value.Represents, @eq_comm _ [], List.drop_eq_nil_iff]
  | null | bool | num | str => simp [read, Value.Represents]

end Schema
end Json
end AwardsDesk
