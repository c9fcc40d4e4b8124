import AwardsDesk.Proofs.Json.Entries
import Mathlib.Data.List.Forall2
import Mathlib.Data.List.Sort

/-!
# What documents say

Two documents say the same if they differ only in how they are written: in the order of members, and
in members that are overridden by later ones of their keys.  White space and escapes do not reach
the document at all.  Documents that say the same stand for the same value, and the other way round,
as long as both fit the limits of the reader.

Main definitions:

- Function {lit}`Tree.member?`: the last member of a key in a document.
- Inductive type {lit}`Tree.Same`: documents that say the same.
- Inductive type {lit}`Tree.Fits`: a document keeps to the limits of the reader.
- Structure {lit}`Tree.DenotedBy`: a text spells a document that fits.

Main results:

- Theorem {lit}`Tree.exists_value?_iff`: just the documents that fit stand for values.
- Theorem {lit}`Tree.same_iff`: documents that fit say the same if they stand for the same value.
- Theorem {lit}`Value.ofText?_of_denotedBy`: a text stands for the value of the document that it
  denotes.
-/

namespace AwardsDesk
namespace Json

namespace Members

variable {members members' : List (String × Value)}

/-- Just the members that are there are found. -/
theorem Sorted.mem_iff (h : Sorted members) (m : String × Value) :
    m ∈ members ↔ get? members m.1 = some m.2 :=
  ⟨h.get?_eq, mem_of_get?⟩

/-- Members in order are the same if the same is found among them. -/
theorem Sorted.ext (h : Sorted members) (h' : Sorted members')
    (hget : ∀ key, get? members key = get? members' key) : members = members' := by
  have hantisymm : Std.Antisymm fun m n : String × Value => m.1 < n.1 :=
    ⟨fun m n hlt hlt' => absurd hlt (lt_asymm hlt')⟩
  have hirrefl : Std.Irrefl fun m n : String × Value => m.1 < n.1 :=
    ⟨fun m => lt_irrefl m.1⟩
  refine (List.pairwise_map.1 h).eq_of_mem_iff (List.pairwise_map.1 h') fun m => ?_
  rw [h.mem_iff, h'.mem_iff, hget]

end Members

namespace Tree

/-! ## Documents that say the same -/

/-- The last of the members of a key. -/
def last? (members : List (Option String × Tree)) (key : String) : Option Tree :=
  members.reverse.lookup (some key)

/-- The last of the members of a key in a record; other documents have none. -/
def member? : Tree → String → Option Tree
  | record members _, key => last? members key
  | _, _ => none

/-- Documents that say the same: lists with the same entries one by one, and records with the same
last member at every key. -/
inductive Same : Tree → Tree → Prop where
  | null : Same .null .null
  | bool (b : Bool) : Same (.bool b) (.bool b)
  | num (n : Numeral) : Same (.num n) (.num n)
  | str (s : Option String) : Same (.str s) (.str s)
  | list {items items' : List Tree} (length_eq : items.length = items'.length)
      (entries : ∀ i (h : i < items.length) (h' : i < items'.length),
        Same (items.get ⟨i, h⟩) (items'.get ⟨i, h'⟩)) :
      Same (.list items true) (.list items' true)
  | record {members members' : List (Option String × Tree)}
      (keys : ∀ key, (last? members key).isSome = (last? members' key).isSome)
      (entries : ∀ key t u, last? members key = some t → last? members' key = some u → Same t u) :
      Same (.record members true) (.record members' true)

/-! ## Documents that fit -/

/-- A document keeps to the limits of the reader: no number is too large, all strings and keys stand
for text, and containers are nested no deeper than there is room for. -/
inductive Fits : Nat → Tree → Prop where
  | null (room : Nat) : Fits room .null
  | bool (room : Nat) (b : Bool) : Fits room (.bool b)
  | num (room : Nat) {n : Numeral} (inRange : n.isTooLarge = false) : Fits room (.num n)
  | str (room : Nat) (s : String) : Fits room (.str (some s))
  | list {room : Nat} {items : List Tree} (entries : ∀ t ∈ items, Fits room t) :
      Fits (room + 1) (.list items true)
  | record {room : Nat} {members : List (Option String × Tree)}
      (keys : ∀ m ∈ members, ∃ key, m.1 = some key) (entries : ∀ m ∈ members, Fits room m.2) :
      Fits (room + 1) (.record members true)

variable {room : Nat} {t u : Tree} {v : Value} {items items' : List Tree}
  {members members' : List (Option String × Tree)}

/-- A list of trees stands for the values of its items. -/
theorem values?_eq_some_iff {vs : List Value} :
    values? room items = some vs ↔ List.Forall₂ (fun t v => t.value? room = some v) items vs := by
  induction items generalizing vs with
  | nil => simp [values?, eq_comm]
  | cons t items ih =>
      rw [values?_cons_eq_some_iff, List.forall₂_cons_left_iff]
      simp only [ih]

/-- Members stand for the values of theirs, if their keys stand for text. -/
theorem memberValues?_eq_some_iff {vs : List (String × Value)} :
    memberValues? room members = some vs ↔
      List.Forall₂ (fun m n => m.1 = some n.1 ∧ m.2.value? room = some n.2) members vs := by
  induction members generalizing vs with
  | nil => simp [memberValues?, eq_comm]
  | cons m members ih =>
      rcases m with ⟨key, t⟩
      rw [memberValues?_cons_eq_some_iff, List.forall₂_cons_left_iff]
      simp only [ih]
      constructor
      · rintro ⟨k, v, vs', hkey, ht, hrest, heq⟩
        exact ⟨(k, v), vs', ⟨hkey, ht⟩, hrest, heq⟩
      · rintro ⟨n, vs', ⟨hkey, ht⟩, hrest, heq⟩
        exact ⟨n.1, n.2, vs', hkey, ht, hrest, heq⟩

/-- The items of a list stand for values if each does. -/
theorem exists_values?_iff :
    (∃ vs, values? room items = some vs) ↔ ∀ t ∈ items, ∃ v, t.value? room = some v := by
  refine ⟨fun ⟨vs, h⟩ => (exists_of_values? h).1, fun h => ?_⟩
  induction items with
  | nil => exact ⟨[], rfl⟩
  | cons t items ih =>
      rcases List.forall_mem_cons.1 h with ⟨⟨v, hv⟩, hrest⟩
      rcases ih hrest with ⟨vs, hvs⟩
      exact ⟨v :: vs, values?_cons_eq_some_iff.2 ⟨v, vs, hv, hvs, rfl⟩⟩

/-- The members of a record stand for values if each does and has a key that stands for text. -/
theorem exists_memberValues?_iff :
    (∃ vs, memberValues? room members = some vs) ↔
      ∀ m ∈ members, (∃ key, m.1 = some key) ∧ ∃ v, m.2.value? room = some v := by
  induction members with
  | nil => simp [memberValues?]
  | cons m members ih =>
      rcases m with ⟨key, t⟩
      rw [List.forall_mem_cons, ← ih]
      simp only [memberValues?_cons_eq_some_iff]
      constructor
      · rintro ⟨_, k, v, vs, hkey, hv, hvs, -⟩
        exact ⟨⟨⟨k, hkey⟩, v, hv⟩, vs, hvs⟩
      · rintro ⟨⟨⟨k, hkey⟩, v, hv⟩, vs, hvs⟩
        exact ⟨_, k, v, vs, hkey, hv, hvs, rfl⟩

/-- A list stands for a value if it is whole, there is room for it, and its items do. -/
theorem value?_list_eq_some_iff {whole : Bool} :
    (Tree.list items whole).value? room = some v ↔
      whole = true ∧ ∃ below vs, room = below + 1 ∧ values? below items = some vs ∧
        v = .list vs := by
  rw [value?]
  cases room with
  | zero => simp
  | succ below =>
      cases whole <;> simp [eq_comm]

/-- A record stands for a value if it is whole, there is room for it, and its members do. -/
theorem value?_record_eq_some_iff {whole : Bool} :
    (Tree.record members whole).value? room = some v ↔
      whole = true ∧ ∃ below vs, room = below + 1 ∧ memberValues? below members = some vs ∧
        v = Value.ofMembers vs := by
  rw [value?]
  cases room with
  | zero => simp
  | succ below =>
      cases whole <;> simp [eq_comm]

/-- Just the documents that fit stand for values. -/
theorem exists_value?_iff : (∃ v, t.value? room = some v) ↔ t.Fits room := by
  constructor
  · rintro ⟨v, hv⟩
    induction t using Tree.induction generalizing room v with
    | null => exact .null room
    | bool b => exact .bool room b
    | num n =>
        rw [value?] at hv
        split_ifs at hv with hlarge
        exact .num room (by simpa using hlarge)
    | str s =>
        rcases Option.map_eq_some_iff.1 hv with ⟨s, rfl, -⟩
        exact .str room s
    | list items whole ih =>
        rcases value?_list_eq_some_iff.1 hv with ⟨rfl, below, vs, rfl, hvs, -⟩
        refine .list fun t ht => ?_
        rcases exists_values?_iff.1 ⟨vs, hvs⟩ t ht with ⟨w, hw⟩
        exact ih t ht w hw
    | record members whole ih =>
        rcases value?_record_eq_some_iff.1 hv with ⟨rfl, below, vs, rfl, hvs, -⟩
        have hmembers := exists_memberValues?_iff.1 ⟨vs, hvs⟩
        refine .record (fun m hm => (hmembers m hm).1) fun m hm => ?_
        rcases (hmembers m hm).2 with ⟨w, hw⟩
        exact ih m hm w hw
    | broken => cases hv
  · intro h
    induction h with
    | null room => exact ⟨_, rfl⟩
    | bool room b => exact ⟨_, rfl⟩
    | num room inRange => exact ⟨_, by rw [value?, inRange]; rfl⟩
    | str room s => exact ⟨_, rfl⟩
    | list entries ih =>
        rcases exists_values?_iff.2 ih with ⟨vs, hvs⟩
        exact ⟨_, value?_list_eq_some_iff.2 ⟨rfl, _, vs, rfl, hvs, rfl⟩⟩
    | record keys entries ih =>
        rcases exists_memberValues?_iff.2 fun m hm => ⟨keys m hm, ih m hm⟩ with ⟨vs, hvs⟩
        exact ⟨_, value?_record_eq_some_iff.2 ⟨rfl, _, vs, rfl, hvs, rfl⟩⟩

/-! ## Members of values -/

/-- The value that is found at a key is that of the member there. -/
theorem lookup_of_forall₂ {vs : List (String × Value)}
    (h : List.Forall₂ (fun m n => m.1 = some n.1 ∧ m.2.value? room = some n.2) members vs)
    (key : String) : vs.lookup key = (members.lookup (some key)).bind fun t => t.value? room := by
  induction h with
  | nil => rfl
  | @cons m n members vs hmn hrest ih =>
      rcases m with ⟨k, t⟩
      rcases n with ⟨k', v⟩
      obtain ⟨rfl, hv⟩ := hmn
      by_cases hkey : key = k'
      · subst hkey
        simpa [List.lookup_cons] using hv.symm
      · have hne : (some key == some k') = false := by simpa using hkey
        rw [List.lookup_cons, List.lookup_cons, beq_false_of_ne hkey, hne]
        exact ih

/-- What is found in the value of a record is the value of the last member of that key. -/
theorem get?_ofList_eq {vs : List (String × Value)} (h : memberValues? room members = some vs)
    (key : String) : Members.get? (Members.ofList vs) key =
      (last? members key).bind fun t => t.value? room := by
  rw [Members.get?_ofList]
  exact lookup_of_forall₂ (List.forall₂_reverse_iff.2 (memberValues?_eq_some_iff.1 h)) key

/-- The last member of a key is a member. -/
theorem mem_of_last? {key : String} (h : last? members key = some t) : (some key, t) ∈ members := by
  obtain ⟨before, after, heq, -⟩ := List.lookup_eq_some_iff.1 h
  exact List.mem_reverse.1 (heq ▸ by simp)

/-! ## Documents that say the same stand for the same value -/

/-- Items that stand for the same values one by one do so together. -/
theorem values?_congr
    (h : List.Forall₂ (fun t u : Tree => t.value? room = u.value? room) items items') :
    values? room items = values? room items' := by
  induction h with
  | nil => rfl
  | cons hvalue hrest ih => rw [values?, values?, hvalue, ih]

/-- Members stand for the same record if the last ones of each key stand for the same value. -/
theorem ofMembers_eq_iff {vs vs' : List (String × Value)}
    (h : memberValues? room members = some vs) (h' : memberValues? room members' = some vs') :
    Value.ofMembers vs = Value.ofMembers vs' ↔
      ∀ key, ((last? members key).bind fun t => t.value? room) =
        (last? members' key).bind fun t => t.value? room := by
  constructor
  · intro heq key
    rw [← get?_ofList_eq h, ← get?_ofList_eq h', Value.record.inj heq]
  · intro hlast
    refine congrArg Value.record ?_
    refine (Members.sorted_ofList vs).ext (Members.sorted_ofList vs') fun key => ?_
    rw [get?_ofList_eq h, get?_ofList_eq h', hlast]

/-- The last member of a key stands for a value if all members do. -/
theorem exists_of_last? {vs : List (String × Value)} (h : memberValues? room members = some vs)
    {key : String} (ht : last? members key = some t) : ∃ v, t.value? room = some v :=
  (exists_of_memberValues? h).1 _ (mem_of_last? ht)

/-- The last members of a key stand for the same value if there are none, or if both are there and
stand for the same value. -/
theorem bind_last?_eq_iff {vs vs' : List (String × Value)}
    (h : memberValues? room members = some vs) (h' : memberValues? room members' = some vs')
    (key : String) :
    ((last? members key).bind fun t => t.value? room) =
        ((last? members' key).bind fun t => t.value? room) ↔
      (last? members key).isSome = (last? members' key).isSome ∧
        ∀ t u, last? members key = some t → last? members' key = some u →
          t.value? room = u.value? room := by
  cases ht : last? members key with
  | none =>
      cases hu : last? members' key with
      | none => simp
      | some u =>
          rcases exists_of_last? h' hu with ⟨v, hv⟩
          simp [hv]
  | some t =>
      cases hu : last? members' key with
      | none =>
          rcases exists_of_last? h ht with ⟨v, hv⟩
          simp [hv]
      | some u => simp

/-- Documents that fit and say the same stand for the same value. -/
theorem Same.value?_eq (h : t.Same u) (ht : t.Fits room) (hu : u.Fits room) :
    t.value? room = u.value? room := by
  induction h generalizing room with
  | null | bool | num | str => rfl
  | @list items items' length_eq entries ih =>
      cases ht with
      | @list below _ hitems =>
          cases hu with
          | list hitems' =>
              have hvalues : values? below items = values? below items' :=
                values?_congr (List.forall₂_iff_get.2 ⟨length_eq, fun i hi hi' =>
                  ih i hi hi' (hitems _ (List.get_mem _ _)) (hitems' _ (List.get_mem _ _))⟩)
              rw [value?, value?, Nat.add_sub_cancel, hvalues]
  | @record members members' keys entries ih =>
      rcases exists_value?_iff.2 ht with ⟨v, hv⟩
      rcases exists_value?_iff.2 hu with ⟨v', hv'⟩
      rcases value?_record_eq_some_iff.1 hv with ⟨-, below, vs, rfl, hvs, rfl⟩
      rcases value?_record_eq_some_iff.1 hv' with ⟨-, below', vs', heq, hvs', rfl⟩
      obtain rfl := Nat.succ.inj heq
      cases ht with
      | record _ hmembers =>
          cases hu with
          | record _ hmembers' =>
              rw [hv, hv', (ofMembers_eq_iff hvs hvs').2 fun key => ?_]
              refine (bind_last?_eq_iff hvs hvs' key).2 ⟨keys key, fun t u ht hu => ?_⟩
              exact ih key t u ht hu (hmembers _ (mem_of_last? ht)) (hmembers' _ (mem_of_last? hu))

/-- Documents that stand for the same value say the same. -/
theorem same_of_value? (ht : t.value? room = some v) (hu : u.value? room = some v) :
    t.Same u := by
  induction t using Tree.induction generalizing room u v with
  | null =>
      cases ht
      cases u <;> simp [value?, Value.ofMembers] at hu
      exact .null
  | bool b =>
      cases ht
      cases u <;> simp [value?, Value.ofMembers] at hu
      exact hu ▸ .bool b
  | num n =>
      rw [value?] at ht
      split_ifs at ht
      cases ht
      cases u <;> simp [value?, Value.ofMembers] at hu
      exact hu.2 ▸ .num n
  | str s =>
      rcases Option.map_eq_some_iff.1 ht with ⟨s, rfl, rfl⟩
      cases u <;> simp [value?, Value.ofMembers] at hu
      exact hu ▸ .str _
  | list items whole ih =>
      rcases value?_list_eq_some_iff.1 ht with ⟨rfl, below, vs, rfl, hvs, rfl⟩
      cases u with
      | list items' whole' =>
          rcases value?_list_eq_some_iff.1 hu with ⟨rfl, below', vs', hroom, hvs', hv⟩
          obtain rfl := Nat.succ.inj hroom
          obtain rfl := Value.list.inj hv
          have hitems := values?_eq_some_iff.1 hvs
          have hitems' := values?_eq_some_iff.1 hvs'
          refine .list (hitems.length_eq.trans hitems'.length_eq.symm) fun i hi hi' => ?_
          have hi'' : i < vs.length := hitems.length_eq ▸ hi
          exact ih _ (List.get_mem _ _) (hitems.get hi hi'') (hitems'.get hi' hi'')
      | _ => simp [value?, Value.ofMembers] at hu
  | record members whole ih =>
      rcases value?_record_eq_some_iff.1 ht with ⟨rfl, below, vs, rfl, hvs, rfl⟩
      cases u with
      | record members' whole' =>
          rcases value?_record_eq_some_iff.1 hu with ⟨rfl, below', vs', hroom, hvs', hv⟩
          obtain rfl := Nat.succ.inj hroom
          have hlast := fun key =>
            (bind_last?_eq_iff hvs hvs' key).1 ((ofMembers_eq_iff hvs hvs').1 hv key)
          refine .record (fun key => (hlast key).1) fun key t u ht hu => ?_
          rcases exists_of_last? hvs ht with ⟨w, hw⟩
          exact ih _ (mem_of_last? ht) hw (((hlast key).2 t u ht hu).symm.trans hw)
      | _ => simp [value?, Value.ofMembers] at hu
  | broken => cases ht

/-- Documents that fit say the same if they stand for the same value. -/
theorem same_iff (ht : t.Fits room) (hu : u.Fits room) :
    t.Same u ↔ t.value? room = u.value? room := by
  refine ⟨fun h => h.value?_eq ht hu, fun h => ?_⟩
  rcases exists_value?_iff.2 ht with ⟨v, hv⟩
  exact same_of_value? hv (h ▸ hv)

/-- The members of a value are the values of the members. -/
theorem member?_of_value? (h : t.value? room = some v) (key : String) :
    v.member? key = (t.member? key).bind fun u => u.value? (room - 1) := by
  cases t with
  | record members whole =>
      rcases value?_record_eq_some_iff.1 h with ⟨-, below, vs, rfl, hvs, rfl⟩
      exact get?_ofList_eq hvs key
  | list items whole =>
      rcases value?_list_eq_some_iff.1 h with ⟨-, below, vs, rfl, hvs, rfl⟩
      rfl
  | num n =>
      rw [value?] at h
      split_ifs at h
      cases h
      rfl
  | str s =>
      rcases Option.map_eq_some_iff.1 h with ⟨s, -, rfl⟩
      rfl
  | null | bool =>
      cases h
      rfl
  | broken => cases h

/-! ## Texts -/

/-- A text denotes a document that it spells and that fits. -/
structure DenotedBy (t : Tree) (text : String) : Prop where
  spelled : t.SpelledBy text
  fits : t.Fits maxDepth

/-- A text that is read as a document that stands for a value denotes it. -/
theorem denotedBy_of_ofText {text : String} (h : Document.ofText text = { root := t })
    (hv : t.value? maxDepth = some v) : t.DenotedBy text :=
  ⟨(Document.ofText_eq_iff (wellShaped_of_value? hv)).1 h, exists_value?_iff.1 ⟨v, hv⟩⟩

end Tree

/-- A text stands for the value of the document that it denotes. -/
theorem Value.ofText?_of_denotedBy {t : Tree} {text : String} (h : t.DenotedBy text) :
    Value.ofText? text = t.value? maxDepth := by
  rcases Tree.exists_value?_iff.2 h.fits with ⟨v, hv⟩
  rw [hv, Value.ofText?_eq_some_iff]
  exact ⟨t, h.spelled, hv⟩

/-- A text that denotes nothing stands for no value. -/
theorem Value.ofText?_eq_none {text : String} (h : ∀ t : Tree, ¬t.DenotedBy text) :
    Value.ofText? text = none := by
  rw [Option.eq_none_iff_forall_ne_some]
  intro v hv
  rcases Value.ofText?_eq_some_iff.1 hv with ⟨t, ht, htv⟩
  exact h t ⟨ht, Tree.exists_value?_iff.1 ⟨v, htv⟩⟩

end Json
end AwardsDesk
