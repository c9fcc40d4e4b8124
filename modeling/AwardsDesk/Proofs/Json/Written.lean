import AwardsDesk.Proofs.Json.Documents
import AwardsDesk.Proofs.Json.Members
import AwardsDesk.Proofs.Json.Numbers
import Mathlib.Tactic.IntervalCases

/-!
# Written values are read back

The text of a value spells the value, and stands for it with the members of its records in the
order of their keys.

Main definitions:

- Inductive type {lit}`Value.Plain`: values whose numbers have 64 bits and whose containers are
  not nested too deep.
- Function {lit}`Value.tree`: the document of a value.
- Function {lit}`Value.ordered`: a value with the members of all records in order.

Main results:

- Theorem {lit}`Token.spelled_stringChars`: a written string is spelled.
- Theorem {lit}`Numeral.spelled_ofNat`: a written number is spelled.
- Theorem {lit}`Value.Plain.spelledBy_render`: the text of a value spells its document.
- Theorem {lit}`Value.Plain.value?_tree`: what the tree of a value stands for.
- Theorem {lit}`Value.Plain.ofText?_render`: a written value is read back, in order.
- Theorem {lit}`Value.Plain.ordered_ordered`: a value that is in order stays as it is.
-/

namespace AwardsDesk
namespace Json

/-! ## Values and their documents -/

/-- A value whose numbers are natural numbers of 64 bits, and whose containers stand one inside
the other no deeper than there is room for. -/
inductive Value.Plain : Nat → Value → Prop where
  | null (room : Nat) : Plain room .null
  | bool (room : Nat) (b : Bool) : Plain room (.bool b)
  | nat (room : Nat) {k : Nat} (fits : k < UInt64.size) : Plain room (.ofNat k)
  | str (room : Nat) (s : String) : Plain room (.str s)
  | list {room : Nat} {items : List Value} (plain : ∀ v ∈ items, Plain room v) :
      Plain (room + 1) (.list items)
  | record {room : Nat} {members : List (String × Value)}
      (plain : ∀ m ∈ members, Plain room m.2) : Plain (room + 1) (.record members)

namespace Value

mutual

/-- The document of a value. -/
def tree : Value → Tree
  | null => .null
  | bool b => .bool b
  | num n => .num n
  | str s => .str (some s)
  | list items => .list (itemTrees items) true
  | record members => .record (memberTrees members) true

/-- The documents of the items of a list. -/
def itemTrees : List Value → List Tree
  | [] => []
  | v :: rest => v.tree :: itemTrees rest

/-- The documents of the members of a record. -/
def memberTrees : List (String × Value) → List (Option String × Tree)
  | [] => []
  | (k, v) :: rest => (some k, v.tree) :: memberTrees rest

end

mutual

/-- A value with the members of all records in the order of their keys. -/
def ordered : Value → Value
  | list items => .list (orderedItems items)
  | record members => .ofMembers (orderedMembers members)
  | v => v

/-- The items of a list with the members of all records in order. -/
def orderedItems : List Value → List Value
  | [] => []
  | v :: rest => v.ordered :: orderedItems rest

/-- The members of a record, each with the members of all records in order. -/
def orderedMembers : List (String × Value) → List (String × Value)
  | [] => []
  | (k, v) :: rest => (k, v.ordered) :: orderedMembers rest

end

end Value

/-! ## Strings are spelled -/

namespace Scanner

/-- The part of a string as which a character is written. -/
def writtenPiece (c : Char) : Piece :=
  if c.toNat < 0x20 ∧ c ∉ ['\x08', '\x0c', '\n', '\r', '\t'] then .unit c.toNat else .char c

/-- A hexadecimal digit has the value that it was written for. -/
theorem hexDigit?_hexChar {n : Nat} (h : n < 16) : hexDigit? (hexChar n) = some n := by
  revert n
  decide

/-- A character of a string is one part. -/
theorem spelled_stringChar (c : Char) : (writtenPiece c).Spelled (stringChar c) := by
  unfold stringChar
  split_ifs with hquote hslash hb hf hn hr ht hcontrol
  · subst hquote
    exact .escaped rfl
  · subst hslash
    exact .escaped rfl
  · subst hb
    exact .escaped rfl
  · subst hf
    exact .escaped rfl
  · subst hn
    exact .escaped rfl
  · subst hr
    exact .escaped rfl
  · subst ht
    exact .escaped rfl
  · have hhigh := hexDigit?_hexChar (show c.toNat / 16 < 16 by omega)
    have hlow := hexDigit?_hexChar (show c.toNat % 16 < 16 by omega)
    have hzero : hexDigit? '0' = some 0 := by decide
    have hvalue : c.toNat / 16 * 16 + c.toNat % 16 = c.toNat := by omega
    have hpiece : writtenPiece c = .unit c.toNat := by
      simp [writtenPiece, hcontrol, hb, hf, hn, hr, ht]
    rw [hpiece]
    exact .unit rfl (by simp [hexValue?, hzero, hhigh, hlow, hvalue])
  · have hpiece : writtenPiece c = .char c := by simp [writtenPiece, hcontrol]
    rw [hpiece]
    exact .plain hquote hslash (Nat.le_of_not_lt hcontrol)

/-- A part of a written string gives its character. -/
theorem text_writtenPiece (c : Char) (done : List Piece) :
    Piece.text (writtenPiece c :: done) = (Piece.text done).map (c :: ·) := by
  unfold writtenPiece
  split_ifs with hcontrol
  · have hsmall : c.toNat < 0x20 := hcontrol.1
    have hlead : ¬0xD800 ≤ c.toNat := by omega
    have htrail : ¬0xDC00 ≤ c.toNat := by omega
    cases done with
    | nil => simp [Piece.text, hlead, Char.ofNat_toNat]
    | cons p done => cases p <;> simp [Piece.text, hlead, htrail, Char.ofNat_toNat]
  · rfl

/-- The parts of a written string give its characters. -/
theorem text_map_writtenPiece (cs : List Char) :
    Piece.text (cs.map writtenPiece) = some cs := by
  induction cs with
  | nil => rfl
  | cons c cs ih => rw [List.map_cons, text_writtenPiece, ih, Option.map_some]

/-- The characters of a string are its parts. -/
theorem allSpelled_stringChars (cs : List Char) :
    Piece.AllSpelled (cs.map writtenPiece) (cs.flatMap stringChar) := by
  induction cs with
  | nil => exact .nil
  | cons c cs ih => exact .cons (spelled_stringChar c) ih

end Scanner

/-- A written string is spelled. -/
theorem Token.spelled_stringChars (s : String) :
    Token.Spelled (.str (some s)) (stringChars s) := by
  have hspelled := Spelled.str (Scanner.allSpelled_stringChars s.toList)
  rwa [Scanner.text_map_writtenPiece, Option.map_some, String.ofList_toList] at hspelled

/-! ## Numbers are spelled -/

/-- The digits of a number other than zero do not begin with zero. -/
theorem Numeral.head?_toDigits {k : Nat} (hk : 0 < k) : (Nat.toDigits 10 k).head? ≠ some '0' := by
  induction k using Nat.strongRecOn with
  | ind k ih =>
      rcases Nat.lt_or_ge k 10 with hlt | hge
      · rw [Nat.toDigits_of_lt_base hlt]
        interval_cases k <;> decide
      · rw [Nat.toDigits_of_base_le (by decide) hge,
          List.head?_append_of_ne_nil _ Nat.toDigits_ne_nil]
        exact ih (k / 10) (by omega) (by omega)

/-- A written number is spelled. -/
theorem Numeral.spelled_ofNat (k : Nat) : (Numeral.ofNat k).Spelled (Numeral.ofNat k).literal where
  whole := by
    rcases Nat.eq_zero_or_pos k with rfl | hk
    · exact .inl rfl
    · exact .inr ⟨Nat.toDigits_ne_nil, head?_toDigits hk, fun c hc =>
        Nat.isDigit_of_mem_toDigits (by decide) (Nat.le_refl 10) hc⟩
  fraction := by simp [ofNat]
  exponent := ⟨[], .none, by simp [literal, mantissaChars, signChars, pointChars, ofNat]⟩

/-! ## Values are spelled -/

namespace Value

/-- The items of a list are spelled one by one. -/
theorem spells_itemChars {items : List Value}
    (h : ∀ v ∈ items, Token.Spells v.tree.tokens v.chars) :
    Token.Spells (Tree.itemTokens (itemTrees items)) (itemChars items) := by
  induction items with
  | nil => exact .nil
  | cons v items ih =>
      have hv := h v List.mem_cons_self
      cases items with
      | nil => exact hv
      | cons w items =>
          exact hv.append (.token .comma (ih fun v hmem => h v (List.mem_cons_of_mem _ hmem)))

/-- The members of a record are spelled one by one. -/
theorem spells_memberChars {members : List (String × Value)}
    (h : ∀ m ∈ members, Token.Spells m.2.tree.tokens m.2.chars) :
    Token.Spells (Tree.memberTokens (memberTrees members)) (memberChars members) := by
  induction members with
  | nil => exact .nil
  | cons m members ih =>
      rcases m with ⟨k, v⟩
      have hv : Token.Spells v.tree.tokens v.chars := h (k, v) List.mem_cons_self
      cases members with
      | nil => exact .token (Token.spelled_stringChars k) (.token .colon hv)
      | cons n members =>
          have hrest := ih fun m hmem => h m (List.mem_cons_of_mem _ hmem)
          exact .token (Token.spelled_stringChars k)
            (.token .colon (hv.append (.token .comma hrest)))

/-- A written value is spelled. -/
theorem Plain.spells {room : Nat} {v : Value} (h : v.Plain room) :
    Token.Spells v.tree.tokens v.chars := by
  induction h with
  | null room => exact .single .null
  | bool room b => cases b <;> [exact .single .false; exact .single .true]
  | @nat room k fits => exact .single (.num (Numeral.spelled_ofNat k))
  | str room s => exact .single (Token.spelled_stringChars s)
  | list plain ih => exact .token .openList ((spells_itemChars ih).append (.single .closeList))
  | record plain ih =>
      exact .token .openRecord ((spells_memberChars ih).append (.single .closeRecord))

/-! ## What a tree stands for -/

/-- The trees of the items of a list stand for the items. -/
theorem values?_itemTrees {room : Nat} {items : List Value}
    (h : ∀ v ∈ items, v.tree.value? room = some v.ordered) :
    Tree.values? room (itemTrees items) = some (orderedItems items) := by
  induction items with
  | nil => rfl
  | cons v items ih =>
      have hv := h v List.mem_cons_self
      have hrest := ih fun v hmem => h v (List.mem_cons_of_mem _ hmem)
      simp only [itemTrees, Tree.values?, hv, hrest, orderedItems]

/-- The trees of the members of a record stand for the members. -/
theorem memberValues?_memberTrees {room : Nat} {members : List (String × Value)}
    (h : ∀ m ∈ members, m.2.tree.value? room = some m.2.ordered) :
    Tree.memberValues? room (memberTrees members) = some (orderedMembers members) := by
  induction members with
  | nil => rfl
  | cons m members ih =>
      have hm := h m List.mem_cons_self
      have hrest := ih fun m hmem => h m (List.mem_cons_of_mem _ hmem)
      simp only [memberTrees, Tree.memberValues?, hm, hrest, orderedMembers]

/-- The tree of a value stands for the value with the members of all records in order. -/
theorem Plain.value?_tree {room : Nat} {v : Value} (h : v.Plain room) :
    v.tree.value? room = some v.ordered := by
  induction h with
  | null room => rfl
  | bool room b => rfl
  | @nat room k fits =>
      simp [ofNat, tree, Tree.value?, (Numeral.isNat_ofNat k).isTooLarge_eq fits, ordered]
  | str room s => rfl
  | @list room items plain ih =>
      simp [tree, Tree.value?, values?_itemTrees ih, ordered]
  | @record room members plain ih =>
      simp [tree, Tree.value?, memberValues?_memberTrees ih, ordered]

/-- The text of a value spells the document of the value. -/
theorem Plain.spelledBy_render {room : Nat} {v : Value} (h : v.Plain room) :
    v.tree.SpelledBy v.render where
  wellShaped := Tree.wellShaped_of_value? h.value?_tree
  spells := by
    rw [render, String.toList_ofList]
    exact h.spells

/-- The text of a value stands for the value with the members of all records in order. -/
theorem Plain.ofText?_render {v : Value} (h : v.Plain maxDepth) :
    Value.ofText? v.render = some v.ordered :=
   ofText?_eq_some_iff.2 ⟨v.tree, h.spelledBy_render, h.value?_tree⟩

/-! ## Values in order -/

/-- The items of a list are put in order one by one. -/
theorem orderedItems_eq (items : List Value) : orderedItems items = items.map ordered := by
  induction items with
  | nil => rfl
  | cons v items ih => rw [orderedItems, ih, List.map_cons]

/-- The members of a record are put in order one by one. -/
theorem orderedMembers_eq (members : List (String × Value)) :
    orderedMembers members = members.map fun m => (m.1, m.2.ordered) := by
  induction members with
  | nil => rfl
  | cons m members ih => rw [orderedMembers, ih, List.map_cons]

namespace Plain

variable {room : Nat} {v : Value}

/-- There may be more room than is needed. -/
theorem mono (h : v.Plain room) {more : Nat} (hle : room ≤ more) : v.Plain more := by
  induction h generalizing more with
  | null room => exact .null more
  | bool room b => exact .bool more b
  | nat room fits => exact .nat more fits
  | str room s => exact .str more s
  | @list room items plain ih =>
      cases more with
      | zero => exact absurd hle (Nat.not_succ_le_zero room)
      | succ more => exact .list fun v hv => ih v hv (Nat.le_of_succ_le_succ hle)
  | @record room members plain ih =>
      cases more with
      | zero => exact absurd hle (Nat.not_succ_le_zero room)
      | succ more => exact .record fun m hm => ih m hm (Nat.le_of_succ_le_succ hle)

/-- A value that is no container has no members to be put in order. -/
theorem ordered_eq (h : v.Plain 0) : v.ordered = v := by
  cases h <;> rfl

/-- A value is as plain in order as it was before. -/
theorem ordered (h : v.Plain room) : v.ordered.Plain room := by
  induction h with
  | null room => exact .null room
  | bool room b => exact .bool room b
  | nat room fits => exact .nat room fits
  | str room s => exact .str room s
  | @list room items plain ih =>
      refine .list fun v hv => ?_
      rw [orderedItems_eq] at hv
      rcases List.mem_map.1 hv with ⟨w, hw, rfl⟩
      exact ih w hw
  | @record room members plain ih =>
      refine .record fun m hm => ?_
      have hmem := Members.mem_of_mem_ofList hm
      rw [orderedMembers_eq] at hmem
      rcases List.mem_map.1 hmem with ⟨n, hn, rfl⟩
      exact ih n hn

/-- Nothing changes when a value is put in order again. -/
theorem ordered_ordered (h : v.Plain room) : v.ordered.ordered = v.ordered := by
  induction h with
  | null room => rfl
  | bool room b => rfl
  | nat room fits => rfl
  | str room s => rfl
  | @list room items plain ih =>
      have hitems : ∀ v ∈ items, v.ordered.ordered = v.ordered := ih
      simp only [Value.ordered, orderedItems_eq, List.map_map]
      congr 1
      exact List.map_congr_left hitems
  | @record room members plain ih =>
      have hmembers : (members.map fun m => (m.1, m.2.ordered)).map (fun m => (m.1, m.2.ordered)) =
          members.map fun m => (m.1, m.2.ordered) := by
        rw [List.map_map]
        exact List.map_congr_left fun m hm => by rw [Function.comp_apply, ih m hm]
      simp only [Value.ordered, ofMembers, orderedMembers_eq]
      rw [Members.map_ofList, hmembers, (Members.sorted_ofList _).ofList_eq]

end Plain

/-- Members that are no containers are left as they are. -/
theorem orderedMembers_eq_self {members : List (String × Value)}
    (h : ∀ m ∈ members, m.2.Plain 0) : orderedMembers members = members := by
  rw [orderedMembers_eq]
  refine (List.map_congr_left fun m hm => ?_).trans (List.map_id members)
  rw [(h m hm).ordered_eq]
  rfl

end Value

end Json
end AwardsDesk
