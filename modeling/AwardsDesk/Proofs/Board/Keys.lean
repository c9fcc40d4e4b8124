import AwardsDesk.Json.Numeral
import AwardsDesk.Proofs.Board.Sound
import Mathlib.Data.List.Dedup
import Mathlib.Data.Prod.Lex

/-!
# Keys and their texts

The text of a key has its two numbers in decimal digits, with a hyphen between them.  There is
no hyphen among digits, so the first hyphen of the text parts the numbers and they can be read
back.  Keys are in the order of their numbers, first of the divisions and then of the places,
and not in the order of their texts.  In a linear order a list can be sorted in one way only, and
that is how the cells of a board are kept.

Main definitions:

- Structure {lit}`CellKey.Decimal`: digits that stand for a number.
- Function {lit}`CellKey.ofText?`: the key that a text stands for.
- Function {lit}`CellKey.numbers`: the numbers of a key, in lexicographic order.

Main results:

- Theorem {lit}`CellKey.ofText?_eq_some_iff`: the texts that stand for a key.
- Theorem {lit}`CellKey.sort_eq_iff`: the one way in which keys can be sorted.
- Theorem {lit}`Board.Cells.Sorted.keys_eq_sort`: a table has its keys sorted.
- Theorem {lit}`CellKey.known_by_text`: keys are known by their texts, and cells are sorted by
  the numbers of their keys.
-/

namespace AwardsDesk

namespace CellKey

variable {a b key : CellKey} {digits : List Char} {n size : Nat}

/-! ## Decimal digits -/

/-- Digits that stand for a number. -/
structure Decimal (digits : List Char) (n : Nat) : Prop where
  ne_nil : digits ≠ []
  digit : ∀ c ∈ digits, c.isDigit
  value : Json.Numeral.natOf digits = n

/-- A number is written in digits that stand for it. -/
theorem decimal_toDigits (n : Nat) : Decimal (Nat.toDigits 10 n) n where
  ne_nil := Nat.toDigits_ne_nil
  digit := fun _ => Nat.isDigit_of_mem_toDigits (by decide) (Nat.le_refl 10)
  value := Nat.ofDigitChars_ten_toDigits

/-- A hyphen is no digit. -/
theorem Decimal.ne_hyphen (h : Decimal digits n) {c : Char} (hc : c ∈ digits) : c ≠ '-' := by
  rintro rfl
  exact absurd (h.digit _ hc) (by decide)

/-- The number below a bound that digits stand for. -/
def number? (size : Nat) (digits : List Char) : Option Nat :=
  let n := Json.Numeral.natOf digits
  if !digits.isEmpty && digits.all Char.isDigit && n < size then some n else none

/-- A number is read if it is written in digits and below the bound. -/
theorem number?_eq_some_iff : number? size digits = some n ↔ Decimal digits n ∧ n < size := by
  have hread : (!digits.isEmpty && digits.all Char.isDigit &&
      decide (Json.Numeral.natOf digits < size)) = true ↔
        (digits ≠ [] ∧ ∀ c ∈ digits, c.isDigit) ∧ Json.Numeral.natOf digits < size := by
    simp
  simp only [number?, Option.ite_none_right_eq_some, Option.some.injEq, hread]
  constructor
  · rintro ⟨⟨⟨hne, hdigit⟩, hlt⟩, rfl⟩
    exact ⟨⟨hne, hdigit, rfl⟩, hlt⟩
  · rintro ⟨⟨hne, hdigit, rfl⟩, hlt⟩
    exact ⟨⟨⟨hne, hdigit⟩, hlt⟩, rfl⟩

/-! ## Texts of keys -/

/-- The key that a text stands for: a number before the first hyphen, which has to be there, and
a number after it. -/
def ofText? (text : String) : Option CellKey :=
  match text.toList.dropWhile (· != '-') with
  | [] => none
  | _ :: place => do
    let rsuDivId ← number? UInt64.size (text.toList.takeWhile (· != '-'))
    let place ← number? UInt32.size place
    return ⟨.ofNat rsuDivId, .ofNat place⟩

/-- After all that stands before the first hyphen comes that hyphen. -/
theorem eq_hyphen_of_dropWhile {cs place : List Char} {c : Char}
    (h : cs.dropWhile (· != '-') = c :: place) : c = '-' := by
  have hfirst := List.head?_dropWhile_not (· != '-') cs
  rw [h] at hfirst
  simpa using hfirst

/-- A hyphen that has no hyphen before it is the first one, by which a text is parted. -/
theorem parted_iff {cs division place : List Char} (h : ∀ c ∈ division, c ≠ '-') :
    cs.takeWhile (· != '-') = division ∧ cs.dropWhile (· != '-') = '-' :: place ↔
      cs = division ++ '-' :: place := by
  constructor
  · rintro ⟨rfl, hrest⟩
    rw [← hrest, List.takeWhile_append_dropWhile]
  · rintro rfl
    have hbefore : ∀ c ∈ division, (c != '-') = true := fun c hc => bne_iff_ne.2 (h c hc)
    rw [List.takeWhile_append_of_pos hbefore, List.dropWhile_append_of_pos hbefore]
    exact ⟨List.append_nil division, rfl⟩

/-- A text stands for a key if it has the numbers of the key on both sides of a hyphen. -/
theorem ofText?_eq_some_iff {text : String} :
    ofText? text = some key ↔ ∃ division place, text.toList = division ++ '-' :: place ∧
      Decimal division key.rsuDivId.toNat ∧ Decimal place key.place.toNat := by
  constructor
  · intro h
    rw [ofText?] at h
    split at h
    · cases h
    · rename_i c place hrest
      obtain rfl := eq_hyphen_of_dropWhile hrest
      obtain ⟨d, hd, h⟩ := Option.bind_eq_some_iff.1 h
      obtain ⟨p, hp, h⟩ := Option.bind_eq_some_iff.1 h
      obtain rfl := Option.some.inj h
      obtain ⟨hdivision, hdlt⟩ := number?_eq_some_iff.1 hd
      obtain ⟨hplace, hplt⟩ := number?_eq_some_iff.1 hp
      refine ⟨_, place, (parted_iff fun _ => hdivision.ne_hyphen).1 ⟨rfl, hrest⟩, ?_, ?_⟩
      · rwa [UInt64.toNat_ofNat_of_lt' hdlt]
      · rwa [UInt32.toNat_ofNat_of_lt' hplt]
  · rintro ⟨division, place, htext, hdivision, hplace⟩
    obtain ⟨hbefore, hrest⟩ := (parted_iff fun _ => hdivision.ne_hyphen).2 htext
    have hd : number? UInt64.size division = some key.rsuDivId.toNat :=
      number?_eq_some_iff.2 ⟨hdivision, key.rsuDivId.toNat_lt⟩
    have hp : number? UInt32.size place = some key.place.toNat :=
      number?_eq_some_iff.2 ⟨hplace, key.place.toNat_lt⟩
    simp only [ofText?, hrest, hbefore, hd, hp, Option.bind_eq_bind, Option.bind_some,
      UInt64.ofNat_toNat, UInt32.ofNat_toNat, Option.pure_def]

/-- The text of a key in characters. -/
theorem toList_text (key : CellKey) :
    key.text.toList =
      Nat.toDigits 10 key.rsuDivId.toNat ++ '-' :: Nat.toDigits 10 key.place.toNat := by
  simp [text, Nat.toString_eq_repr, Nat.toList_repr]

/-- The text of a key stands for the key. -/
@[simp]
theorem ofText?_text (key : CellKey) : ofText? key.text = some key :=
  ofText?_eq_some_iff.2 ⟨_, _, key.toList_text, decimal_toDigits _, decimal_toDigits _⟩

/-- Keys are told apart by their texts. -/
theorem text_inj : a.text = b.text ↔ a = b := by
  refine ⟨fun h => ?_, congrArg text⟩
  have hread : ofText? a.text = ofText? b.text := congrArg ofText? h
  simpa using hread

/-! ## The order of numbers -/

/-- The numbers of a key, to be compared by the division first and then by the place. -/
def numbers (key : CellKey) : ℕ ×ₗ ℕ :=
  toLex (key.rsuDivId.toNat, key.place.toNat)

/-- Keys are in the order of their numbers. -/
theorem le_iff_numbers : a.le b = true ↔ a.numbers ≤ b.numbers := by
  rw [le_iff, numbers, numbers, Prod.Lex.toLex_le_toLex]

/-- The order of the texts is another one. -/
example : le ⟨9, 1⟩ ⟨10, 1⟩ = true ∧ text ⟨10, 1⟩ < text ⟨9, 1⟩ := by
  decide

/-- Keys that are not after each other are the same, and only these. -/
theorem le_and_le_iff : a.le b = true ∧ b.le a = true ↔ a = b := by
  constructor
  · rintro ⟨hab, hba⟩
    exact le_antisymm hab hba
  · rintro rfl
    simp [le]

/-- A key that is before another is not after it. -/
theorem le_of_before (h : a.before b = true) : a.le b = true := by
  rw [before_iff] at h
  rw [le_iff]
  omega

/-! ## Sorting -/

/-- Keys can be sorted in one way only: a list that has them all as often as they were given and
in order is the sorted one. -/
theorem sort_eq_iff {keys sorted : List CellKey} :
    sort keys = sorted ↔ sorted.Perm keys ∧ sorted.Pairwise fun a b => a.le b = true := by
  constructor
  · rintro rfl
    exact ⟨sort_perm keys, pairwise_sort keys⟩
  · rintro ⟨hperm, hsorted⟩
    exact List.Perm.eq_of_pairwise (fun _ _ _ _ => le_antisymm) (pairwise_sort keys) hsorted
      ((sort_perm keys).trans hperm.symm)

end CellKey

namespace Board

/-- A table has its keys sorted, each of them once. -/
theorem Cells.Sorted.keys_eq_sort {cells : Cells} (h : cells.Sorted) {keys : List CellKey}
    (hkeys : ∀ key, key ∈ keys ↔ key ∈ cells.map Prod.fst) :
    cells.map Prod.fst = CellKey.sort keys.dedup := by
  symm
  refine CellKey.sort_eq_iff.2 ⟨?_, h.imp CellKey.le_of_before⟩
  refine (List.perm_ext_iff_of_nodup h.nodup keys.nodup_dedup).2 fun key => ?_
  rw [List.mem_dedup, hkeys]

end Board

namespace CellKey

open Board

/-- Keys are known by their texts, from which their numbers can be read back.  They are in a linear
order, which is the lexicographic one of their numbers, so they can be sorted in one way only.
And whatever happens to a board, it keeps its cells in that order: they have the keys of the rows,
sorted and each of them once. -/
theorem known_by_text :
    (∀ a b : CellKey, a.text = b.text ↔ a = b) ∧
      (∀ key : CellKey, ofText? key.text = some key) ∧
      (∀ a b : CellKey, a.le b = true ∨ b.le a = true) ∧
      (∀ a b : CellKey, a.le b = true ∧ b.le a = true ↔ a = b) ∧
      (∀ a b : CellKey, a.le b = true ↔ a.numbers ≤ b.numbers) ∧
      (∀ keys sorted : List CellKey, sort keys = sorted ↔
        sorted.Perm keys ∧ sorted.Pairwise fun a b => a.le b = true) ∧
      ∀ b : Board, b.IsNew → ∀ es, (b.run es).view.cells.map Prod.fst =
        sort (b.run es).view.rows.flatten.flatten.dedup := by
  refine ⟨fun _ _ => text_inj, ofText?_text, fun a b => ?_, fun _ _ => le_and_le_iff,
    fun _ _ => le_iff_numbers, fun _ _ => sort_eq_iff, fun b hnew es => ?_⟩
  · simpa using le_total a b
  · have hsound : (b.run es).view.Sound := (hnew.orderly.run hnew.inStep es).view
    exact hsound.sorted.keys_eq_sort hsound.keys

/-- The divisions of an event, the tenth before the ninth, with two awards and one. -/
def tenthFirst : AwardsData where
  divisions := some
    [[some { divId := 1, rsuDivId := 10, name := "Women", numAwards := 2 },
      some { divId := 2, rsuDivId := 9, name := "Men", numAwards := 1 }]]
  awards := []

/-- An event is selected, and a refresh lays it out. -/
def layingOut : List Board.Event :=
  [.start 0 (.selectEvent 1), .start 0 .refresh, .answer 1 (answeringAll tenthFirst "")]

/-- The cell of the ninth division comes first, though it stands last in the row and its text comes
last. -/
theorem known_by_text_tenthFirst :
    let b : Board := { gate := { name := "awards", options := {} } }
    let keys : List CellKey := [⟨10, 1⟩, ⟨10, 2⟩, ⟨9, 1⟩]
    b.IsNew ∧ (b.run layingOut).view.rows.flatten.flatten = keys ∧
      (keys.map text).Pairwise (· < ·) ∧
      (b.run layingOut).view.cells.map Prod.fst = [⟨9, 1⟩, ⟨10, 1⟩, ⟨10, 2⟩] := by
  intro b keys
  have hnew : b.IsNew := .plain "awards" {}
  have hrows : (b.run layingOut).view.rows.flatten.flatten = keys := by decide +kernel
  obtain ⟨-, -, -, -, -, hsort, hcells⟩ := known_by_text
  refine ⟨hnew, hrows, by decide, ?_⟩
  rw [hcells b hnew, hrows]
  exact (hsort _ _).2 ⟨by decide, by decide⟩

end CellKey
end AwardsDesk
