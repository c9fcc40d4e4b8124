import AwardsDesk.Json.Token
import Mathlib.Data.List.Chain
import Mathlib.Tactic.SplitIfs

/-!
# How tokens are spelled

The grammar of tokens stands beside the scanner: words, marks, numerals and strings, with blanks
between them.  The scanner finds the tokens of a text exactly if the text spells them.

Main definitions:

- Structure {lit}`Numeral.Spelled` and inductive types {lit}`Piece.Spelled` and
  {lit}`Token.Spelled`: the characters of numerals, of the parts of strings, and of tokens.
- Inductive type {lit}`Token.Spells`: the characters of a token sequence.
- Definition {lit}`Scanner.Begins`: the characters that the scanner has taken of a token.

Main results:

- Theorem {lit}`Scanner.Takes.step`: what one character adds to the tokens that were spelled.
- Theorem {lit}`Scanner.spells_scan`: a text without flaws spells the tokens found in it.
- Theorem {lit}`Token.Spells.scan`: the tokens that a text spells are found in it.
- Theorem {lit}`Token.ofText_eq_iff`: a text spells just the tokens that are found in it.
-/

namespace AwardsDesk
namespace Json

/-! ## Numerals -/

namespace Numeral

/-- Digits before a point: zero alone, or digits that do not begin with zero. -/
def Whole (ds : List Char) : Prop :=
  ds = ['0'] ∨ ds ≠ [] ∧ ds.head? ≠ some '0' ∧ ∀ c ∈ ds, c.isDigit

/-- The sign of a numeral. -/
def signChars (negative : Bool) : List Char :=
  if negative then ['-'] else []

/-- The point of a numeral and the digits behind it. -/
def pointChars (fraction : List Char) : List Char :=
  if fraction = [] then [] else '.' :: fraction

/-- A numeral up to its exponent. -/
def mantissaChars (n : Numeral) : List Char :=
  signChars n.negative ++ (n.whole ++ pointChars n.fraction)

/-- How an exponent begins: the mark, and the sign, which may be left out if it is plus. -/
inductive ExponentMark : Bool → List Char → Prop where
  | bare {mark : Char} (h : mark = 'e' ∨ mark = 'E') : ExponentMark false [mark]
  | plus {mark : Char} (h : mark = 'e' ∨ mark = 'E') : ExponentMark false [mark, '+']
  | minus {mark : Char} (h : mark = 'e' ∨ mark = 'E') : ExponentMark true [mark, '-']

/-- The characters of an exponent. -/
inductive ExponentSpelled : Option Exponent → List Char → Prop where
  | none : ExponentSpelled none []
  | some {e : Exponent} {mark : List Char} (h : ExponentMark e.negative mark)
      (digits : ∀ c ∈ e.digits, c.isDigit) (ne_nil : e.digits ≠ []) :
      ExponentSpelled (some e) (mark ++ e.digits)

/-- The characters of a numeral. -/
structure Spelled (n : Numeral) (cs : List Char) : Prop where
  whole : Whole n.whole
  fraction : ∀ c ∈ n.fraction, c.isDigit
  exponent : ∃ es, ExponentSpelled n.exponent es ∧ cs = n.mantissaChars ++ es

end Numeral

/-! ## Strings -/

/-- The number that hexadecimal digits stand for. -/
def hexValue? (hs : List Char) : Option Nat :=
  hs.foldlM (fun v c => (hexDigit? c).map (v * 16 + ·)) 0

namespace Piece

/-- The characters of a part of a string: the character itself, a letter after a backslash, or
four hexadecimal digits. -/
inductive Spelled : Piece → List Char → Prop where
  | plain {c : Char} (quote : c ≠ '"') (backslash : c ≠ '\\') (printable : 0x20 ≤ c.toNat) :
      Spelled (.char c) [c]
  | escaped {c d : Char} (h : escaped? c = some d) : Spelled (.char d) ['\\', c]
  | unit {hs : List Char} {u : Nat} (length : hs.length = 4) (value : hexValue? hs = some u) :
      Spelled (.unit u) ('\\' :: 'u' :: hs)

/-- The characters of the parts of a string. -/
inductive AllSpelled : List Piece → List Char → Prop where
  | nil : AllSpelled [] []
  | cons {p : Piece} {ps : List Piece} {cs ds : List Char} (h : p.Spelled cs)
      (rest : AllSpelled ps ds) : AllSpelled (p :: ps) (cs ++ ds)

/-- One more part. -/
theorem AllSpelled.concat {p : Piece} {ps : List Piece} {cs ds : List Char}
    (h : AllSpelled ps cs) (hp : p.Spelled ds) : AllSpelled (ps ++ [p]) (cs ++ ds) := by
  induction h with
  | nil => simpa using AllSpelled.cons hp .nil
  | cons h rest ih =>
      rw [List.append_assoc]
      exact .cons h ih

end Piece

/-! ## Tokens -/

namespace Token

/-- A character that may stand between tokens. -/
def Blank (c : Char) : Prop :=
  c = ' ' ∨ c = '\t' ∨ c = '\n' ∨ c = '\r'

/-- The characters of a token. -/
inductive Spelled : Token → List Char → Prop where
  | null : Spelled .null ['n', 'u', 'l', 'l']
  | true : Spelled (.bool true) ['t', 'r', 'u', 'e']
  | false : Spelled (.bool false) ['f', 'a', 'l', 's', 'e']
  | num {n : Numeral} {cs : List Char} (h : n.Spelled cs) : Spelled (.num n) cs
  | str {ps : List Piece} {cs : List Char} (h : Piece.AllSpelled ps cs) :
      Spelled (.str ((Piece.text ps).map String.ofList)) ('"' :: (cs ++ ['"']))
  | openList : Spelled .openList ['[']
  | closeList : Spelled .closeList [']']
  | openRecord : Spelled .openRecord ['\x7b']
  | closeRecord : Spelled .closeRecord ['\x7d']
  | comma : Spelled .comma [',']
  | colon : Spelled .colon [':']

/-- The characters of a token sequence, with blanks before, between and after the tokens. -/
inductive Spells : List Token → List Char → Prop where
  | nil : Spells [] []
  | blank {c : Char} {ts : List Token} {cs : List Char} (h : Blank c) (rest : Spells ts cs) :
      Spells ts (c :: cs)
  | token {t : Token} {ts : List Token} {cs ds : List Char} (h : t.Spelled cs)
      (rest : Spells ts ds) : Spells (t :: ts) (cs ++ ds)

namespace Spells

variable {t : Token} {ts ts' : List Token} {cs cs' : List Char}

/-- Sequences are spelled one after the other. -/
theorem append (h : Spells ts cs) (h' : Spells ts' cs') : Spells (ts ++ ts') (cs ++ cs') := by
  induction h with
  | nil => exact h'
  | blank hc rest ih => exact .blank hc ih
  | token ht rest ih =>
      rw [List.append_assoc]
      exact .token ht ih

/-- A token by itself. -/
theorem single (h : t.Spelled cs) : Spells [t] cs := by
  simpa using Spells.token h .nil

end Spells
end Token

/-! ## The scanner follows the grammar -/

namespace Scanner

open Token Numeral

variable {part : NumberPart} {n : Numeral} {m : Mode} {ts ts' : List Token}
  {cs cs' pre rest : List Char} {c : Char}

/-- The characters that have been taken of a numeral. -/
def BeginsNumber (n : Numeral) (pre : List Char) : NumberPart → Prop
  | .sign => n = { negative := true } ∧ pre = ['-']
  | .zero => n.whole = ['0'] ∧ n.fraction = [] ∧ n.exponent = none ∧ pre = n.mantissaChars
  | .whole => Whole n.whole ∧ n.whole ≠ ['0'] ∧ n.fraction = [] ∧ n.exponent = none ∧
      pre = n.mantissaChars
  | .point => Whole n.whole ∧ n.fraction = [] ∧ n.exponent = none ∧ pre = n.mantissaChars ++ ['.']
  | .fraction => Whole n.whole ∧ (∀ c ∈ n.fraction, c.isDigit) ∧ n.fraction ≠ [] ∧
      n.exponent = none ∧ pre = n.mantissaChars
  | .mark => Whole n.whole ∧ (∀ c ∈ n.fraction, c.isDigit) ∧ n.exponent = none ∧
      ∃ mark, (mark = 'e' ∨ mark = 'E') ∧ pre = n.mantissaChars ++ [mark]
  | .markSign => Whole n.whole ∧ (∀ c ∈ n.fraction, c.isDigit) ∧
      ∃ negative mark, n.exponent = some ⟨negative, []⟩ ∧ ExponentMark negative mark ∧
        pre = n.mantissaChars ++ mark
  | .exponent => Whole n.whole ∧ (∀ c ∈ n.fraction, c.isDigit) ∧ n.exponent ≠ none ∧
      ∃ exponent, ExponentSpelled n.exponent exponent ∧ pre = n.mantissaChars ++ exponent

/-- The characters that have been taken of a token. -/
def Begins (pre : List Char) : Mode → Prop
  | .between => pre = []
  | .word rest token => rest ≠ [] ∧ token.Spelled (pre ++ rest)
  | .text done => ∃ cs, Piece.AllSpelled done.reverse cs ∧ pre = '"' :: cs
  | .escape done => ∃ cs, Piece.AllSpelled done.reverse cs ∧ pre = '"' :: (cs ++ ['\\'])
  | .unit done left value => ∃ cs hs, Piece.AllSpelled done.reverse cs ∧
      hexValue? hs = some value ∧ hs.length + left = 4 ∧ 0 < left ∧
      pre = '"' :: (cs ++ '\\' :: 'u' :: hs)
  | .number part n => BeginsNumber n pre part
  | .stuck => False

/-- The characters spell the tokens, and the scanner has taken the last of them for the token that
it is in. -/
def Takes (ts : List Token) (cs : List Char) (m : Mode) : Prop :=
  ∃ before pre, Spells ts before ∧ Begins pre m ∧ cs = before ++ pre

/-- The tokens before are taken before. -/
theorem Takes.after (h : Takes ts' cs' m) (hbefore : Spells ts cs) :
    Takes (ts ++ ts') (cs ++ cs') m := by
  rcases h with ⟨before, pre, hspells, hpre, rfl⟩
  exact ⟨cs ++ before, pre, hbefore.append hspells, hpre, (List.append_assoc _ _ _).symm⟩

/-- The beginning of a token. -/
theorem takes_begin (h : Begins pre m) : Takes [] pre m :=
  ⟨[], pre, .nil, h, rfl⟩

/-- A token that is complete. -/
theorem takes_token {t : Token} (h : t.Spelled cs) : Takes [t] cs .between :=
  ⟨cs, [], .single h, rfl, (List.append_nil cs).symm⟩

/-- A digit that may stand first is a whole part by itself. -/
theorem whole_singleton (hc : c.isDigit) (hne : c ≠ '0') : Whole [c] :=
  .inr ⟨List.cons_ne_nil c [], by simpa using hne, by simpa using hc⟩

/-- One more digit before the point. -/
theorem whole_concat (h : Whole cs) (hne : cs ≠ ['0']) (hc : c.isDigit) : Whole (cs ++ [c]) := by
  rcases h with h | ⟨hnil, hhead, hdigits⟩
  · exact absurd h hne
  · refine .inr ⟨by simp, ?_, by simpa [or_imp, forall_and] using ⟨hdigits, hc⟩⟩
    rwa [List.head?_append_of_ne_nil _ hnil]

/-- A numeral takes one more character. -/
theorem BeginsNumber.extend (h : BeginsNumber n pre part) {part' : NumberPart} {n' : Numeral}
    (he : extend part n c = some (part', n')) : BeginsNumber n' (pre ++ [c]) part' := by
  cases part with
  | sign =>
      rcases h with ⟨rfl, rfl⟩
      rw [Scanner.extend] at he
      split_ifs at he with hzero hdigit
      · cases he
        subst hzero
        exact ⟨rfl, rfl, rfl, rfl⟩
      · cases he
        exact ⟨whole_singleton hdigit hzero, by simpa using hzero, rfl, rfl, rfl⟩
  | zero =>
      rcases h with ⟨hwhole, hfraction, hexponent, rfl⟩
      rw [Scanner.extend] at he
      split_ifs at he with hpoint hmark
      · cases he
        subst hpoint
        exact ⟨.inl hwhole, hfraction, hexponent, rfl⟩
      · cases he
        exact ⟨.inl hwhole, by simp [hfraction], hexponent, c, hmark, rfl⟩
  | whole =>
      rcases h with ⟨hwhole, hne, hfraction, hexponent, rfl⟩
      rw [Scanner.extend] at he
      split_ifs at he with hdigit hpoint hmark
      · cases he
        refine ⟨whole_concat hwhole hne hdigit, ?_, hfraction, hexponent, ?_⟩
        · intro heq
          have hnil : n.whole = [] := by
            have hlength := congrArg List.length heq
            exact List.length_eq_zero_iff.1 (by simpa using hlength)
          rcases hwhole with hzero | ⟨hnonempty, -, -⟩
          · exact hne hzero
          · exact hnonempty hnil
        · simp [mantissaChars, pointChars, hfraction]
      · cases he
        subst hpoint
        exact ⟨hwhole, hfraction, hexponent, rfl⟩
      · cases he
        exact ⟨hwhole, by simp [hfraction], hexponent, c, hmark, rfl⟩
  | point =>
      rcases h with ⟨hwhole, hfraction, hexponent, rfl⟩
      rw [Scanner.extend] at he
      split_ifs at he with hdigit
      cases he
      refine ⟨hwhole, by simpa using hdigit, List.cons_ne_nil _ _, hexponent, ?_⟩
      simp [mantissaChars, pointChars, hfraction]
  | fraction =>
      rcases h with ⟨hwhole, hfraction, hne, hexponent, rfl⟩
      rw [Scanner.extend] at he
      split_ifs at he with hdigit hmark
      · cases he
        refine ⟨hwhole, by simpa [or_imp, forall_and] using ⟨hfraction, hdigit⟩, by simp, hexponent,
          ?_⟩
        simp [mantissaChars, pointChars, hne]
      · cases he
        exact ⟨hwhole, hfraction, hexponent, c, hmark, rfl⟩
  | mark =>
      rcases h with ⟨hwhole, hfraction, hexponent, mark, hmark, rfl⟩
      rw [Scanner.extend] at he
      split_ifs at he with hdigit hplus hminus
      · cases he
        exact ⟨hwhole, hfraction, Option.some_ne_none _, [mark, c],
          .some (e := ⟨false, [c]⟩) (.bare hmark) (by simpa using hdigit) (List.cons_ne_nil _ _),
          by simp [mantissaChars]⟩
      · cases he
        subst hplus
        exact ⟨hwhole, hfraction, false, [mark, '+'], rfl, .plus hmark, by simp [mantissaChars]⟩
      · cases he
        subst hminus
        exact ⟨hwhole, hfraction, true, [mark, '-'], rfl, .minus hmark, by simp [mantissaChars]⟩
  | markSign =>
      rcases h with ⟨hwhole, hfraction, negative, mark, hexponent, hmark, rfl⟩
      rw [Scanner.extend] at he
      split_ifs at he with hdigit
      cases he
      refine ⟨hwhole, hfraction, by simp [hexponent], mark ++ [c], ?_, by simp [mantissaChars]⟩
      simp only [hexponent, Option.map_some, List.nil_append]
      exact .some (e := ⟨negative, [c]⟩) hmark (by simpa using hdigit) (List.cons_ne_nil _ _)
  | exponent =>
      rcases h with ⟨hwhole, hfraction, hne, es, hexponent, rfl⟩
      rw [Scanner.extend] at he
      split_ifs at he with hdigit
      cases he
      generalize hn : n.exponent = e at hexponent hne
      cases hexponent with
      | none => exact absurd rfl hne
      | @some e mark hmark hdigits hnil =>
          refine ⟨hwhole, hfraction, by simp, mark ++ (e.digits ++ [c]), ?_,
            by simp [mantissaChars]⟩
          simp only [Option.map_some]
          exact .some (e := ⟨e.negative, e.digits ++ [c]⟩) hmark
            (by simpa [or_imp, forall_and] using ⟨hdigits, hdigit⟩) (by simp)

/-- A numeral can end where its last part is complete. -/
theorem BeginsNumber.spelled (h : BeginsNumber n pre part) (hpart : part.complete) :
    n.Spelled pre := by
  cases part with
  | zero =>
      rcases h with ⟨hwhole, hfraction, hexponent, rfl⟩
      exact ⟨.inl hwhole, by simp [hfraction], [], hexponent ▸ .none, (List.append_nil _).symm⟩
  | whole =>
      rcases h with ⟨hwhole, -, hfraction, hexponent, rfl⟩
      exact ⟨hwhole, by simp [hfraction], [], hexponent ▸ .none, (List.append_nil _).symm⟩
  | fraction =>
      rcases h with ⟨hwhole, hfraction, -, hexponent, rfl⟩
      exact ⟨hwhole, hfraction, [], hexponent ▸ .none, (List.append_nil _).symm⟩
  | exponent =>
      rcases h with ⟨hwhole, hfraction, -, hexponent⟩
      exact ⟨hwhole, hfraction, hexponent⟩
  | sign | point | mark | markSign => cases hpart

/-- What the first character of a token begins. -/
theorem takes_start (c : Char) (h : Token.bad ∉ (start c).1) :
    Takes (start c).1 [c] (start c).2 := by
  unfold start at h ⊢
  split
  · exact ⟨[' '], [], .blank (.inl rfl) .nil, rfl, rfl⟩
  · exact ⟨['\t'], [], .blank (.inr (.inl rfl)) .nil, rfl, rfl⟩
  · exact ⟨['\n'], [], .blank (.inr (.inr (.inl rfl))) .nil, rfl, rfl⟩
  · exact ⟨['\r'], [], .blank (.inr (.inr (.inr rfl))) .nil, rfl, rfl⟩
  · exact takes_token .openList
  · exact takes_token .closeList
  · exact takes_token .openRecord
  · exact takes_token .closeRecord
  · exact takes_token .comma
  · exact takes_token .colon
  · exact takes_begin ⟨[], .nil, rfl⟩
  · exact takes_begin ⟨List.cons_ne_nil _ _, .null⟩
  · exact takes_begin ⟨List.cons_ne_nil _ _, .true⟩
  · exact takes_begin ⟨List.cons_ne_nil _ _, .false⟩
  · exact takes_begin ⟨rfl, rfl⟩
  · split_ifs at h ⊢ with hzero hdigit
    · subst hzero
      exact takes_begin ⟨rfl, rfl, rfl, rfl⟩
    · exact takes_begin ⟨whole_singleton hdigit hzero, by simpa using hzero, rfl, rfl, rfl⟩
    · simp [hzero, hdigit, refuse] at h

/-- What one character adds. -/
theorem Takes.step (h : Takes ts cs m) (c : Char) (hc : Token.bad ∉ (step m c).1) :
    Takes (ts ++ (step m c).1) (cs ++ [c]) (step m c).2 := by
  rcases h with ⟨before, pre, hbefore, hpre, rfl⟩
  rw [List.append_assoc]
  refine Takes.after ?_ hbefore
  cases m with
  | between =>
      obtain rfl : pre = [] := hpre
      exact takes_start c hc
  | word rest token =>
      rcases hpre with ⟨hne, hspelled⟩
      cases rest with
      | nil => exact absurd rfl hne
      | cons d rest =>
          by_cases hd : c = d
          · subst hd
            cases rest with
            | nil => simpa [Scanner.step] using takes_token hspelled
            | cons e rest =>
                simpa [Scanner.step] using
                  takes_begin (m := .word (e :: rest) token) ⟨by simp, by simpa using hspelled⟩
          · simp [Scanner.step, hd, refuse] at hc
  | text done =>
      rcases hpre with ⟨cs, hdone, rfl⟩
      rw [Scanner.step] at hc ⊢
      split_ifs at hc ⊢ with hquote hslash hcontrol
      · subst hquote
        exact takes_token (.str hdone)
      · subst hslash
        exact takes_begin ⟨cs, hdone, rfl⟩
      · simp [refuse] at hc
      · refine takes_begin ⟨cs ++ [c], ?_, rfl⟩
        rw [List.reverse_cons]
        exact hdone.concat (.plain hquote hslash (Nat.le_of_not_lt hcontrol))
  | escape done =>
      rcases hpre with ⟨cs, hdone, rfl⟩
      rw [Scanner.step] at hc ⊢
      split_ifs at hc ⊢ with hunit
      · subst hunit
        exact takes_begin ⟨cs, [], hdone, rfl, rfl, by decide, by simp⟩
      · cases hescaped : escaped? c with
        | none => simp [hescaped, refuse] at hc
        | some d =>
            refine takes_begin ⟨cs ++ ['\\', c], ?_, by simp⟩
            rw [List.reverse_cons]
            exact hdone.concat (.escaped hescaped)
  | unit done left value =>
      rcases hpre with ⟨cs, hs, hdone, hvalue, hlength, hleft, rfl⟩
      rw [Scanner.step] at hc ⊢
      cases hdigit : hexDigit? c with
      | none => simp [hdigit, refuse] at hc
      | some d =>
          have hmore : hexValue? (hs ++ [c]) = some (value * 16 + d) := by
            rw [hexValue?, List.foldlM_append, ← hexValue?, hvalue]
            simp [hdigit]
          by_cases hlast : left ≤ 1
          · simp only [if_pos hlast]
            refine takes_begin ⟨cs ++ '\\' :: 'u' :: (hs ++ [c]), ?_, by simp⟩
            rw [List.reverse_cons]
            refine hdone.concat (.unit ?_ hmore)
            rw [List.length_append, List.length_singleton]
            omega
          · simp only [if_neg hlast]
            refine takes_begin ⟨cs, hs ++ [c], hdone, hmore, ?_, by omega, by simp⟩
            rw [List.length_append, List.length_singleton]
            omega
  | number part n =>
      rw [Scanner.step] at hc ⊢
      cases hextend : extend part n c with
      | some next => exact takes_begin (BeginsNumber.extend hpre hextend)
      | none =>
          by_cases hover : (part.complete && !(part == .zero && c.isDigit)) = true
          · simp only [hextend, if_pos hover, List.mem_cons, not_or] at hc ⊢
            have hpart : part.complete := (Bool.and_eq_true_iff.1 hover).1
            exact (takes_start c hc.2).after (.single (.num (BeginsNumber.spelled hpre hpart)))
          · simp only [hextend, if_neg hover, refuse, List.mem_singleton, not_true_eq_false] at hc
  | stuck => exact hpre.elim

/-- What the end of the text adds. -/
theorem Takes.finish (h : Takes ts cs m) (hm : Token.bad ∉ finish m) :
    Spells (ts ++ finish m) cs := by
  rcases h with ⟨before, pre, hbefore, hpre, rfl⟩
  refine hbefore.append ?_
  cases m with
  | between =>
      obtain rfl : pre = [] := hpre
      exact .nil
  | number part n =>
      rw [Scanner.finish] at hm ⊢
      split_ifs at hm ⊢ with hpart
      · exact .single (.num (BeginsNumber.spelled hpre hpart))
      · simp at hm
  | word | text | escape | unit => simp [Scanner.finish] at hm
  | stuck => exact hpre.elim

/-- What the rest of the text adds. -/
theorem Takes.scan (h : Takes ts cs m) (rest : List Char) (hrest : Token.bad ∉ scan m rest) :
    Spells (ts ++ scan m rest) (cs ++ rest) := by
  induction rest generalizing ts cs m with
  | nil => simpa using h.finish hrest
  | cons c rest ih =>
      rw [scan_cons, List.mem_append, not_or] at hrest
      simpa using ih (h.step c hrest.1) hrest.2

/-- A text without flaws spells the tokens that are found in it. -/
theorem spells_scan (h : Token.bad ∉ scan .between cs) : Spells (scan .between cs) cs :=
  (takes_begin (m := .between) rfl).scan cs h

/-! ## The grammar is followed by the scanner -/

/-- A numeral ends where the text ends, and before a character that no numeral goes on with. -/
def Ends (rest : List Char) : Prop :=
  ∀ c ∈ rest.head?, c.isDigit = false ∧ c ≠ '.' ∧ c ≠ 'e' ∧ c ≠ 'E'

/-- A numeral is over where it ends. -/
theorem scan_number_of_ends (hpart : part.complete) (n : Numeral) (h : Ends rest) :
    scan (.number part n) rest = .num n :: scan .between rest := by
  cases rest with
  | nil => rw [scan_nil, finish, if_pos hpart, scan_nil, finish]
  | cons c rest =>
      rcases h c rfl with ⟨hdigit, hpoint, he, hE⟩
      have hextend : extend part n c = none := by
        cases part with
        | zero | whole | fraction | exponent => simp [extend, hdigit, hpoint, he, hE]
        | sign | point | mark | markSign => cases hpart
      have hover : (part.complete && !(part == .zero && c.isDigit)) = true := by
        simp [hpart, hdigit]
      simp only [scan_cons, step, hextend, if_pos hover, List.cons_append]

/-- A character that the numeral goes on with. -/
theorem scan_number_cons {part' : NumberPart} {n' : Numeral}
    (h : extend part n c = some (part', n')) (rest : List Char) :
    scan (.number part n) (c :: rest) = scan (.number part' n') rest := by
  simp [step, h]

/-- Digits are taken one by one. -/
theorem scan_digits (part : NumberPart) (numeral : List Char → Numeral)
    (hextend : ∀ taken d, d.isDigit →
      extend part (numeral taken) d = some (part, numeral (taken ++ [d])))
    {ds : List Char} (h : ∀ c ∈ ds, c.isDigit) (taken rest : List Char) :
    scan (.number part (numeral taken)) (ds ++ rest) =
      scan (.number part (numeral (taken ++ ds))) rest := by
  induction ds generalizing taken with
  | nil => rw [List.append_nil, List.nil_append]
  | cons d ds ih =>
      have hnext := hextend taken d (h d List.mem_cons_self)
      rw [List.cons_append, scan_number_cons hnext,
        ih fun c hc => h c (List.mem_cons_of_mem _ hc), List.append_assoc, List.singleton_append]

/-- The first digit of a numeral without a sign. -/
theorem start_digit {d : Char} (hd : d.isDigit) :
    start d = ([], .number (if d = '0' then .zero else .whole) { whole := [d] }) := by
  unfold start
  split
  case h_16 => split_ifs <;> rfl
  all_goals exact absurd hd (by decide)

/-- The first digit after a sign. -/
theorem extend_sign {d : Char} (hd : d.isDigit) (n : Numeral) :
    extend .sign n d = some (if d = '0' then .zero else .whole, { n with whole := [d] }) := by
  rw [extend]
  split_ifs <;> rfl

/-- A sign and the digits before the point. -/
theorem scan_signed {ds : List Char} (h : Whole ds) (negative : Bool) :
    ∃ part, (part = .zero ∨ part = .whole) ∧ ∀ rest,
      scan .between (signChars negative ++ (ds ++ rest)) =
        scan (.number part { negative, whole := ds }) rest := by
  have hfirst : ∀ d, d.isDigit → ∀ rest, scan .between (signChars negative ++ d :: rest) =
      scan (.number (if d = '0' then .zero else .whole) { negative, whole := [d] }) rest := by
    intro d hd rest
    cases negative with
    | false => simp [signChars, step, start_digit hd]
    | true => simp [signChars, step, start, extend_sign hd]
  rcases h with rfl | ⟨hne, hhead, hdigits⟩
  · exact ⟨.zero, .inl rfl, hfirst '0' rfl⟩
  · cases ds with
    | nil => exact absurd rfl hne
    | cons d ds =>
        have hd : d ≠ '0' := by simpa using hhead
        refine ⟨.whole, .inr rfl, fun rest => ?_⟩
        rw [List.cons_append, hfirst d (hdigits d List.mem_cons_self), if_neg hd]
        exact scan_digits .whole (fun ds => { negative, whole := ds })
          (fun _ _ hd => by rw [extend, if_pos hd])
          (fun c hc => hdigits c (List.mem_cons_of_mem _ hc)) [d] rest

/-- A numeral up to its exponent. -/
theorem scan_mantissa (hwhole : Whole n.whole) (hfraction : ∀ c ∈ n.fraction, c.isDigit) :
    ∃ part, (part = .zero ∨ part = .whole ∨ part = .fraction) ∧ ∀ rest,
      scan .between (n.mantissaChars ++ rest) =
        scan (.number part { n with exponent := none }) rest := by
  rcases scan_signed hwhole n.negative with ⟨part, hpart, hscan⟩
  rw [mantissaChars, pointChars]
  split_ifs with hnil
  · refine ⟨part, by tauto, fun rest => ?_⟩
    rw [List.append_nil, List.append_assoc, hscan, hnil]
  · rcases List.exists_cons_of_ne_nil hnil with ⟨d, ds, heq⟩
    rw [heq] at hfraction ⊢
    refine ⟨.fraction, by tauto, fun rest => ?_⟩
    have hpoint : extend part { negative := n.negative, whole := n.whole } '.' =
        some (.point, { negative := n.negative, whole := n.whole }) := by
      rcases hpart with rfl | rfl <;> rfl
    have hdigit : d.isDigit := hfraction d List.mem_cons_self
    rw [List.append_assoc, List.append_assoc, hscan, List.cons_append, List.cons_append,
      scan_number_cons hpoint, scan_number_cons (by rw [extend, if_pos hdigit])]
    exact scan_digits .fraction
      (fun ds => { negative := n.negative, whole := n.whole, fraction := ds })
      (fun _ _ hd => by rw [extend, if_pos hd])
      (fun c hc => hfraction c (List.mem_cons_of_mem _ hc)) [d] rest

/-- The mark of an exponent, its sign, and its first digit. -/
theorem scan_mark {negative : Bool} {mark : List Char} (h : ExponentMark negative mark)
    (hpart : part = .zero ∨ part = .whole ∨ part = .fraction) {d : Char} (hd : d.isDigit)
    (n : Numeral) (rest : List Char) :
    scan (.number part n) (mark ++ d :: rest) =
      scan (.number .exponent { n with exponent := some ⟨negative, [d]⟩ }) rest := by
  have hmark : ∀ c, c = 'e' ∨ c = 'E' → extend part n c = some (.mark, n) := by
    rintro c (rfl | rfl) <;> rcases hpart with rfl | rfl | rfl <;> rfl
  cases h with
  | bare hc =>
      rw [List.singleton_append, scan_number_cons (hmark _ hc),
        scan_number_cons (by rw [extend, if_pos hd])]
  | plus hc =>
      rw [List.cons_append, List.singleton_append, scan_number_cons (hmark _ hc),
        scan_number_cons (by rfl), scan_number_cons (by rw [extend, if_pos hd])]
      rfl
  | minus hc =>
      rw [List.cons_append, List.singleton_append, scan_number_cons (hmark _ hc),
        scan_number_cons (by rfl), scan_number_cons (by rw [extend, if_pos hd])]
      rfl

end Scanner

open Scanner

/-- A numeral is found where it ends. -/
theorem Numeral.Spelled.scan {n : Numeral} {cs rest : List Char} (h : n.Spelled cs)
    (hrest : Ends rest) : Scanner.scan .between (cs ++ rest) = .num n :: scan .between rest := by
  rcases h with ⟨hwhole, hfraction, es, hexponent, rfl⟩
  rcases scan_mantissa hwhole hfraction with ⟨part, hpart, hscan⟩
  rw [List.append_assoc, hscan]
  rcases n with ⟨negative, whole, fraction, exponent⟩
  cases hexponent with
  | none =>
      rw [List.nil_append]
      refine scan_number_of_ends ?_ _ hrest
      rcases hpart with rfl | rfl | rfl <;> rfl
  | @some e mark hmark hdigits hne =>
      rcases e with ⟨negative', digits⟩
      rcases List.exists_cons_of_ne_nil hne with ⟨d, ds, rfl⟩
      have hrun := scan_digits .exponent
        (fun ds => { negative, whole, fraction, exponent := some ⟨negative', ds⟩ })
        (fun _ _ hd => by rw [extend, if_pos hd]; rfl)
        (fun c hc => hdigits c (List.mem_cons_of_mem _ hc)) [d] rest
      rw [List.append_assoc, List.cons_append,
        scan_mark hmark hpart (hdigits d List.mem_cons_self)]
      exact hrun.trans (scan_number_of_ends rfl _ hrest)

/-! ## Strings are found -/

/-- A part of a string is taken as it is. -/
theorem Piece.Spelled.scan {p : Piece} {cs : List Char} (h : p.Spelled cs) (done : List Piece)
    (rest : List Char) :
    Scanner.scan (.text done) (cs ++ rest) = scan (.text (p :: done)) rest := by
  cases h with
  | plain quote backslash printable =>
      simp [step, quote, backslash, Nat.not_lt.2 printable]
  | escaped h =>
      have hunit : ∀ c d, escaped? c = some d → c ≠ 'u' := by
        rintro c d hc rfl
        cases hc
      simp [step, h, hunit _ _ h]
  | @unit hs u length value =>
      obtain ⟨a, b, c, d, rfl⟩ := List.length_eq_four.1 length
      simp only [hexValue?, List.foldlM_cons, List.foldlM_nil, Option.bind_eq_bind,
        Option.bind_eq_some_iff, Option.map_eq_some_iff, Option.pure_def, Option.some.injEq]
        at value
      rcases value with ⟨-, ⟨w, hw, rfl⟩, -, ⟨x, hx, rfl⟩, -, ⟨y, hy, rfl⟩, -, ⟨z, hz, rfl⟩, rfl⟩
      simp [step, hw, hx, hy, hz]

/-- The parts of a string are taken one by one. -/
theorem Piece.AllSpelled.scan {ps : List Piece} {cs : List Char} (h : AllSpelled ps cs)
    (done : List Piece) (rest : List Char) :
    Scanner.scan (.text done) (cs ++ rest) = scan (.text (ps.reverse ++ done)) rest := by
  induction h generalizing done with
  | nil => rfl
  | cons hp hps ih => rw [List.append_assoc, hp.scan, ih, List.reverse_cons, List.append_assoc]; rfl

/-! ## Tokens are found -/

namespace Token

variable {t : Token} {ts : List Token} {cs rest : List Char}

/-- A token is found where the next one cannot be taken for a part of it. -/
theorem Spelled.scan (h : t.Spelled cs) (hrest : ∀ n, t = .num n → Ends rest) :
    Scanner.scan .between (cs ++ rest) = t :: Scanner.scan .between rest := by
  cases h with
  | num h => exact h.scan (hrest _ rfl)
  | @str ps cs h =>
      have htext := h.scan [] ('"' :: rest)
      rw [List.append_nil] at htext
      have hquote : Scanner.scan (.text ps.reverse) ('"' :: rest) =
          .str ((Piece.text ps).map String.ofList) :: Scanner.scan .between rest := by
        simp [step]
      rw [List.cons_append, List.append_assoc, List.singleton_append, ← hquote, ← htext]
      rfl
  | null | true | false | openList | closeList | openRecord | closeRecord | comma | colon => rfl

/-- Two numerals stand nowhere side by side. -/
def Apart (ts : List Token) : Prop :=
  ts.IsChain fun t t' => ∀ n n', ¬(t = .num n ∧ t' = .num n')

/-- A numeral ends where no other numeral follows. -/
theorem Spells.ends (h : Spells ts cs) (hts : ∀ n, ts.head? ≠ some (.num n)) : Ends cs := by
  cases h with
  | nil => simp [Ends]
  | blank hc => rcases hc with rfl | rfl | rfl | rfl <;> simp [Ends]
  | token ht =>
      cases ht with
      | num => exact absurd rfl (hts _)
      | null | true | false | openList | closeList | openRecord | closeRecord | comma | colon
      | str => simp [Ends]

/-- The tokens that a text spells are found in it. -/
theorem Spells.scan (h : Spells ts cs) (hts : Apart ts) : Scanner.scan .between cs = ts := by
  induction h with
  | nil => rfl
  | blank hc rest ih =>
      rw [← ih hts]
      rcases hc with rfl | rfl | rfl | rfl <;> rfl
  | @token t ts cs ds ht rest ih =>
      rcases List.isChain_cons.1 hts with ⟨hnext, htail⟩
      rw [ht.scan, ih htail]
      rintro n rfl
      exact rest.ends fun n' hn' => hnext _ hn' n n' ⟨rfl, rfl⟩

/-- A text spells just the tokens that are found in it. -/
theorem ofText_eq_iff {text : String} (hts : Apart ts) (hbad : Token.bad ∉ ts) :
    ofText text = ts ↔ Spells ts text.toList := by
  constructor
  · rintro rfl
    exact spells_scan hbad
  · intro h
    exact h.scan hts

end Token
end Json
end AwardsDesk
