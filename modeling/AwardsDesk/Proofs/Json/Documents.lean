import AwardsDesk.Json.Value
import AwardsDesk.Proofs.Json.Spelling

/-!
# How documents are spelled

A document has tokens, and a text spells the document if it spells the tokens.  The document of a
text is the one that the text spells.

Main definitions:

- Function {lit}`Tree.tokens`: the tokens of a document.
- Definition {lit}`Tree.SpelledBy`: a text spells a document without flaws.
- Definition {lit}`Reading.Took`: the tokens that have been read.

Main results:

- Theorem {lit}`Reading.Took.step`: what one token adds to those that have been read.
- Theorem {lit}`Tree.readsTo`: the tokens of a document are read to the document.
- Theorem {lit}`Document.ofText_eq_iff`: a text spells just its own document.
- Theorem {lit}`Value.ofText?_eq_some_iff`: the values that a text stands for.
-/

namespace AwardsDesk
namespace Json

namespace Tree

/-! ## Induction -/

/-- Something holds of all trees if it holds of a container whenever it holds of what is in it. -/
@[elab_as_elim]
theorem induction {P : Tree → Prop} (null : P .null) (bool : ∀ b, P (.bool b))
    (num : ∀ n, P (.num n)) (str : ∀ s, P (.str s))
    (list : ∀ items whole, (∀ t ∈ items, P t) → P (.list items whole))
    (record : ∀ members whole, (∀ m ∈ members, P m.2) → P (.record members whole))
    (broken : P .broken) : ∀ t, P t
  | .null => null
  | .bool b => bool b
  | .num n => num n
  | .str s => str s
  | .list items whole =>
    list items whole fun t ht =>
      have : sizeOf t < sizeOf items := List.sizeOf_lt_of_mem ht
      induction null bool num str list record broken t
  | .record members whole =>
    record members whole fun m hm =>
      have : sizeOf m < sizeOf members := List.sizeOf_lt_of_mem hm
      have : sizeOf m.2 < sizeOf m := by
        rcases m with ⟨key, t⟩
        simp only [Prod.mk.sizeOf_spec]
        omega
      induction null bool num str list record broken m.2
  | .broken => broken

/-! ## Shapes -/

/-- The trees of a list have no flaw if none of them has one. -/
theorem allWellShaped_iff {items : List Tree} :
    allWellShaped items = true ↔ ∀ t ∈ items, t.wellShaped = true := by
  induction items with
  | nil => simp [allWellShaped]
  | cons t items ih => simp [allWellShaped, ih]

/-- The values of a record have no flaw if none of them has one. -/
theorem membersWellShaped_iff {members : List (Option String × Tree)} :
    membersWellShaped members = true ↔ ∀ m ∈ members, m.2.wellShaped = true := by
  induction members with
  | nil => simp [membersWellShaped]
  | cons m members ih =>
      rcases m with ⟨key, t⟩
      rw [membersWellShaped, Bool.and_eq_true, ih, List.forall_mem_cons]

/-! ## Tokens -/

mutual

/-- The tokens of a document. -/
def tokens : Tree → List Token
  | null => [.null]
  | bool b => [.bool b]
  | num n => [.num n]
  | str s => [.str s]
  | list items _ => .openList :: (itemTokens items ++ [.closeList])
  | record members _ => .openRecord :: (memberTokens members ++ [.closeRecord])
  | broken => [.bad]

/-- The tokens of the items of a list, with commas between them. -/
def itemTokens : List Tree → List Token
  | [] => []
  | [t] => t.tokens
  | t :: rest => t.tokens ++ .comma :: itemTokens rest

/-- The tokens of the members of a record, with commas between them. -/
def memberTokens : List (Option String × Tree) → List Token
  | [] => []
  | [(key, t)] => .str key :: .colon :: t.tokens
  | (key, t) :: rest => .str key :: .colon :: (t.tokens ++ .comma :: memberTokens rest)

end

/-- A text spells a document that has no flaw if it spells the tokens of the document. -/
structure SpelledBy (t : Tree) (text : String) : Prop where
  wellShaped : t.wellShaped = true
  spells : Token.Spells t.tokens text.toList

/-- The tokens of items that have commas behind them. -/
def listedTokens (items : List Tree) : List Token :=
  items.flatMap fun t => t.tokens ++ [.comma]

/-- The tokens of members that have commas behind them. -/
def listedMemberTokens (members : List (Option String × Tree)) : List Token :=
  members.flatMap fun m => .str m.1 :: .colon :: (m.2.tokens ++ [.comma])

/-- The last item has no comma behind it. -/
theorem itemTokens_concat (items : List Tree) (t : Tree) :
    itemTokens (items ++ [t]) = listedTokens items ++ t.tokens := by
  induction items with
  | nil => rfl
  | cons u items ih =>
      obtain ⟨w, rest, heq⟩ : ∃ w rest, items ++ [t] = w :: rest :=
        List.exists_cons_of_ne_nil (by simp)
      rw [List.cons_append, heq, itemTokens, ← heq, ih]
      · simp [listedTokens]
      · simp

/-- The last member has no comma behind it. -/
theorem memberTokens_concat (members : List (Option String × Tree)) (key : Option String)
    (t : Tree) :
    memberTokens (members ++ [(key, t)]) =
      listedMemberTokens members ++ .str key :: .colon :: t.tokens := by
  induction members with
  | nil => rfl
  | cons m members ih =>
      obtain ⟨w, rest, heq⟩ : ∃ w rest, members ++ [(key, t)] = w :: rest :=
        List.exists_cons_of_ne_nil (by simp)
      rw [List.cons_append, heq, memberTokens, ← heq, ih]
      · simp [listedMemberTokens]
      · simp

/-- All items have commas behind them if the last one has. -/
theorem itemTokens_comma {items : List Tree} (h : items ≠ []) :
    itemTokens items ++ [.comma] = listedTokens items := by
  rcases List.eq_nil_or_concat items with rfl | ⟨init, t, rfl⟩
  · exact absurd rfl h
  · rw [List.concat_eq_append, itemTokens_concat]
    simp [listedTokens]

/-- All members have commas behind them if the last one has. -/
theorem memberTokens_comma {members : List (Option String × Tree)} (h : members ≠ []) :
    memberTokens members ++ [.comma] = listedMemberTokens members := by
  rcases List.eq_nil_or_concat members with rfl | ⟨init, ⟨key, t⟩, rfl⟩
  · exact absurd rfl h
  · rw [List.concat_eq_append, memberTokens_concat]
    simp [listedMemberTokens]

end Tree

/-! ## Readings follow the tokens -/

/-- The tokens of a container under way, up to the value that is being read. -/
def Frame.tokens : Frame → List Token
  | .list done => .openList :: Tree.listedTokens done.reverse
  | .record done key =>
    .openRecord :: (Tree.listedMemberTokens done.reverse ++ [.str key, .colon])

namespace Reading

open Json.Tree

/-- The tokens of the containers around, outermost first. -/
def framesTokens (frames : List Frame) : List Token :=
  frames.reverse.flatMap Frame.tokens

/-- The tokens inside one more container. -/
theorem framesTokens_cons (f : Frame) (frames : List Frame) :
    framesTokens (f :: frames) = framesTokens frames ++ f.tokens := by
  simp [framesTokens]

/-- The tokens that have been read. -/
def Took (ts : List Token) : Reading → Prop
  | .value frames => ts = framesTokens frames
  | .listStart frames => ts = framesTokens frames ++ [.openList]
  | .listRest done frames =>
    done ≠ [] ∧ ts = framesTokens frames ++ .openList :: itemTokens done.reverse
  | .recordStart frames => ts = framesTokens frames ++ [.openRecord]
  | .recordKey done frames =>
    ts = framesTokens frames ++ .openRecord :: listedMemberTokens done.reverse
  | .recordColon done key frames =>
    ts = framesTokens frames ++ .openRecord :: (listedMemberTokens done.reverse ++ [.str key])
  | .recordRest done frames =>
    done ≠ [] ∧ ts = framesTokens frames ++ .openRecord :: memberTokens done.reverse
  | .complete root => ts = root.tokens
  | .overrun _ => True
  | .stopped root => root.wellShaped = false

/-- A document that went wrong has a flaw. -/
theorem wellShaped_cut {t : Tree} (h : t.wellShaped = false) (frames : List Frame) :
    (cut t frames).wellShaped = false := by
  induction frames generalizing t with
  | nil => exact h
  | cons f frames ih => cases f <;> exact ih (by simp [wellShaped])

/-- A value has been read. -/
theorem took_close (t : Tree) (frames : List Frame) :
    Took (framesTokens frames ++ t.tokens) (close t frames) := by
  cases frames with
  | nil => rfl
  | cons f frames =>
      cases f with
      | list done =>
          refine ⟨List.cons_ne_nil t done, ?_⟩
          rw [framesTokens_cons, Frame.tokens, List.reverse_cons, itemTokens_concat]
          simp
      | record done key =>
          refine ⟨List.cons_ne_nil (key, t) done, ?_⟩
          rw [framesTokens_cons, Frame.tokens, List.reverse_cons, memberTokens_concat]
          simp

/-- A token where a value has to come. -/
theorem took_takeValue (frames : List Frame) (token : Token) :
    Took (framesTokens frames ++ [token]) (takeValue frames token) := by
  cases token with
  | null => exact took_close .null frames
  | bool b => exact took_close (.bool b) frames
  | num n => exact took_close (.num n) frames
  | str s => exact took_close (.str s) frames
  | openList | openRecord => rfl
  | closeList | closeRecord | comma | colon | bad => exact wellShaped_cut rfl frames

/-- What one token adds. -/
theorem Took.step {ts : List Token} {r : Reading} (h : Took ts r) (token : Token) :
    Took (ts ++ [token]) (r.step token) := by
  cases r with
  | value frames =>
      obtain rfl : ts = framesTokens frames := h
      exact took_takeValue frames token
  | listStart frames =>
      obtain rfl : ts = framesTokens frames ++ [Token.openList] := h
      by_cases hclose : token = .closeList
      · subst hclose
        rw [List.append_assoc]
        exact took_close (.list [] true) frames
      · have hvalue := took_takeValue (.list [] :: frames) token
        rw [framesTokens_cons] at hvalue
        cases token <;> first | exact hvalue | exact absurd rfl hclose
  | listRest done frames =>
      rcases h with ⟨hne, rfl⟩
      have hflaw := wellShaped_cut (t := .list done.reverse false) (by simp [wellShaped]) frames
      cases token with
      | comma =>
          rw [Reading.step, Took, framesTokens_cons, Frame.tokens,
            ← itemTokens_comma (by simpa using hne)]
          simp
      | closeList =>
          have hclose := took_close (.list done.reverse true) frames
          simpa [Reading.step, tokens] using hclose
      | null | bool | num | str | openList | openRecord | closeRecord | colon | bad => exact hflaw
  | recordStart frames =>
      obtain rfl : ts = framesTokens frames ++ [Token.openRecord] := h
      have hflaw := wellShaped_cut (t := .record [] false) (by simp [wellShaped]) frames
      cases token with
      | str key => simp [Reading.step, Took, listedMemberTokens]
      | closeRecord =>
          rw [List.append_assoc]
          exact took_close (.record [] true) frames
      | null | bool | num | openList | closeList | openRecord | comma | colon | bad => exact hflaw
  | recordKey done frames =>
      obtain rfl : ts =
          framesTokens frames ++ Token.openRecord :: listedMemberTokens done.reverse := h
      have hflaw := wellShaped_cut (t := .record done.reverse false) (by simp [wellShaped]) frames
      cases token with
      | str key => simp [Reading.step, Took]
      | null | bool | num | openList | closeList | openRecord | closeRecord | comma | colon | bad =>
        exact hflaw
  | recordColon done key frames =>
      obtain rfl : ts = framesTokens frames ++
        Token.openRecord :: (listedMemberTokens done.reverse ++ [Token.str key]) := h
      have hflaw := wellShaped_cut (t := .broken) rfl (.record done key :: frames)
      cases token with
      | colon => simp [Reading.step, Took, framesTokens_cons, Frame.tokens]
      | null | bool | num | str | openList | closeList | openRecord | closeRecord | comma | bad =>
        exact hflaw
  | recordRest done frames =>
      rcases h with ⟨hne, rfl⟩
      have hflaw := wellShaped_cut (t := .record done.reverse false) (by simp [wellShaped]) frames
      cases token with
      | comma =>
          rw [Reading.step, Took, ← memberTokens_comma (by simpa using hne)]
          simp
      | closeRecord =>
          have hclose := took_close (.record done.reverse true) frames
          simpa [Reading.step, tokens] using hclose
      | null | bool | num | str | openList | closeList | openRecord | colon | bad => exact hflaw
  | complete root => exact trivial
  | overrun root => exact trivial
  | stopped root => exact h

/-- What all tokens add. -/
theorem Took.foldl {ts : List Token} {r : Reading} (h : Took ts r) (more : List Token) :
    Took (ts ++ more) (more.foldl Reading.step r) := by
  induction more generalizing ts r with
  | nil => simpa using h
  | cons token more ih => simpa using ih (h.step token)

/-- A document without flaws has been read from its tokens. -/
theorem Took.eq_tokens {ts : List Token} {r : Reading} (h : Took ts r) {t : Tree}
    (ht : Document.ofReading r = { root := t }) (hshape : t.wellShaped = true) : ts = t.tokens := by
  have hflaw : ∀ u frames, u.wellShaped = false → cut u frames ≠ t := by
    rintro u frames hu rfl
    rw [wellShaped_cut hu frames] at hshape
    cases hshape
  cases r with
  | complete root =>
      cases ht
      exact h
  | stopped root =>
      cases ht
      rw [show t.wellShaped = false from h] at hshape
      cases hshape
  | overrun root => cases ht
  | value | listStart | listRest | recordStart | recordKey | recordColon | recordRest =>
      exact absurd (congrArg Document.root ht) (hflaw _ _ (by simp [wellShaped]))

/-! ## The tokens of a document are read -/

/-- Tokens are read to a tree wherever a value has to come. -/
structure ReadsTo (ts : List Token) (t : Tree) : Prop where
  foldl : ∀ frames, ts.foldl step (.value frames) = close t frames
  /-- They do not begin with the end of a list. -/
  opens : ∀ token ∈ ts.head?, token ≠ .closeList
  ne_nil : ts ≠ []

/-- A single token is read to a tree. -/
theorem readsTo_singleton {token : Token} {t : Tree}
    (h : ∀ frames, takeValue frames token = close t frames) (hopens : token ≠ .closeList) :
    ReadsTo [token] t where
  foldl := h
  opens := by simpa using hopens
  ne_nil := List.cons_ne_nil _ _

/-- Where a list begins its first item is read as anywhere else. -/
theorem ReadsTo.foldl_listStart {ts : List Token} {t : Tree} (h : ReadsTo ts t)
    (more : List Token) (frames : List Frame) :
    (ts ++ more).foldl step (.listStart frames) =
      (ts ++ more).foldl step (.value (.list [] :: frames)) := by
  cases ts with
  | nil => exact absurd rfl h.ne_nil
  | cons token ts =>
      have hstep : step (.listStart frames) token = takeValue (.list [] :: frames) token := by
        have hne := h.opens token rfl
        cases token <;> first | rfl | exact absurd rfl hne
      rw [List.cons_append, List.foldl_cons, List.foldl_cons, hstep]
      rfl

/-- The items of a list are read one by one up to the end of the list. -/
theorem foldl_itemTokens {items : List Tree} (h : ∀ t ∈ items, ReadsTo t.tokens t)
    (hne : items ≠ []) (done : List Tree) (frames : List Frame) :
    (itemTokens items ++ [Token.closeList]).foldl step (.value (.list done :: frames)) =
      close (.list (done.reverse ++ items) true) frames := by
  induction items generalizing done with
  | nil => exact absurd rfl hne
  | cons t items ih =>
      have ht := (h t List.mem_cons_self).foldl (.list done :: frames)
      cases items with
      | nil =>
          rw [itemTokens, List.foldl_append, ht, ← List.reverse_cons]
          rfl
      | cons u items =>
          have hrest := ih (fun t hmem => h t (List.mem_cons_of_mem _ hmem))
            (List.cons_ne_nil u items) (t :: done)
          have htokens : itemTokens (t :: u :: items) =
              t.tokens ++ .comma :: itemTokens (u :: items) := rfl
          rw [List.reverse_cons, List.append_assoc] at hrest
          rw [htokens, List.append_assoc, List.foldl_append, ht]
          exact hrest

/-- The members of a record are read one by one up to the end of the record. -/
theorem foldl_memberTokens {members : List (Option String × Tree)}
    (h : ∀ m ∈ members, ReadsTo m.2.tokens m.2) (hne : members ≠ [])
    (done : List (Option String × Tree)) (frames : List Frame) :
    (memberTokens members ++ [Token.closeRecord]).foldl step (.recordKey done frames) =
      close (.record (done.reverse ++ members) true) frames := by
  induction members generalizing done with
  | nil => exact absurd rfl hne
  | cons m members ih =>
      rcases m with ⟨key, t⟩
      have ht := (h (key, t) List.mem_cons_self).foldl (.record done key :: frames)
      have hkey : ∀ ts, (Token.str key :: .colon :: ts).foldl step (.recordKey done frames) =
          ts.foldl step (.value (.record done key :: frames)) := fun ts => rfl
      cases members with
      | nil =>
          rw [memberTokens, List.cons_append, List.cons_append, hkey, List.foldl_append, ht,
            ← List.reverse_cons]
          rfl
      | cons n members =>
          have hrest := ih (fun m hmem => h m (List.mem_cons_of_mem _ hmem))
            (List.cons_ne_nil n members) ((key, t) :: done)
          have htokens : memberTokens ((key, t) :: n :: members) =
              .str key :: .colon :: (t.tokens ++ .comma :: memberTokens (n :: members)) :=
            rfl
          rw [List.reverse_cons, List.append_assoc] at hrest
          rw [htokens, List.cons_append, List.cons_append, hkey, List.append_assoc,
            List.foldl_append, ht]
          exact hrest

/-- Items in brackets are read to a list. -/
theorem readsTo_list {items : List Tree} (h : ∀ t ∈ items, ReadsTo t.tokens t) :
    ReadsTo (Tree.list items true).tokens (.list items true) := by
  refine ⟨fun frames => ?_, by simp [tokens], List.cons_ne_nil _ _⟩
  have hopen : (Tree.list items true).tokens.foldl step (.value frames) =
      (itemTokens items ++ [Token.closeList]).foldl step (.listStart frames) := rfl
  rw [hopen]
  cases items with
  | nil => rfl
  | cons t items =>
      have hlist := foldl_itemTokens h (List.cons_ne_nil t items) [] frames
      obtain ⟨more, hmore⟩ : ∃ more, itemTokens (t :: items) = t.tokens ++ more := by
        cases items with
        | nil => exact ⟨[], (List.append_nil _).symm⟩
        | cons u items => exact ⟨_, rfl⟩
      rw [hmore, List.append_assoc] at hlist ⊢
      rw [(h t List.mem_cons_self).foldl_listStart]
      exact hlist

/-- Members in braces are read to a record. -/
theorem readsTo_record {members : List (Option String × Tree)}
    (h : ∀ m ∈ members, ReadsTo m.2.tokens m.2) :
    ReadsTo (Tree.record members true).tokens (.record members true) := by
  refine ⟨fun frames => ?_, by simp [tokens], List.cons_ne_nil _ _⟩
  have hopen : (Tree.record members true).tokens.foldl step (.value frames) =
      (memberTokens members ++ [Token.closeRecord]).foldl step (.recordStart frames) := rfl
  rw [hopen]
  cases members with
  | nil => rfl
  | cons m members =>
      -- The first key is read as any other.
      have hfirst : (memberTokens (m :: members) ++ [Token.closeRecord]).foldl step
            (.recordStart frames) =
          (memberTokens (m :: members) ++ [Token.closeRecord]).foldl step
            (.recordKey [] frames) := by
        cases members <;> rfl
      rw [hfirst]
      exact foldl_memberTokens h (List.cons_ne_nil m members) [] frames

end Reading

namespace Tree

open Token

/-- The tokens of a document without flaws are read to the document. -/
theorem readsTo {t : Tree} (h : t.wellShaped = true) : Reading.ReadsTo t.tokens t := by
  induction t using Tree.induction with
  | null => exact Reading.readsTo_singleton (fun frames => rfl) (by simp)
  | bool b => exact Reading.readsTo_singleton (fun frames => rfl) (by simp)
  | num n => exact Reading.readsTo_singleton (fun frames => rfl) (by simp)
  | str s => exact Reading.readsTo_singleton (fun frames => rfl) (by simp)
  | list items whole ih =>
      rw [wellShaped, Bool.and_eq_true, allWellShaped_iff] at h
      rcases h with ⟨hitems, rfl⟩
      exact Reading.readsTo_list fun t ht => ih t ht (hitems t ht)
  | record members whole ih =>
      rw [wellShaped, Bool.and_eq_true, membersWellShaped_iff] at h
      rcases h with ⟨hmembers, rfl⟩
      exact Reading.readsTo_record fun m hm => ih m hm (hmembers m hm)
  | broken => cases h

/-! ## Numerals stand apart -/

/-- A token that is no numeral stands apart from all others. -/
theorem apart_cons {token : Token} {ts : List Token} (h : Apart ts)
    (hne : ∀ n, token ≠ .num n) : Apart (token :: ts) :=
  List.isChain_cons.2 ⟨fun _ _ n _ hn => hne n hn.1, h⟩

/-- Tokens that no numeral begins stand apart from a document before them. -/
structure Separate (ts : List Token) : Prop where
  apart : Apart ts
  head : ∀ n, ts.head? ≠ some (.num n)

/-- A token that is no numeral may follow a document. -/
theorem Separate.cons (token : Token) {ts : List Token} (h : Apart ts)
    (hne : ∀ n, token ≠ .num n) : Separate (token :: ts) :=
  ⟨apart_cons h hne, by simpa using hne⟩

/-- The numerals of items stand apart. -/
theorem apart_itemTokens {items : List Tree} {ts : List Token}
    (h : ∀ t ∈ items, ∀ ts, Separate ts → Apart (t.tokens ++ ts)) (hts : Separate ts) :
    Apart (itemTokens items ++ ts) := by
  induction items with
  | nil => exact hts.apart
  | cons t items ih =>
      have ht := h t List.mem_cons_self
      cases items with
      | nil => exact ht ts hts
      | cons u items =>
          have hrest := ih fun t hmem => h t (List.mem_cons_of_mem _ hmem)
          have hall := ht _ (.cons .comma hrest (by simp))
          rwa [← List.cons_append, ← List.append_assoc] at hall

/-- The numerals of members stand apart. -/
theorem apart_memberTokens {members : List (Option String × Tree)} {ts : List Token}
    (h : ∀ m ∈ members, ∀ ts, Separate ts → Apart (m.2.tokens ++ ts)) (hts : Separate ts) :
    Apart (memberTokens members ++ ts) := by
  induction members with
  | nil => exact hts.apart
  | cons m members ih =>
      have hm := h m List.mem_cons_self
      rcases m with ⟨key, t⟩
      cases members with
      | nil => exact apart_cons (apart_cons (hm ts hts) (by simp)) (by simp)
      | cons n members =>
          have hrest := ih fun m hmem => h m (List.mem_cons_of_mem _ hmem)
          have hall := hm _ (.cons .comma hrest (by simp))
          rw [← List.cons_append, ← List.append_assoc] at hall
          exact apart_cons (apart_cons hall (by simp)) (by simp)

/-- Behind a document stands apart what no numeral begins. -/
theorem apart_append (t : Tree) {ts : List Token} (hts : Separate ts) : Apart (t.tokens ++ ts) := by
  induction t using Tree.induction generalizing ts with
  | null | bool | str | broken => exact apart_cons hts.apart (by simp)
  | num n => exact List.isChain_cons.2 ⟨fun _ hy _ n' hn => hts.head n' (hn.2 ▸ hy), hts.apart⟩
  | list items whole ih =>
      rw [tokens, List.cons_append, List.append_assoc]
      exact apart_cons (apart_itemTokens (fun t ht _ => ih t ht)
        (.cons .closeList hts.apart (by simp))) (by simp)
  | record members whole ih =>
      rw [tokens, List.cons_append, List.append_assoc]
      exact apart_cons (apart_memberTokens (fun m hm _ => ih m hm)
        (.cons .closeRecord hts.apart (by simp))) (by simp)

/-- The numerals of a document stand apart. -/
theorem apart_tokens (t : Tree) : Apart t.tokens := by
  have h := t.apart_append ⟨List.isChain_nil, by simp⟩
  rwa [List.append_nil] at h

/-! ## Documents without flaws -/

/-- The tokens of items have no flaw if those of each item have none. -/
theorem bad_notMem_itemTokens {items : List Tree} (h : ∀ t ∈ items, Token.bad ∉ t.tokens) :
    Token.bad ∉ itemTokens items := by
  induction items with
  | nil => simp [itemTokens]
  | cons t items ih =>
      have ht := h t List.mem_cons_self
      have hrest := ih fun t hmem => h t (List.mem_cons_of_mem _ hmem)
      cases items with
      | nil => exact ht
      | cons u items =>
          rw [itemTokens, List.mem_append, List.mem_cons]
          · simp [ht, hrest]
          · simp

/-- The tokens of members have no flaw if those of each value have none. -/
theorem bad_notMem_memberTokens {members : List (Option String × Tree)}
    (h : ∀ m ∈ members, Token.bad ∉ m.2.tokens) : Token.bad ∉ memberTokens members := by
  induction members with
  | nil => simp [memberTokens]
  | cons m members ih =>
      have hm := h m List.mem_cons_self
      have hrest := ih fun m hmem => h m (List.mem_cons_of_mem _ hmem)
      rcases m with ⟨key, t⟩
      cases members with
      | nil => simpa [memberTokens] using hm
      | cons n members =>
          rw [memberTokens, List.mem_cons, List.mem_cons, List.mem_append, List.mem_cons]
          · simp [show Token.bad ∉ t.tokens from hm, hrest]
          · simp

/-- A document without flaws has tokens without flaws. -/
theorem bad_notMem_tokens {t : Tree} (h : t.wellShaped = true) : Token.bad ∉ t.tokens := by
  induction t using Tree.induction with
  | null | bool | num | str => simp [tokens]
  | list items whole ih =>
      rw [wellShaped, Bool.and_eq_true, allWellShaped_iff] at h
      simpa [tokens] using bad_notMem_itemTokens fun t ht => ih t ht (h.1 t ht)
  | record members whole ih =>
      rw [wellShaped, Bool.and_eq_true, membersWellShaped_iff] at h
      simpa [tokens] using bad_notMem_memberTokens fun m hm => ih m hm (h.1 m hm)
  | broken => cases h

/-! ## What a document stands for -/

/-- Items stand for values one by one. -/
theorem values?_cons_eq_some_iff {room : Nat} {t : Tree} {items : List Tree} {vs : List Value} :
    values? room (t :: items) = some vs ↔
      ∃ v vs', t.value? room = some v ∧ values? room items = some vs' ∧ vs = v :: vs' := by
  rw [values?]
  cases t.value? room <;> cases values? room items <;> simp [eq_comm]

/-- Members stand for values one by one, if their keys stand for text. -/
theorem memberValues?_cons_eq_some_iff {room : Nat} {key : Option String} {t : Tree}
    {members : List (Option String × Tree)} {vs : List (String × Value)} :
    memberValues? room ((key, t) :: members) = some vs ↔
      ∃ k v vs', key = some k ∧ t.value? room = some v ∧ memberValues? room members = some vs' ∧
        vs = (k, v) :: vs' := by
  cases key with
  | none => simp [memberValues?]
  | some k =>
      cases ht : t.value? room <;> cases hrest : memberValues? room members <;>
        simp [memberValues?, ht, hrest, eq_comm]

/-- Each item of a list stands for a value, and nothing else is in the list of values. -/
theorem exists_of_values? {room : Nat} {items : List Tree} {vs : List Value}
    (h : values? room items = some vs) :
    (∀ t ∈ items, ∃ v, t.value? room = some v) ∧ ∀ v ∈ vs, ∃ t ∈ items, t.value? room = some v := by
  induction items generalizing vs with
  | nil =>
      obtain rfl : [] = vs := Option.some.inj h
      simp
  | cons t items ih =>
      rcases values?_cons_eq_some_iff.1 h with ⟨v, vs', ht, hrest, rfl⟩
      rcases ih hrest with ⟨hitems, hvs⟩
      refine ⟨List.forall_mem_cons.2 ⟨⟨v, ht⟩, hitems⟩,
        List.forall_mem_cons.2 ⟨⟨t, List.mem_cons_self, ht⟩, fun w hw => ?_⟩⟩
      rcases hvs w hw with ⟨u, hu, huw⟩
      exact ⟨u, List.mem_cons_of_mem _ hu, huw⟩

/-- Each member of a record stands for a value, and no other values are in the record. -/
theorem exists_of_memberValues? {room : Nat} {members : List (Option String × Tree)}
    {vs : List (String × Value)} (h : memberValues? room members = some vs) :
    (∀ m ∈ members, ∃ v, m.2.value? room = some v) ∧
      ∀ n ∈ vs, ∃ m ∈ members, m.2.value? room = some n.2 := by
  induction members generalizing vs with
  | nil =>
      obtain rfl : [] = vs := Option.some.inj h
      simp
  | cons m members ih =>
      rcases m with ⟨key, t⟩
      rcases memberValues?_cons_eq_some_iff.1 h with ⟨k, v, vs', -, ht, hrest, rfl⟩
      rcases ih hrest with ⟨hmembers, hvs⟩
      refine ⟨List.forall_mem_cons.2 ⟨⟨v, ht⟩, hmembers⟩,
        List.forall_mem_cons.2 ⟨⟨(key, t), List.mem_cons_self, ht⟩, fun n hn => ?_⟩⟩
      rcases hvs n hn with ⟨m, hm, hmn⟩
      exact ⟨m, List.mem_cons_of_mem _ hm, hmn⟩

/-- What stands for a value has no flaw. -/
theorem wellShaped_of_value? {t : Tree} {room : Nat} {v : Value} (h : t.value? room = some v) :
    t.wellShaped = true := by
  induction t using Tree.induction generalizing room v with
  | null | bool | num | str => rfl
  | list items whole ih =>
      rw [value?] at h
      split_ifs at h with hwhole
      rcases Option.map_eq_some_iff.1 h with ⟨vs, hvs, -⟩
      rw [wellShaped, (Bool.and_eq_true_iff.1 hwhole).1, Bool.and_true, allWellShaped_iff]
      intro t ht
      rcases (exists_of_values? hvs).1 t ht with ⟨v, hv⟩
      exact ih t ht hv
  | record members whole ih =>
      rw [value?] at h
      split_ifs at h with hwhole
      rcases Option.map_eq_some_iff.1 h with ⟨vs, hvs, -⟩
      rw [wellShaped, (Bool.and_eq_true_iff.1 hwhole).1, Bool.and_true, membersWellShaped_iff]
      intro m hm
      rcases (exists_of_memberValues? hvs).1 m hm with ⟨v, hv⟩
      exact ih m hm hv
  | broken => cases h

end Tree

/-- A text spells just its own document. -/
theorem Document.ofText_eq_iff {t : Tree} (h : t.wellShaped = true) {text : String} :
    Document.ofText text = { root := t } ↔ t.SpelledBy text := by
  constructor
  · intro ht
    have htook := (show Reading.Took [] (.value []) from rfl).foldl (Token.ofText text)
    have htokens : Token.ofText text = t.tokens := htook.eq_tokens ht h
    exact ⟨h, (Token.ofText_eq_iff t.apart_tokens (Tree.bad_notMem_tokens h)).1 htokens⟩
  · intro ht
    have htokens := (Token.ofText_eq_iff t.apart_tokens (Tree.bad_notMem_tokens h)).2 ht.spells
    rw [ofText, htokens, ofTokens, (Tree.readsTo h).foldl]
    rfl

/-- A text spells one document only. -/
theorem Tree.SpelledBy.unique {t t' : Tree} {text : String} (h : t.SpelledBy text)
    (h' : t'.SpelledBy text) : t = t' := by
  have ht := (Document.ofText_eq_iff h.wellShaped).2 h
  have ht' := (Document.ofText_eq_iff h'.wellShaped).2 h'
  exact congrArg Document.root (ht.symm.trans ht')

/-- The values that a text stands for are those of the document that it spells. -/
theorem Value.ofText?_eq_some_iff {text : String} {v : Value} :
    Value.ofText? text = some v ↔ ∃ t : Tree, t.SpelledBy text ∧ t.value? maxDepth = some v := by
  constructor
  · intro hv
    rw [ofText?] at hv
    split_ifs at hv with htrailing
    have hshape := Tree.wellShaped_of_value? hv
    refine ⟨_, (Document.ofText_eq_iff hshape).1 ?_, hv⟩
    rw [Bool.not_eq_true] at htrailing
    rw [← htrailing]
  · rintro ⟨t, ht, hv⟩
    rw [ofText?, (Document.ofText_eq_iff ht.wellShaped).2 ht]
    exact hv

end Json
end AwardsDesk
