import AwardsDesk.Json.Settings
import AwardsDesk.Proofs.Json.Entries
import Mathlib.Data.List.Perm.Basic

/-!
# Settings that are given

A document gives some settings their values and leaves the others as they were.  What it takes for
settings to become others is said entry by entry, and settings are read from just the documents that
say so, whatever the order of their members.

Main definitions:

- Definition {lit}`Filled`: every entry holds of what is found under its name.
- Structure {lit}`Settings.Describes`: what it takes for settings to become others.
- Definition {lit}`Tree.Gives`: what a record or a list gives for each name.
- Definition {lit}`Tree.RecordOf`: an object holds given fields, each once, among others.

Main results:

- Theorems {lit}`Settings.Describes.readMembers_eq_ok_iff` and
  {lit}`Settings.Describes.readItems_eq_ok_iff`: settings are read member by member, and item by
  item.
- Theorem {lit}`Settings.Describes.ofText_eq_ok_iff`: settings are read from just the texts that
  give them.
-/

namespace AwardsDesk
namespace Json

/-- A field that is given if there is something to give. -/
def Entry.chosen {α ν : Type} (name : String) (o : Option α) (given : α → ν → Prop) : Entry ν where
  name := name
  given := fun v => ∃ a, o = some a ∧ given a v
  absent := o = none

/-- A field that is given or not has the given value or the usual one. -/
theorem Entry.Holds.spare {α β ν : Type} {name : String} {o : Option α} {given : α → ν → Prop}
    {given' : β → ν → Prop} {make : α → β} {usual : β} {found : Option ν}
    (h : (Entry.chosen name o given).Holds found)
    (hmake : ∀ a v, found = some v → given a v → given' (make a) v) :
    (Entry.spare name (given' (o.elim usual make)) (o.elim usual make = usual)).Holds found := by
  cases found with
  | none =>
      have ho : o = none := h
      subst ho
      exact rfl
  | some v =>
      rcases h with ⟨a, rfl, ha⟩
      exact hmake a v rfl ha

/-- Every entry holds of what is found under its name. -/
def Filled {ν : Type} (entries : List (Entry ν)) (found : String → Option ν) : Prop :=
  ∀ p ∈ entries, p.Holds (found p.name)

/-- It matters only what is found under the names of the entries. -/
theorem filled_congr {ν : Type} {entries : List (Entry ν)} {found found' : String → Option ν}
    (h : ∀ p ∈ entries, found p.name = found' p.name) :
    Filled entries found ↔ Filled entries found' := by
  refine forall₂_congr fun p hp => ?_
  rw [h p hp]

/-! ## Members -/

/-- What is found at a key that the first entry may have. -/
theorem lookup_cons_eq {κ ν : Type} [BEq κ] [LawfulBEq κ] [DecidableEq κ] (k : κ) (v : ν)
    (l : List (κ × ν)) (key : κ) :
    ((k, v) :: l).lookup key = if key = k then some v else l.lookup key := by
  by_cases heq : key = k
  · simp [heq]
  · rw [List.lookup_cons, beq_false_of_ne heq, if_neg heq]

/-- What is found is a member. -/
theorem mem_of_lookup {members : List (Option String × Tree)} {key : Option String} {t : Tree}
    (h : members.lookup key = some t) : (key, t) ∈ members := by
  induction members with
  | nil => cases h
  | cons m members ih =>
      rcases m with ⟨k, u⟩
      rw [lookup_cons_eq] at h
      split_ifs at h with heq
      · cases h
        subst heq
        exact List.mem_cons_self
      · exact List.mem_cons_of_mem _ (ih h)

/-- A member that is there once is found. -/
theorem lookup_of_count {members : List (Option String × Tree)} {key : Option String} {t : Tree}
    (hmem : (key, t) ∈ members) (hcount : (members.map Prod.fst).count key ≤ 1) :
    members.lookup key = some t := by
  induction members with
  | nil => cases hmem
  | cons m members ih =>
      rcases m with ⟨k, u⟩
      rw [lookup_cons_eq]
      rw [List.map_cons, List.count_cons] at hcount
      rcases List.mem_cons.1 hmem with heq | hmem
      · cases heq
        exact if_pos rfl
      · have hpos : 0 < (members.map Prod.fst).count key :=
          List.count_pos_iff.2 (List.mem_map_of_mem hmem)
        have hne : key ≠ k := by
          rintro rfl
          rw [if_pos (by simp)] at hcount
          omega
        rw [if_neg hne]
        exact ih hmem (by omega)

/-! ## Trees of settings -/

namespace Tree

variable {α : Type} {t : Tree}

/-- A number of 64 bits. -/
def IsUInt64 (u : UInt64) (t : Tree) : Prop :=
  ∃ n, t = .num n ∧ n.IsNat u.toNat

/-- Text. -/
def IsText (s : String) (t : Tree) : Prop :=
  t = .str (some s)

/-- Null, or what stands for something. -/
def OrNull (given : α → Tree → Prop) : Option α → Tree → Prop
  | none, t => t = .null
  | some a, t => given a t

/-- Numbers of 64 bits are read. -/
theorem uint64_eq_ok_iff {u : UInt64} : t.uint64 = .ok u ↔ IsUInt64 u t := by
  cases t with
  | num n =>
      have hnum : IsUInt64 u (.num n) ↔ n.IsNat u.toNat := by simp [IsUInt64]
      rw [hnum]
      constructor
      · intro h
        simp only [uint64] at h
        split_ifs at h
        split at h
        · rename_i k hk
          cases h
          rcases Numeral.int?_eq_some_iff.1 hk with ⟨hn, hlt⟩
          rwa [UInt64.toNat_ofNat_of_lt' hlt]
        · cases h
        · cases h
      · intro hn
        have hint := Numeral.int?_eq_some_iff.2 ⟨hn, u.toNat_lt⟩
        simp [uint64, hn.isTooLarge_eq u.toNat_lt, hint]
  | null | bool | str | list | record | broken => simp [uint64, IsUInt64]

/-- A number has no flaw. -/
theorem IsUInt64.wellShaped {u : UInt64} (h : IsUInt64 u t) : t.wellShaped = true := by
  rcases h with ⟨n, rfl, -⟩
  rfl

/-- Text is read. -/
theorem text_eq_ok_iff {s : String} : t.text = .ok s ↔ IsText s t := by
  cases t with
  | str o => cases o <;> simp [text, IsText]
  | null | bool | num | list | record | broken => simp [text, IsText]

/-- Text has no flaw. -/
theorem IsText.wellShaped {s : String} (h : IsText s t) : t.wellShaped = true := by
  rw [show t = .str (some s) from h]
  rfl

/-- Null is read as nothing. -/
theorem orNull_eq_ok_iff {r : Tree → Except Fault α} {given : α → Tree → Prop}
    (h : ∀ a, r t = .ok a ↔ given a t) (hnull : ∀ a, ¬given a .null) {o : Option α} :
    t.orNull r = .ok o ↔ OrNull given o t := by
  by_cases hne : t = .null
  · subst hne
    cases o <;> simp [orNull, OrNull, hnull]
  · have heq : t.orNull r = (r t).map some := by
      unfold orNull
      split
      · exact absurd rfl hne
      · rfl
    rw [heq, map_eq_ok_iff]
    cases o with
    | none => simp [OrNull, hne]
    | some a => simpa [OrNull] using h a

/-- What is found under each name: in a record, whose keys stand for text and whose known members
are there once, the member of the name, and in a list the item in its place. -/
def Gives (names : List String) (t : Tree) (found : String → Option Tree) : Prop :=
  match t with
  | .record members whole => whole = true ∧ (∀ m ∈ members, m.1 ≠ none ∧ m.2.wellShaped = true) ∧
      (∀ name ∈ names, (members.map Prod.fst).count (some name) ≤ 1) ∧
      found = fun name => members.lookup (some name)
  | .list items whole => whole = true ∧ (∀ t ∈ items, t.wellShaped = true) ∧
      items.length ≤ names.length ∧ found = fun name => (names.zip items).lookup name
  | _ => False

/-- What gives settings has no flaw. -/
theorem Gives.wellShaped {names : List String} {t : Tree} {found : String → Option Tree}
    (h : t.Gives names found) : t.wellShaped = true := by
  cases t with
  | record members whole =>
      rcases h with ⟨rfl, hmembers, -, -⟩
      rw [Tree.wellShaped, Bool.and_true, membersWellShaped_iff]
      exact fun m hm => (hmembers m hm).2
  | list items whole =>
      rcases h with ⟨rfl, hitems, -, -⟩
      rwa [Tree.wellShaped, Bool.and_true, allWellShaped_iff]
  | null | bool | num | str | broken => exact h.elim

/-- An object whose keys stand for text and which holds the entries, each once at most, among other
members. -/
def RecordOf (entries : List (Entry Tree)) (t : Tree) : Prop :=
  ∃ members, t = .record members true ∧ (∀ m ∈ members, m.1 ≠ none) ∧
    (∀ p ∈ entries, (members.map Prod.fst).count (some p.name) ≤ 1) ∧
    Filled entries fun name => members.lookup (some name)

/-- An object that has a member of one of the names more than once. -/
def Repeats (names : List String) : Tree → Prop
  | .record members _ => ∃ name ∈ names, 1 < (members.map Prod.fst).count (some name)
  | _ => False

/-- What repeats a known member gives no settings. -/
theorem Gives.not_repeats {names : List String} {t : Tree} {found : String → Option Tree}
    (h : t.Gives names found) : ¬t.Repeats names := by
  cases t with
  | record members whole =>
      rintro ⟨name, hname, hcount⟩
      exact absurd (h.2.2.1 name hname) (Nat.not_le.2 hcount)
  | null | bool | num | str | list | broken => exact id

/-- An object of settings gives its members. -/
theorem RecordOf.gives {entries : List (Entry Tree)} {t : Tree} (h : t.RecordOf entries)
    (hshape : t.wellShaped = true) : ∃ found, t.Gives (entries.map Entry.name) found ∧
      Filled entries found ∧ ∀ name u, found name = some u → u.wellShaped = true := by
  rcases h with ⟨members, rfl, hkeys, hcount, hfilled⟩
  rw [Tree.wellShaped, Bool.and_true, membersWellShaped_iff] at hshape
  refine ⟨_, ⟨rfl, fun m hm => ⟨hkeys m hm, hshape m hm⟩, ?_, rfl⟩, hfilled, fun name u hu => ?_⟩
  · simpa using hcount
  · exact hshape (some name, u) (mem_of_lookup hu)

end Tree

/-! ## Settings entry by entry -/

namespace Settings

variable {σ : Type} {settings : List (Setting σ)} {entries : σ → σ → List (Entry Tree)}

/-- What it takes for settings to become others, entry by entry, each under the name of a
setting. -/
structure Describes (settings : List (Setting σ)) (entries : σ → σ → List (Entry Tree)) : Prop where
  names : ∀ s c, (entries s c).map Entry.name = settings.map Setting.name
  nodup : (settings.map Setting.name).Nodup
  /-- Nothing changes where nothing is given. -/
  same : ∀ s c, (∀ p ∈ entries s c, p.absent) ↔ c = s
  shaped : ∀ st ∈ settings, ∀ t s s', st.put t s = .ok s' → t.wellShaped = true
  /-- A setting that is put first is one more that is given. -/
  put : ∀ st ∈ settings, ∀ t s c (found : String → Option Tree), found st.name = none →
    ((∃ s', st.put t s = .ok s' ∧ Filled (entries s' c) found) ↔
      Filled (entries s c) fun name => if name = st.name then some t else found name)

/-- A setting that replaces one entry puts what is given for it. -/
theorem put_iff {γ : Type} {st : Setting σ} (i : Nat) (get : σ → γ) {set : γ → σ → σ}
    {r : Tree → Except Fault γ} {given : γ → Tree → Prop}
    (hput : ∀ t s, st.put t s = (r t).map fun a => set a s) (hr : ∀ t a, r t = .ok a ↔ given a t)
    (hget : ∀ a s, get (set a s) = a)
    (hentry : ∀ s c, (entries s c)[i]? = some (.spare st.name (given (get c)) (get c = get s)))
    (hothers : ∀ a s c, (entries (set a s) c).eraseIdx i = (entries s c).eraseIdx i)
    (hfresh : ∀ s c, ∀ p ∈ (entries s c).eraseIdx i, p.name ≠ st.name) (t : Tree) (s c : σ)
    (found : String → Option Tree) (hfound : found st.name = none) :
    (∃ s', st.put t s = .ok s' ∧ Filled (entries s' c) found) ↔
      Filled (entries s c) fun name => if name = st.name then some t else found name := by
  have hsplit : ∀ s, ∀ found : String → Option Tree, Filled (entries s c) found ↔
      (Entry.spare st.name (given (get c)) (get c = get s)).Holds (found st.name) ∧
        Filled ((entries s c).eraseIdx i) found := by
    intro s found
    rcases List.getElem?_eq_some_iff.1 (hentry s c) with ⟨hi, hentry⟩
    have hperm := List.getElem_cons_eraseIdx_perm hi
    rw [hentry] at hperm
    simp only [Filled, ← hperm.mem_iff, List.forall_mem_cons]
    rfl
  have hkept : Filled ((entries s c).eraseIdx i)
        (fun name => if name = st.name then some t else found name) ↔
      Filled ((entries s c).eraseIdx i) found :=
    Json.filled_congr fun p hp => if_neg (hfresh s c p hp)
  simp only [hsplit, hfound, hkept, if_pos, hput, map_eq_ok_iff]
  constructor
  · rintro ⟨-, ⟨a, ha, rfl⟩, hsame, hrest⟩
    have hc : get c = a := hsame.trans (hget a s)
    rw [hothers] at hrest
    exact ⟨hc ▸ (hr t a).1 ha, hrest⟩
  · rintro ⟨hgiven, hrest⟩
    exact ⟨_, ⟨get c, (hr t _).2 hgiven, rfl⟩, (hget _ s).symm, by rwa [hothers]⟩

namespace Describes

/-- It matters only what is found under the names of settings. -/
theorem filled_congr (h : Describes settings entries) (s c : σ)
    {found found' : String → Option Tree}
    (heq : ∀ name ∈ settings.map Setting.name, found name = found' name) :
    Filled (entries s c) found ↔ Filled (entries s c) found' := by
  refine Json.filled_congr fun p hp => heq p.name ?_
  rw [← h.names s c]
  exact List.mem_map_of_mem hp

/-- Where nothing is found nothing changes. -/
theorem filled_none_iff (h : Describes settings entries) {s c : σ} :
    Filled (entries s c) (fun _ => none) ↔ c = s :=
  h.same s c

/-- A member of an unknown name is passed over. -/
theorem readMembers_unknown {key : String} (hfind : settings.find? (·.name == key) = none)
    (t : Tree) (members : List (Option String × Tree)) (seen : List String) (s c : σ) :
    readMembers settings seen s ((some key, t) :: members) = .ok c ↔
      t.wellShaped = true ∧ readMembers settings seen s members = .ok c := by
  cases ht : t.wellShaped <;> simp [readMembers, hfind, ht]

/-- A member of a known name is a setting, unless it was there before. -/
theorem readMembers_known {st : Setting σ} (hfind : settings.find? (·.name == st.name) = some st)
    (t : Tree) (members : List (Option String × Tree)) (seen : List String) (s c : σ) :
    readMembers settings seen s ((some st.name, t) :: members) = .ok c ↔
      st.name ∉ seen ∧ ∃ s', st.put t s = .ok s' ∧
        readMembers settings (st.name :: seen) s' members = .ok c := by
  by_cases hseen : st.name ∈ seen
  · simp [readMembers, hfind, hseen]
  · have hread : readMembers settings seen s ((some st.name, t) :: members) =
        st.put t s >>= fun s' => readMembers settings (st.name :: seen) s' members := by
      simp only [readMembers, hfind, if_neg hseen]
    rw [hread, bind_eq_ok_iff]
    exact (and_iff_right hseen).symm

/-- What is found under a name that the first member may have. -/
theorem lookup_member (key : String) (t : Tree) (members : List (Option String × Tree))
    (name : String) : ((some key, t) :: members).lookup (some name) =
      if name = key then some t else members.lookup (some name) := by
  simp only [lookup_cons_eq, Option.some.injEq]

/-- How often a name is there that the first member may have. -/
theorem count_member (key : String) (keys : List (Option String)) (name : String) :
    (some key :: keys).count (some name) =
      if name = key then keys.count (some name) + 1 else keys.count (some name) := by
  split_ifs with heq
  · rw [heq, List.count_cons_self]
  · exact List.count_cons_of_ne (by simpa using Ne.symm heq)

/-- Nothing is found under a name that is not there. -/
theorem lookup_eq_none_of_count {members : List (Option String × Tree)} {name : String}
    (h : (members.map Prod.fst).count (some name) = 0) : members.lookup (some name) = none := by
  rw [List.lookup_eq_none_iff]
  intro m hm
  have hne : m.1 ≠ some name := by
    rintro heq
    exact List.count_eq_zero.1 h (heq ▸ List.mem_map_of_mem hm)
  simpa using hne.symm

/-- Known names are there once, and not if they were seen before: one more member has a name that
was not seen, and is seen from then on. -/
theorem count_le_cons_iff {names seen : List String} {key : String} (hkey : key ∈ names)
    (count : String → Nat) :
    (∀ name ∈ names, (if name = key then count name + 1 else count name) ≤
        if name ∈ seen then 0 else 1) ↔
      key ∉ seen ∧ ∀ name ∈ names, count name ≤ if name ∈ key :: seen then 0 else 1 := by
  constructor
  · intro h
    have hfirst := h key hkey
    rw [if_pos rfl] at hfirst
    have hseen : key ∉ seen := by
      intro hseen
      rw [if_pos hseen] at hfirst
      omega
    rw [if_neg hseen] at hfirst
    refine ⟨hseen, fun name hname => ?_⟩
    by_cases heq : name = key
    · subst heq
      rw [if_pos List.mem_cons_self]
      omega
    · simpa [heq] using h name hname
  · rintro ⟨hseen, h⟩ name hname
    by_cases heq : name = key
    · subst heq
      have hzero : count name = 0 := by simpa using h name hname
      rw [if_pos rfl, if_neg hseen, hzero]
    · simpa [heq] using h name hname

/-- Settings are read member by member. -/
theorem readMembers_eq_ok_iff (h : Describes settings entries)
    {members : List (Option String × Tree)} {seen : List String} {s c : σ} :
    readMembers settings seen s members = .ok c ↔
      (∀ m ∈ members, m.1 ≠ none ∧ m.2.wellShaped = true) ∧
      (∀ name ∈ settings.map Setting.name,
        (members.map Prod.fst).count (some name) ≤ if name ∈ seen then 0 else 1) ∧
      Filled (entries s c) fun name => members.lookup (some name) := by
  induction members generalizing seen s with
  | nil =>
      have hread : readMembers settings seen s [] = .ok s := rfl
      have hfilled : Filled (entries s c) (fun name => List.lookup (some name) []) ↔ c = s :=
        h.filled_none_iff
      rw [hread, hfilled]
      constructor
      · rintro ⟨⟩
        exact ⟨by simp, by simp, rfl⟩
      · rintro ⟨-, -, rfl⟩
        rfl
  | cons m members ih =>
      rcases m with ⟨_ | key, t⟩
      · simp [readMembers]
      · rw [List.forall_mem_cons, List.map_cons]
        cases hfind : settings.find? (·.name == key) with
        | none =>
            have hne : ∀ name ∈ settings.map Setting.name, name ≠ key := by simpa using hfind
            have hfilled : Filled (entries s c)
                  (fun name => ((some key, t) :: members).lookup (some name)) ↔
                Filled (entries s c) (fun name => members.lookup (some name)) :=
              h.filled_congr s c fun name hname => by rw [lookup_member, if_neg (hne name hname)]
            have hcount : ∀ name ∈ settings.map Setting.name,
                (some key :: members.map Prod.fst).count (some name) =
                  (members.map Prod.fst).count (some name) := fun name hname => by
              rw [count_member, if_neg (hne name hname)]
            rw [readMembers_unknown hfind, ih, hfilled]
            simp only [ne_eq, reduceCtorEq, not_false_eq_true, true_and, and_assoc]
            refine and_congr_right fun _ => and_congr_right fun _ => and_congr_left fun _ => ?_
            exact forall₂_congr fun name hname => by rw [hcount name hname]
        | some st =>
            have hst : st ∈ settings := List.mem_of_find?_eq_some hfind
            obtain rfl : st.name = key := by simpa using List.find?_some hfind
            have hname : st.name ∈ settings.map Setting.name := List.mem_map_of_mem hst
            have hnone : (∀ name ∈ settings.map Setting.name,
                (members.map Prod.fst).count (some name) ≤
                  if name ∈ st.name :: seen then 0 else 1) →
                members.lookup (some st.name) = none :=
              fun hcount => lookup_eq_none_of_count (by simpa using hcount st.name hname)
            simp only [readMembers_known hfind, lookup_member, count_member,
              count_le_cons_iff hname, ih]
            constructor
            · rintro ⟨hseen, s', hput, hshape, hcount, hfilled⟩
              exact ⟨⟨⟨Option.some_ne_none _, h.shaped st hst t s s' hput⟩, hshape⟩,
                ⟨hseen, hcount⟩, (h.put st hst t s c _ (hnone hcount)).1 ⟨s', hput, hfilled⟩⟩
            · rintro ⟨⟨-, hshape⟩, ⟨hseen, hcount⟩, hfilled⟩
              rcases (h.put st hst t s c _ (hnone hcount)).2 hfilled with ⟨s', hput, hfilled'⟩
              exact ⟨hseen, s', hput, hshape, hcount, hfilled'⟩

/-- Settings are read item by item. -/
theorem readItems_eq_ok_iff (h : Describes settings entries) {rest : List (Setting σ)}
    (hrest : ∀ st ∈ rest, st ∈ settings) (hnodup : (rest.map Setting.name).Nodup)
    {items : List Tree} {s c : σ} :
    readItems s rest items = .ok c ↔
      (∀ t ∈ items, t.wellShaped = true) ∧ items.length ≤ rest.length ∧
      Filled (entries s c) fun name => ((rest.map Setting.name).zip items).lookup name := by
  induction items generalizing rest s with
  | nil =>
      have hread : readItems s rest [] = .ok s := by cases rest <;> rfl
      have hfilled : Filled (entries s c)
          (fun name => ((rest.map Setting.name).zip ([] : List Tree)).lookup name) ↔ c = s := by
        simpa using h.filled_none_iff
      rw [hread, hfilled]
      constructor
      · rintro ⟨⟩
        exact ⟨by simp, by simp, rfl⟩
      · rintro ⟨-, -, rfl⟩
        rfl
  | cons t items ih =>
      cases rest with
      | nil => simp [readItems]
      | cons st rest =>
          rcases List.forall_mem_cons.1 hrest with ⟨hst, hsettings⟩
          rw [List.map_cons, List.nodup_cons] at hnodup
          rcases hnodup with ⟨hfresh, hdistinct⟩
          have hlookup : ((rest.map Setting.name).zip items).lookup st.name = none := by
            rw [List.lookup_eq_none_iff]
            intro entry hentry
            have hne : st.name ≠ entry.1 := by
              rintro heq
              exact hfresh (heq ▸ (List.of_mem_zip hentry).1)
            simpa using hne
          have hput := h.put st hst t s c
            (fun name => ((rest.map Setting.name).zip items).lookup name) hlookup
          have hread : readItems s (st :: rest) (t :: items) =
              st.put t s >>= fun s' => readItems s' rest items := rfl
          simp only [hread, bind_eq_ok_iff, List.map_cons, List.zip_cons_cons, lookup_cons_eq,
            List.forall_mem_cons, List.length_cons, Nat.add_le_add_iff_right, ← hput,
            ih hsettings hdistinct]
          constructor
          · rintro ⟨s', hs', hshape, hlength, hfilled⟩
            exact ⟨⟨h.shaped st hst t s s' hs', hshape⟩, hlength, s', hs', hfilled⟩
          · rintro ⟨⟨-, hshape⟩, hlength, s', hs', hfilled⟩
            exact ⟨s', hs', hshape, hlength, hfilled⟩

/-- Settings are read from a container if it is closed. -/
theorem bind_whenWhole_eq_ok_iff {r : Except Fault σ} {whole : Bool} {c : σ} :
    r >>= whenWhole whole = .ok c ↔ whole = true ∧ r = .ok c := by
  cases r <;> cases whole <;> simp [whenWhole, bind, Except.bind]

/-- Settings are read from just the trees that give them. -/
theorem read_eq_ok_iff (h : Describes settings entries) {t : Tree} {s c : σ} :
    read settings s t = .ok c ↔
      ∃ found, t.Gives (settings.map Setting.name) found ∧ Filled (entries s c) found := by
  cases t with
  | record members whole =>
      have hread : read settings s (.record members whole) =
          readMembers settings [] s members >>= whenWhole whole := rfl
      rw [hread, bind_whenWhole_eq_ok_iff, h.readMembers_eq_ok_iff]
      simp only [List.not_mem_nil, if_false, Tree.Gives, and_assoc, exists_and_left,
        exists_eq_left]
  | list items whole =>
      have hread : read settings s (.list items whole) =
          readItems s settings items >>= whenWhole whole := rfl
      rw [hread, bind_whenWhole_eq_ok_iff, h.readItems_eq_ok_iff (fun _ hst => hst) h.nodup]
      simp only [List.length_map, Tree.Gives, and_assoc, exists_and_left, exists_eq_left]
  | null | bool | num | str | broken => simp [read, Tree.Gives]

/-- Settings are read from just the texts that give them. -/
theorem ofText_eq_ok_iff (h : Describes settings entries) {text : String} {s c : σ} :
    ofText settings s text = .ok c ↔ ∃ t : Tree, t.SpelledBy text ∧
      ∃ found, t.Gives (settings.map Setting.name) found ∧ Filled (entries s c) found := by
  have hread : ofText settings s text = read settings s (Document.ofText text).root >>=
      whenWhole (!(Document.ofText text).trailing) := rfl
  rw [hread, bind_whenWhole_eq_ok_iff, h.read_eq_ok_iff]
  constructor
  · rintro ⟨htrailing, found, hgives, hfilled⟩
    refine ⟨_, (Document.ofText_eq_iff hgives.wellShaped).1 ?_, found, hgives, hfilled⟩
    rw [Bool.not_eq_true'] at htrailing
    rw [← htrailing]
  · rintro ⟨t, ht, found, hgives, hfilled⟩
    rw [(Document.ofText_eq_iff ht.wellShaped).2 ht]
    exact ⟨rfl, found, hgives, hfilled⟩

end Describes
end Settings
end Json
end AwardsDesk
