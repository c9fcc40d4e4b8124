import AwardsDesk.Proofs.Store.Pickup

/-!
# Successions

When results change after awards have begun, a new awardee comes in the place of the active
one.  The former awardee stays on record but is not active any more, and the new one is linked
to the former one who already had the award.  Whatever is replaced and asked for, a place has
one active awardee at most.

Main definitions:

- Structure {lit}`Store.Event.Settled`: a place has one active awardee at most.
- Definition {lit}`Store.Awardee.HoldsPlaceOf`: an awardee is the active one in a place.
- Structure {lit}`Store.Event.Succession`: what a replacement leaves, adds and changes.

Main results:

- Theorem {lit}`Store.Event.Settled.succession`: a replacement is a succession.
- Theorem {lit}`Store.Event.Settled.history`: a place keeps one active awardee at most.
- Theorem {lit}`Store.Event.replacements_succeed`: every replacement of a history is a
  succession.
-/

namespace AwardsDesk
namespace Store

open Board (Request)

/-- An awardee is the active one in the place of another. -/
def Awardee.HoldsPlaceOf (a new : Awardee) : Prop :=
  a.active = true ∧ a.divId = new.divId ∧ a.place = new.place

instance (a new : Awardee) : Decidable (a.HoldsPlaceOf new) :=
  inferInstanceAs (Decidable (_ ∧ _))

/-- The record of an awardee when a new one has come. -/
def Awardee.retiredBy (a new : Awardee) : Awardee :=
  if a.HoldsPlaceOf new then { a with active := false } else a

namespace Event

variable {e : Event} {a new : Awardee} {l : List Awardee}

/-- No number is given twice, and a place has one active awardee at most. -/
structure Settled (e : Event) : Prop where
  awardees : (e.awardees.map Awardee.awardeeId).Nodup
  holders : ∀ a ∈ e.awardees, ∀ b ∈ e.awardees, a.active → b.active → a.divId = b.divId →
    a.place = b.place → a = b

/-- A new awardee has come in the place of the active one, and is on record as {lit}`added`. -/
structure Succession (e : Event) (new added : Awardee) (e' : Event) : Prop where
  divisions : e'.divisions = e.divisions
  /-- One record is added, and the others stay, except that the active awardee of the place is
  active no more. -/
  records : e'.awardees = e.awardees.map (·.retiredBy new) ++ [added]
  /-- The new awardee is on record as given, the link apart. -/
  added_eq : added = { new with prevAwardee := added.prevAwardee }
  /-- The new awardee is the active one of the place. -/
  holder : ∀ a ∈ e'.awardees, a.HoldsPlaceOf new ↔ a = added
  /-- The link is to the former awardee of the place, if that one has picked up the award. -/
  link_iff : ∀ id, added.prevAwardee = some id ↔
    ∃ old ∈ e.awardees, old.HoldsPlaceOf new ∧ old.pickedUp = true ∧ old.awardeeId = id

/-! ## Who is ousted -/

/-- Who is in the place of a new awardee is ousted. -/
theorem ousts_iff : ousts new a = true ↔ a.HoldsPlaceOf new := by
  simp [ousts, Awardee.HoldsPlaceOf, and_assoc]

/-- A new awardee leaves the numbers of the others. -/
theorem awardeeId_retiredBy (a new : Awardee) : (a.retiredBy new).awardeeId = a.awardeeId := by
  unfold Awardee.retiredBy
  split <;> rfl

/-- Who is not in the place of a new awardee stays as on record. -/
theorem retiredBy_of_not (h : ¬a.HoldsPlaceOf new) : a.retiredBy new = a := by
  rw [Awardee.retiredBy, if_neg h]

/-- Who is still active when a new awardee has come was not in that place. -/
theorem not_holdsPlaceOf_of_active (h : (a.retiredBy new).active = true) :
    ¬a.HoldsPlaceOf new := by
  intro hholds
  rw [Awardee.retiredBy, if_pos hholds] at h
  exact Bool.false_ne_true h

/-- If one awardee at most is in the place, then nobody else than that one is retired. -/
theorem retire_eq_map (h : l.Pairwise fun a b => a.HoldsPlaceOf new → ¬b.HoldsPlaceOf new) :
    retire new l = l.map (·.retiredBy new) := by
  induction l with
  | nil => rfl
  | cons b l ih =>
      rw [List.pairwise_cons] at h
      rw [List.map_cons, retire]
      by_cases hb : b.HoldsPlaceOf new
      · have hrest : l.map (·.retiredBy new) = l := by
          rw [List.map_congr_left (fun a ha => retiredBy_of_not (h.1 a ha hb)), List.map_id']
        rw [if_pos (ousts_iff.2 hb), hrest, Awardee.retiredBy, if_pos hb]
      · rw [if_neg (fun housts => hb (ousts_iff.1 housts)), ih h.2, retiredBy_of_not hb]

/-- The link with which a new awardee comes on record. -/
def link (e : Event) (new : Awardee) : Option UInt64 :=
  match e.awardees.find? (ousts new) with
  | some old => if old.pickedUp then some old.awardeeId else new.prevAwardee
  | none => new.prevAwardee

namespace Settled

/-- Two awardees on record are not both in one place. -/
theorem pairwise (h : e.Settled) (new : Awardee) :
    e.awardees.Pairwise fun a b => a.HoldsPlaceOf new → ¬b.HoldsPlaceOf new := by
  apply (List.Nodup.of_map _ h.awardees).pairwise_of_forall_ne
  intro a ha b hb hne hholds hholds'
  apply hne
  exact h.holders a ha b hb hholds.1 hholds'.1 (hholds.2.1.trans hholds'.2.1.symm)
    (hholds.2.2.trans hholds'.2.2.symm)

/-- Who is in a place is found by looking for the one who is ousted. -/
theorem find?_ousts_eq_some_iff (h : e.Settled) {old : Awardee} :
    e.awardees.find? (ousts new) = some old ↔ old ∈ e.awardees ∧ old.HoldsPlaceOf new := by
  constructor
  · intro hfind
    exact ⟨List.mem_of_find?_eq_some hfind, ousts_iff.1 (List.find?_some hfind)⟩
  · rintro ⟨hold, hholds⟩
    cases hfind : e.awardees.find? (ousts new) with
    | none => exact absurd (ousts_iff.2 hholds) (List.find?_eq_none.1 hfind old hold)
    | some b =>
        have hb := ousts_iff.1 (List.find?_some hfind)
        rw [h.holders b (List.mem_of_find?_eq_some hfind) old hold hb.1 hholds.1
          (hb.2.1.trans hholds.2.1.symm) (hb.2.2.trans hholds.2.2.symm)]

/-! ## Replacements -/

/-- A replacement retires whoever is in the place and adds the new awardee with a link. -/
theorem replaceAwardee_eq (h : e.Settled) (new : Awardee) :
    e.replaceAwardee new =
      { e with
        awardees := e.awardees.map (·.retiredBy new) ++
          [{ new with prevAwardee := e.link new }] } := by
  unfold replaceAwardee link
  cases e.awardees.find? (ousts new) with
  | none =>
      dsimp only
      rw [retire_eq_map (h.pairwise new)]
  | some old =>
      dsimp only
      split
      · -- Who is ousted does not depend on the link.
        rw [retire_eq_map (h.pairwise _)]
        rfl
      · rw [retire_eq_map (h.pairwise new)]

/-- A new awardee is linked to the one in the place who has picked up the award. -/
theorem link_eq_some_iff (h : e.Settled) (hlink : new.prevAwardee = none) {id : UInt64} :
    e.link new = some id ↔
      ∃ old ∈ e.awardees, old.HoldsPlaceOf new ∧ old.pickedUp = true ∧ old.awardeeId = id := by
  unfold link
  constructor
  · intro hid
    split at hid
    · rename_i old hfind
      obtain ⟨hold, hholds⟩ := h.find?_ousts_eq_some_iff.1 hfind
      split at hid
      · rename_i hpicked
        exact ⟨old, hold, hholds, hpicked, Option.some.inj hid⟩
      · rw [hlink] at hid
        contradiction
    · rw [hlink] at hid
      contradiction
  · rintro ⟨old, hold, hholds, hpicked, rfl⟩
    rw [h.find?_ousts_eq_some_iff.2 ⟨hold, hholds⟩]
    dsimp only
    rw [if_pos hpicked]

/-- Who is active after a replacement is the new awardee, or was active before in another
place. -/
theorem active_cases {added : Awardee} (ha : a ∈ l.map (·.retiredBy new) ++ [added])
    (hactive : a.active = true) : (a ∈ l ∧ ¬a.HoldsPlaceOf new) ∨ a = added := by
  rw [List.mem_append, List.mem_singleton] at ha
  refine ha.imp_left ?_
  intro hmem
  obtain ⟨b, hb, rfl⟩ := List.mem_map.1 hmem
  have hother := not_holdsPlaceOf_of_active hactive
  rw [retiredBy_of_not hother]
  exact ⟨hb, hother⟩

/-- A replacement by an active awardee without a link is a succession. -/
theorem succession (h : e.Settled) (hactive : new.active = true)
    (hlink : new.prevAwardee = none) :
    e.Succession new { new with prevAwardee := e.link new } (e.replaceAwardee new) where
  divisions := by
    rw [h.replaceAwardee_eq]
  records := by
    rw [h.replaceAwardee_eq]
  added_eq := rfl
  holder := by
    intro a ha
    rw [h.replaceAwardee_eq] at ha
    constructor
    · intro hholds
      exact (active_cases ha hholds.1).resolve_left fun hother => hother.2 hholds
    · rintro rfl
      exact ⟨hactive, rfl, rfl⟩
  link_iff := fun _ => h.link_eq_some_iff hlink

/-- A place has one active awardee at most after a replacement. -/
theorem replaceAwardee (h : e.Settled) (hnew : new.awardeeId ∉ e.awardees.map Awardee.awardeeId) :
    (e.replaceAwardee new).Settled where
  awardees := by
    rw [h.replaceAwardee_eq, List.map_append, List.map_map, List.nodup_append]
    have hnumbers : Awardee.awardeeId ∘ (·.retiredBy new) = Awardee.awardeeId := by
      ext a
      rw [Function.comp_apply, awardeeId_retiredBy]
    rw [hnumbers]
    refine ⟨h.awardees, List.nodup_singleton _, ?_⟩
    intro id hid id' hid'
    rw [List.map_singleton, List.mem_singleton] at hid'
    rintro rfl
    exact hnew (hid' ▸ hid)
  holders := by
    intro a ha b hb hactive hactive' hdiv hplace
    rw [h.replaceAwardee_eq] at ha hb
    rcases active_cases ha hactive with ⟨hold, hother⟩ | rfl
    · rcases active_cases hb hactive' with ⟨hold', -⟩ | rfl
      · exact h.holders a hold b hold' hactive hactive' hdiv hplace
      · exact absurd ⟨hactive, hdiv, hplace⟩ hother
    · rcases active_cases hb hactive' with ⟨-, hother⟩ | rfl
      · exact absurd ⟨hactive', hdiv.symm, hplace.symm⟩ hother
      · rfl

/-- A place has one active awardee at most after a request. -/
theorem answer (h : e.Settled) (r : Request) : (e.answer r).1.Settled where
  awardees := by
    rw [answer_awardeeIds]
    exact h.awardees
  holders := by
    intro a ha b hb hactive hactive' hdiv hplace
    obtain ⟨a, hold, rfl⟩ := exists_of_mem_answer h.awardees ha
    obtain ⟨b, hold', rfl⟩ := exists_of_mem_answer h.awardees hb
    rw [amend_active] at hactive hactive'
    rw [amend_divId, amend_divId] at hdiv
    rw [amend_place, amend_place] at hplace
    rw [h.holders a hold b hold' hactive hactive' hdiv hplace]

/-! ## Histories -/

/-- A place has one active awardee at most after a deed. -/
theorem after (h : e.Settled) {x : Deed} (hadmits : e.Admits x) : (e.after x).Settled := by
  cases x with
  | replace new => exact h.replaceAwardee hadmits.1
  | request r => exact h.answer r

/-- A place has one active awardee at most, whoever is replaced and whatever is asked for. -/
theorem history (h : e.Settled) {xs : List Deed} (hadmits : e.AdmitsAll xs) :
    (e.history xs).Settled := by
  induction xs generalizing e with
  | nil => exact h
  | cons x xs ih => exact ih (h.after hadmits.1) hadmits.2

end Settled

/-- What is admitted in a history is admitted in its parts. -/
theorem admitsAll_append (e : Event) (xs ys : List Deed) :
    e.AdmitsAll (xs ++ ys) ↔ e.AdmitsAll xs ∧ (e.history xs).AdmitsAll ys := by
  induction xs generalizing e with
  | nil => simp [AdmitsAll, history]
  | cons x xs ih =>
      rw [List.cons_append, AdmitsAll, AdmitsAll, ih, and_assoc]
      rfl

/-- When active awardees with numbers of their own and without links come in the places of
others, and whatever is asked for in between, a place always has one active awardee at most,
and every replacement is a succession. -/
theorem replacements_succeed (h : e.Settled) {xs : List Deed} (hadmits : e.AdmitsAll xs)
    (hactive : ∀ new, .replace new ∈ xs → new.active = true) :
    (∀ before, before <+: xs → (e.history before).Settled) ∧
      ∀ before new, before ++ [.replace new] <+: xs →
        ∃ added, (e.history before).Succession new added
          (e.history (before ++ [.replace new])) := by
  have hsettled : ∀ before, before <+: xs → (e.history before).Settled := by
    rintro before ⟨rest, rfl⟩
    exact h.history ((admitsAll_append e before rest).1 hadmits).1
  refine ⟨hsettled, ?_⟩
  rintro before new ⟨rest, rfl⟩
  have hmem : Deed.replace new ∈ before ++ [.replace new] ++ rest := by simp
  have hadmitted := ((admitsAll_append e _ rest).1 hadmits).1
  rw [admitsAll_append] at hadmitted
  have hbefore := hsettled before (by simp)
  have hafter : e.history (before ++ [.replace new]) = (e.history before).replaceAwardee new := by
    rw [history, List.foldl_append]
    rfl
  rw [hafter]
  exact ⟨_, hbefore.succession (hactive new hmem) hadmitted.2.1.2⟩

/-- Who comes in the place of the newcomer. -/
def latecomer : Awardee :=
  { awardeeId := 300, divId := 10, place := 1, name := "Cat", bib := "9" }

/-- The award is picked up by the first awardee, and not by the next one. -/
def replacedTwice : List Deed :=
  [.request (.setPickedUp 1 100 false), .replace newcomer,
    .request (.saveNotes 1 200 "away"), .replace latecomer]

/-- Of two awardees who come in one place after another, the first is linked to the one who has
picked up the award, and the second is not linked. -/
theorem replacements_succeed_twice :
    onePlace.Settled ∧ onePlace.AdmitsAll replacedTwice ∧
      (∀ new, .replace new ∈ replacedTwice → new.active = true) ∧
      (onePlace.history replacedTwice).Settled ∧
      (∃ added, (onePlace.history (replacedTwice.take 1)).Succession newcomer added
        (onePlace.history (replacedTwice.take 2)) ∧ added.prevAwardee = some 100) ∧
      ∃ added, (onePlace.history (replacedTwice.take 3)).Succession latecomer added
        (onePlace.history replacedTwice) ∧ added.prevAwardee = none := by
  have hsettled : onePlace.Settled := ⟨by decide, by decide⟩
  have hadmits : onePlace.AdmitsAll replacedTwice :=
    ⟨trivial, ⟨by decide, rfl⟩, trivial, ⟨by decide, rfl⟩, trivial⟩
  have hactive : ∀ new, .replace new ∈ replacedTwice → new.active = true := by
    intro new hnew
    simp only [replacedTwice, List.mem_cons, List.not_mem_nil, Deed.replace.injEq, or_false,
      reduceCtorEq, false_or] at hnew
    rcases hnew with rfl | rfl <;> rfl
  obtain ⟨hkept, hsucceed⟩ := replacements_succeed hsettled hadmits hactive
  refine ⟨hsettled, hadmits, hactive, hkept _ List.prefix_rfl, ?_, ?_⟩
  · obtain ⟨added, hadded⟩ := hsucceed (replacedTwice.take 1) newcomer (by decide)
    refine ⟨added, hadded, ?_⟩
    rw [hadded.link_iff]
    decide
  · obtain ⟨added, hadded⟩ := hsucceed (replacedTwice.take 3) latecomer (by decide)
    refine ⟨added, hadded, ?_⟩
    rw [Option.eq_none_iff_forall_ne_some]
    intro id hid
    obtain ⟨old, hold, hholds, hpicked, -⟩ := (hadded.link_iff id).1 hid
    revert old
    decide

end Event
end Store
end AwardsDesk
