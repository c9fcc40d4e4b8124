import AwardsDesk.Proofs.Store.Records
import Mathlib.Data.List.Forall2
import Mathlib.Data.List.Sigma

/-!
# The listing of awards

The awards of an event are listed division by division and place by place.  Divisions and
awardees may be on record in any order and more than once, and their priorities and places may
be equal; then they are listed in the order in which they came on record.  So a listing is a
list of positions, sorted without any ties.

Main definitions:

- Structure {lit}`Store.Holding`: a division and an awardee with their positions on record.
- Inductive type {lit}`Store.Holding.Before`: the order in which awards are listed.
- Structure {lit}`Store.Event.Listing`: the awards of an event, complete and in order.

Main results:

- Theorem {lit}`pairwise_mergeSort_key`: sorting by a key keeps the order of what has equal keys.
- Theorem {lit}`Store.Event.listing`: the awards of an event are a listing.
- Theorem {lit}`Store.fetchAwards_lists`: a request for the awards brings the listing.
-/

namespace AwardsDesk

/-! ## Sorting by a key -/

/-- The positions in a list increase along the list. -/
theorem pairwise_zipIdx {α : Type} (l : List α) : l.zipIdx.Pairwise fun x y => x.2 < y.2 := by
  have hpositions := List.pairwise_lt_range' (s := 0) (n := l.length) 1
  rwa [← List.zipIdx_map_snd, List.pairwise_map] at hpositions

/-- When a list is sorted by a key, things with the same key stay in their order. -/
theorem pairwise_mergeSort_key {α : Type} (key : α → Nat) {R : α → α → Prop} {l : List α}
    (h : l.Pairwise R) :
    (l.mergeSort fun a b => decide (key a ≤ key b)).Pairwise fun a b =>
      key a < key b ∨ key a = key b ∧ R a b := by
  rw [← List.mergeSort_zipIdx, List.pairwise_map]
  have htrans : ∀ a b c : α, decide (key a ≤ key b) = true → decide (key b ≤ key c) = true →
      decide (key a ≤ key c) = true := by
    intro a b c hab hbc
    simp only [decide_eq_true_eq] at *
    omega
  have htotal : ∀ a b : α, (decide (key a ≤ key b) || decide (key b ≤ key a)) = true := by
    intro a b
    simp only [Bool.or_eq_true, decide_eq_true_eq]
    omega
  have hsorted := List.pairwise_mergeSort (List.zipIdxLE_trans htrans)
    (List.zipIdxLE_total htotal) l.zipIdx
  have hdistinct : (l.zipIdx.mergeSort (List.zipIdxLE fun a b => decide (key a ≤ key b))).Pairwise
      fun x y => x.2 ≠ y.2 := by
    apply List.pairwise_map.1
    exact ((List.mergeSort_perm _ _).map Prod.snd).nodup_iff.2 (List.nodup_zipIdx_map_snd l)
  refine (hsorted.and hdistinct).imp_of_mem ?_
  rintro ⟨a, i⟩ ⟨b, j⟩ ha hb ⟨hle, hne⟩
  rw [List.mem_mergeSort, List.mk_mem_zipIdx_iff_getElem?] at ha hb
  dsimp only [List.zipIdxLE] at ha hb hle hne ⊢
  split at hle
  · rename_i hab
    split at hle
    · rename_i hba
      right
      obtain ⟨hi, rfl⟩ := List.getElem?_eq_some_iff.1 ha
      obtain ⟨hj, rfl⟩ := List.getElem?_eq_some_iff.1 hb
      simp only [decide_eq_true_eq] at hab hba hle
      exact ⟨by omega, List.pairwise_iff_getElem.1 h i j hi hj (by omega)⟩
    · rename_i hba
      left
      simpa using hba
  · simp at hle

namespace Store

/-! ## Holdings -/

/-- The priority of a division; one without has the last of all. -/
def priority (d : Division) : Nat :=
  match d.prio with
  | some p => p.toNat
  | none => 0xFFFFFFFF

/-- Priorities are compared as numbers. -/
theorem priority_le_iff (d d' : Division) :
    priority d ≤ priority d' ↔ d.prio.getD 0xFFFFFFFF ≤ d'.prio.getD 0xFFFFFFFF := by
  have hnumber : ∀ d : Division, priority d = (d.prio.getD 0xFFFFFFFF).toNat := by
    intro d
    unfold priority
    cases d.prio <;> rfl
  rw [hnumber, hnumber, UInt32.le_iff_toNat_le]

/-- An awardee who holds an award in a division, with the positions of both on record. -/
structure Holding where
  division : Division
  divisionAt : Nat
  awardee : Awardee
  awardeeAt : Nat

namespace Holding

/-- The division and the awardee are on record, the awardee is active and belongs to the
division. -/
structure OnRecord (e : Event) (x : Holding) : Prop where
  division : e.divisions[x.divisionAt]? = some x.division
  awardee : e.awardees[x.awardeeAt]? = some x.awardee
  active : x.awardee.active = true
  belongs : x.awardee.divId = x.division.divId

/-- An award is listed before another one by the priority of its division, by its place in the
division, and when these are equal by what came on record first. -/
inductive Before (x y : Holding) : Prop where
  | priority (lower : priority x.division < priority y.division)
  | division (tied : Store.priority x.division = Store.priority y.division)
      (earlier : x.divisionAt < y.divisionAt)
  | place (same : x.divisionAt = y.divisionAt) (lower : x.awardee.place < y.awardee.place)
  | awardee (same : x.divisionAt = y.divisionAt) (tied : x.awardee.place = y.awardee.place)
      (earlier : x.awardeeAt < y.awardeeAt)

/-- An award tells what is on record about its holder.  The former awardee has picked it up if
the holder has not, is linked to an awardee, and the first one of that number has. -/
structure Told (e : Event) (x : Holding) (award : Award) : Prop where
  awardeeId : award.awardeeId = x.awardee.awardeeId
  divId : award.divId = x.division.divId
  rsuDivId : award.rsuDivId = x.division.rsuDivId
  place : award.place = x.awardee.place
  name : award.name = x.awardee.name
  bib : award.bib = x.awardee.bib
  pickedUp : award.pickedUp = x.awardee.pickedUp
  notes : award.notes = x.awardee.notes
  prevPickedUp : award.prevPickedUp = true ↔ x.awardee.pickedUp = false ∧
    ∃ prev former, x.awardee.prevAwardee = some prev ∧
      e.awardees.find? (·.awardeeId == prev) = some former ∧ former.pickedUp = true

/-- No award is listed before itself. -/
theorem Before.irrefl (x : Holding) : ¬x.Before x := by
  rintro (h | ⟨-, h⟩ | ⟨-, h⟩ | ⟨-, -, h⟩)
  · omega
  · omega
  · exact UInt32.lt_irrefl _ h
  · omega

end Holding

namespace Event

variable {e : Event}

/-- The awards of an event: one for every active awardee of every division, each once and in
order, and none else. -/
structure Listing (e : Event) (holdings : List Holding) (awards : List Award) : Prop where
  complete : ∀ x, x ∈ holdings ↔ x.OnRecord e
  once : holdings.Nodup
  ordered : holdings.Pairwise Holding.Before
  told : List.Forall₂ (Holding.Told e) holdings awards

/-! ## The divisions and the holders of their awards -/

/-- The divisions by priority, each with its position on record. -/
def divisionsAt (e : Event) : List (Division × Nat) :=
  e.divisions.zipIdx.mergeSort fun x y => decide (priority x.1 ≤ priority y.1)

/-- The active awardees of a division by place, each with the position on record. -/
def holdersAt (e : Event) (d : Division) : List (Awardee × Nat) :=
  (e.awardees.zipIdx.filter fun x => x.1.active && x.1.divId == d.divId).mergeSort fun x y =>
    decide (x.1.place.toNat ≤ y.1.place.toNat)

/-- What is on record about the awards of an event, in the order in which it is listed. -/
def holdings (e : Event) : List Holding :=
  e.divisionsAt.flatMap fun d => (e.holdersAt d.1).map fun a => ⟨d.1, d.2, a.1, a.2⟩

/-- The divisions by priority are those whose positions are sorted. -/
theorem map_divisionsAt (e : Event) : e.divisionsAt.map Prod.fst = e.byPriority := by
  rw [divisionsAt, byPriority]
  conv_rhs => rw [← List.zipIdx_map_fst 0 e.divisions]
  apply List.map_mergeSort
  intro x _ y _
  exact decide_eq_decide.2 (priority_le_iff x.1 y.1)

/-- The holders of awards by place are those whose positions are sorted. -/
theorem map_holdersAt (e : Event) (d : Division) :
    (e.holdersAt d).map Prod.fst = e.holders d := by
  have hfilter : (e.awardees.zipIdx.filter fun x => x.1.active && x.1.divId == d.divId).map
      Prod.fst = e.awardees.filter fun a => a.active && a.divId == d.divId := by
    conv_rhs => rw [← List.zipIdx_map_fst 0 e.awardees, List.filter_map]
    rfl
  rw [holdersAt, holders, ← hfilter]
  apply List.map_mergeSort
  intro x _ y _
  exact decide_eq_decide.2 UInt32.le_iff_toNat_le.symm

/-- The awards that are listed are those of the holdings. -/
theorem map_holdings (e : Event) :
    e.holdings.map (fun x => e.award x.division x.awardee) = e.awards := by
  rw [awards, ← map_divisionsAt, holdings, List.map_flatMap, List.flatMap_map]
  apply List.flatMap_congr
  intro d _
  rw [← map_holdersAt, List.map_map, List.map_map]
  rfl

/-- A holding is listed when it is on record, and only then. -/
theorem mem_holdings_iff {x : Holding} : x ∈ e.holdings ↔ x.OnRecord e := by
  obtain ⟨d, i, a, j⟩ := x
  simp only [holdings, divisionsAt, holdersAt, List.mem_flatMap, List.mem_map,
    List.mem_mergeSort, List.mem_filter, Prod.exists, List.mk_mem_zipIdx_iff_getElem?,
    Bool.and_eq_true, beq_iff_eq]
  constructor
  · rintro ⟨d', i', hd, a', j', ⟨ha, hactive, hdiv⟩, heq⟩
    obtain ⟨rfl, rfl, rfl, rfl⟩ := Holding.mk.inj heq
    exact ⟨hd, ha, hactive, hdiv⟩
  · intro h
    exact ⟨d, i, h.division, a, j, ⟨h.awardee, h.active, h.belongs⟩, rfl⟩

/-- The holders of awards in a division are listed by place, equal places by position. -/
theorem pairwise_holdersAt (e : Event) (d : Division) (i : Nat) :
    ((e.holdersAt d).map fun a => Holding.mk d i a.1 a.2).Pairwise Holding.Before := by
  rw [List.pairwise_map]
  have hpositions := (pairwise_zipIdx e.awardees).filter fun x => x.1.active && x.1.divId == d.divId
  refine (pairwise_mergeSort_key (fun x : Awardee × Nat => x.1.place.toNat) hpositions).imp ?_
  rintro ⟨a, j⟩ ⟨b, k⟩ (hlower | ⟨htied, hearlier⟩)
  · exact .place rfl (UInt32.lt_iff_toNat_lt.2 hlower)
  · exact .awardee rfl (UInt32.toNat_inj.1 htied) hearlier

/-- Holdings are listed by priority and place, ties by position. -/
theorem pairwise_holdings (e : Event) : e.holdings.Pairwise Holding.Before := by
  rw [holdings, List.pairwise_flatMap]
  constructor
  · rintro ⟨d, i⟩ -
    exact pairwise_holdersAt e d i
  · have hdivisions := pairwise_mergeSort_key (fun x : Division × Nat => priority x.1)
      (pairwise_zipIdx e.divisions)
    refine hdivisions.imp ?_
    rintro ⟨d, i⟩ ⟨d', i'⟩ hbefore x hx y hy
    obtain ⟨a, -, rfl⟩ := List.mem_map.1 hx
    obtain ⟨b, -, rfl⟩ := List.mem_map.1 hy
    rcases hbefore with hlower | ⟨htied, hearlier⟩
    · exact .priority hlower
    · exact .division htied hearlier

/-- When it is listed that a former awardee has the award. -/
theorem prevPickedUp_iff (e : Event) (a : Awardee) :
    e.prevPickedUp a = true ↔ a.pickedUp = false ∧
      ∃ prev former, a.prevAwardee = some prev ∧
        e.awardees.find? (·.awardeeId == prev) = some former ∧ former.pickedUp = true := by
  unfold prevPickedUp awardee?
  cases hlink : a.prevAwardee with
  | none => simp
  | some prev =>
      cases hformer : e.awardees.find? (·.awardeeId == prev) with
      | none => simp [hformer]
      | some former => simp [hformer]

/-- The awards of an event are a listing. -/
theorem listing (e : Event) : e.Listing e.holdings e.awards where
  complete := fun _ => mem_holdings_iff
  once := by
    refine (pairwise_holdings e).imp ?_
    rintro x y hbefore rfl
    exact Holding.Before.irrefl x hbefore
  ordered := pairwise_holdings e
  told := by
    rw [← map_holdings, List.forall₂_map_right_iff, List.forall₂_same]
    intro x _
    exact ⟨rfl, rfl, rfl, rfl, rfl, rfl, rfl, rfl, prevPickedUp_iff e x.awardee⟩

end Event

/-! ## Requests for the awards -/

/-- An event that is put in its own place changes nothing. -/
theorem updateEvent_self {events : List (UInt64 × Event)} {id : UInt64} {e : Event}
    (h : events.lookup id = some e) : updateEvent id (fun _ => e) events = events := by
  induction events with
  | nil => rfl
  | cons p rest ih =>
      obtain ⟨k, e'⟩ := p
      rw [List.lookup_cons] at h
      rw [updateEvent]
      by_cases hk : k = id
      · subst hk
        obtain rfl : e' = e := by simpa using h
        rw [if_pos rfl]
      · have hne : (id == k) = false := by simpa using Ne.symm hk
        rw [hne] at h
        rw [if_neg hk, ih h]

/-- A request for the awards of an event that does not fail brings their listing, whether or
not the divisions are wanted too, and leaves the store as it was. -/
theorem fetchAwards_lists {s : Store} {id : UInt64} {e : Event} (hevent : s.event? id = some e)
    (hready : s.failNext = none) :
    ∃ holdings awards, e.Listing holdings awards ∧ ∀ needDivisions,
      s.finish (.fetchAwards id needDivisions) =
        ({ s with inFlight := s.inFlight - 1 },
          .ok
            { divisions := if needDivisions then some (divisionRows e.byPriority) else none
              awards := awards }) := by
  refine ⟨e.holdings, e.awards, e.listing, ?_⟩
  intro needDivisions
  have hsame : updateEvent id (fun _ => e) s.events = s.events := updateEvent_self hevent
  rw [event?] at hevent
  simp only [finish, hready, event?, requestEvent, hevent, Event.answer, Event.snapshot, hsame]

/-- An event in which everything ties: two divisions have the same number and two the same
priority, two awardees have the same place, and one is linked to nobody on record. -/
def crowded : Event where
  divisions :=
    [{ divId := 1, rsuDivId := 101, name := "Open", numAwards := 2 },
      { divId := 2, rsuDivId := 102, name := "Women", numAwards := 1, prio := some 5 },
      { divId := 1, rsuDivId := 103, name := "Overall", numAwards := 2, prio := some 5 }]
  awardees :=
    [{ awardeeId := 10, divId := 1, place := 2, name := "Ada", bib := "1",
       prevAwardee := some 99 },
      { awardeeId := 11, divId := 2, place := 1, name := "Bea", bib := "2", pickedUp := true,
        active := false },
      { awardeeId := 12, divId := 2, place := 1, name := "Cat", bib := "3",
        prevAwardee := some 11 },
      { awardeeId := 13, divId := 1, place := 2, name := "Dot", bib := "4" },
      { awardeeId := 14, divId := 1, place := 1, name := "Eve", bib := "5" }]

/-- The crowded event is listed without its divisions as it is with them. -/
theorem fetchAwards_lists_crowded :
    ∃ holdings awards, crowded.Listing holdings awards ∧
      awards.map (fun x => (x.rsuDivId, x.awardeeId, x.prevPickedUp)) =
        [(102, 12, true), (103, 14, false), (103, 10, false), (103, 13, false),
          (101, 14, false), (101, 10, false), (101, 13, false)] ∧
      ∀ needDivisions, ∃ data,
        (finish { events := [(7, {}), (1, crowded)] } (.fetchAwards 1 needDivisions)).2 =
          .ok data ∧ data.awards = awards := by
  have hevent : event? { events := [(7, {}), (1, crowded)] } 1 = some crowded := by decide
  obtain ⟨holdings, awards, hlisting, hfinish⟩ := fetchAwards_lists hevent rfl
  have hawards : crowded.awards = awards := by
    have hanswer := congrArg Prod.snd (hfinish false)
    exact congrArg AwardsData.awards (Except.ok.inj hanswer)
  refine ⟨holdings, awards, hlisting, ?_, ?_⟩
  · rw [← hawards]
    simp [crowded, Event.awards, Event.byPriority, Event.holders, Event.award, Event.prevPickedUp,
      Event.awardee?, List.mergeSort, List.MergeSort.Internal.splitInTwo]
  · intro needDivisions
    exact ⟨_, congrArg Prod.snd (hfinish needDivisions), rfl⟩

end Store
end AwardsDesk
