import AwardsDesk.Proofs.Board.Layout
import AwardsDesk.Proofs.Board.Serial

/-!
# Later refreshes

The first refresh lays out the divisions of an event and shows its awards; a later one
shows awards in the cells that are there.  A later refresh empties no cell: a place that
has lost its award goes on showing the last holder.  So later refreshes show what a first
refresh would show exactly if no place has lost its award.

Main definitions:

- Function {lit}`View.refreshes`: refreshes one after another, each with its response.
- Definition {lit}`Body.Refreshed`: a body is a refresh that got a response.

Main results:

- Theorem {lit}`View.cell?_fill`: a cell shows the last award of its key.
- Theorem {lit}`Board.later_refreshes_iff`: when later refreshes of a board show what a
  first one shows.
-/

namespace AwardsDesk

/-- The key of the cell in which an award is shown. -/
def Award.key (a : Award) : CellKey :=
  ⟨a.rsuDivId, a.place⟩

namespace Board

/-- A body is a refresh that got a response. -/
def Body.Refreshed (x : Body) (data : AwardsData) : Prop :=
  ∃ event needDivisions respond, x.action = .refresh ∧
    x.asked = some (.awards event needDivisions, respond) ∧
    respond (.fetchAwards event needDivisions) = .ok data

/-! ## What a cell shows -/

namespace Cell

/-- A cell that has shown awards has only been given holders. -/
theorem emptied_foldl_showing (c : Cell) (awards : List Award) :
    (awards.foldl showing c).emptied = c.emptied := by
  induction awards generalizing c with
  | nil => rfl
  | cons a awards ih => exact ih (c.showing a)

/-- What was shown before does not matter to a cell in which an award is shown. -/
theorem foldl_showing_emptied (c : Cell) {awards : List Award} (h : awards ≠ []) :
    awards.foldl showing c.emptied = awards.foldl showing c := by
  cases awards with
  | nil => exact absurd rfl h
  | cons a awards => rfl

/-- The last of the awards shown in a cell is the one that stays. -/
theorem foldl_showing_of_getLast? (c : Cell) {awards : List Award} {a : Award}
    (h : awards.getLast? = some a) : awards.foldl showing c = c.showing a := by
  rcases List.getLast?_eq_some_iff.1 h with ⟨init, rfl⟩
  rw [List.foldl_append]
  change (init.foldl showing c).emptied.showing a = c.emptied.showing a
  rw [emptied_foldl_showing]

/-- A cell in which awards are shown shows one of them. -/
theorem foldl_showing_cases (c : Cell) (awards : List Award) :
    awards = [] ∨ ∃ a ∈ awards, awards.foldl showing c = c.showing a := by
  rcases List.eq_nil_or_concat awards with rfl | ⟨init, a, rfl⟩
  · exact Or.inl rfl
  · exact Or.inr ⟨a, by simp, c.foldl_showing_of_getLast? (by simp)⟩

/-- A cell is empty after awards were shown in it only if there were none, and it was empty
before. -/
theorem foldl_showing_eq_emptied_iff (c : Cell) (awards : List Award) :
    awards.foldl showing c = c.emptied ↔ c.emptied = c ∧ awards = [] := by
  constructor
  · intro h
    rcases foldl_showing_cases c awards with rfl | ⟨a, -, heq⟩
    · exact ⟨h.symm, rfl⟩
    · exact absurd (heq.symm.trans h) (showing_ne_emptied _ _ a)
  · rintro ⟨h, rfl⟩
    exact h.symm

end Cell

namespace View

variable {v : View} {event : UInt64} {divisions : List (List (Option Division))}

/-- Awards are shown one list after the other. -/
theorem fill_append (v : View) (awards more : List Award) :
    v.fill (awards ++ more) = (v.fill awards).fill more :=
  List.foldl_append

/-- A cell shows the awards of its key, one in place of the other. -/
theorem cell?_fill (v : View) (awards : List Award) (key : CellKey) :
    (v.fill awards).cell? key =
      (v.cell? key).map fun c => (awards.filter (·.key = key)).foldl Cell.showing c := by
  unfold fill
  induction awards generalizing v with
  | nil => simp
  | cons a awards ih =>
      have hshow : (v.showAward a).cell? key =
          if key = a.key then (v.cell? key).map (·.showing a) else v.cell? key :=
        Cells.find?_modify v.cells a.key key (·.showing a)
      rw [List.foldl_cons, ih, hshow]
      by_cases h : a.key = key
      · rw [if_pos h.symm, List.filter_cons_of_pos (by simpa using h), Option.map_map]
        rfl
      · rw [if_neg (Ne.symm h), List.filter_cons_of_neg (by simpa using h)]

/-- Awards are shown in the cells that are there. -/
theorem map_fst_fill (v : View) (awards : List Award) :
    (v.fill awards).cells.map Prod.fst = v.cells.map Prod.fst := by
  unfold fill
  induction awards generalizing v with
  | nil => rfl
  | cons a awards ih => exact (ih _).trans (Cells.map_fst_modify v.cells _ _)

/-! ## Refreshes -/

/-- A backend that has awards to give and nothing else. -/
def answering (data : AwardsData) : Responder
  | .fetchAwards .. => .ok data
  | .setPickedUp .. => .error (.backend "awards only")
  | .fetchNotes .. => .error (.backend "awards only")
  | .saveNotes .. => .error (.backend "awards only")

/-- Refreshes one after another, each with its response. -/
def refreshes (v : View) (responses : List AwardsData) : View :=
  responses.foldl (fun v data => (Action.refresh.perform (answering data) v).1) v

/-- The first refresh of an event succeeds, and lays out the divisions. -/
theorem perform_first (event : UInt64) (data : AwardsData) :
    Action.refresh.perform (answering data) { eventId := some event } =
      ((layOut { eventId := some event } (data.divisions.getD [])).fill data.awards,
        .ok .done) :=
  rfl

/-- The view in which a refresh shows its awards: the divisions are laid out if they were not
so before. -/
def readied (v : View) (data : AwardsData) : View :=
  if v.divisionsRendered then v else v.layOut (data.divisions.getD [])

/-- A view that is laid out is ready as it is. -/
theorem readied_of_rendered (h : v.divisionsRendered = true) (data : AwardsData) :
    v.readied data = v :=
  if_pos h

/-- A view that is ready is laid out. -/
theorem divisionsRendered_readied (v : View) (data : AwardsData) :
    (v.readied data).divisionsRendered = true := by
  unfold readied
  split
  · assumption
  · rfl

/-- A view that is ready has the event that it had before. -/
theorem eventId_readied (v : View) (data : AwardsData) :
    (v.readied data).eventId = v.eventId := by
  unfold readied
  split
  · rfl
  · rfl

/-- A refresh that gets a response shows its awards. -/
theorem perform_refresh_eq {respond : Responder} {data : AwardsData}
    (hevent : v.eventId = some event)
    (hgot : respond (.fetchAwards event !v.divisionsRendered) = .ok data) :
    Action.refresh.perform respond v = ((v.readied data).fill data.awards, .ok .done) := by
  have hbegin : Action.refresh.begin v = .asking (.awards event !v.divisionsRendered) := by
    simp [Action.begin, hevent]
  rw [Action.perform, hbegin]
  dsimp only [Await.request]
  rw [hgot]
  cases hrendered : v.divisionsRendered <;> simp [Await.finish, readied, hrendered]

/-- A refresh of a laid out view shows the awards that it gets in the cells that are there. -/
theorem perform_refresh {respond : Responder} {data : AwardsData} (hevent : v.eventId = some event)
    (hrendered : v.divisionsRendered = true)
    (hgot : respond (.fetchAwards event false) = .ok data) :
    Action.refresh.perform respond v = (v.fill data.awards, .ok .done) := by
  rw [perform_refresh_eq hevent (by rwa [hrendered]), readied_of_rendered hrendered]

namespace LaidOut

/-- A later refresh succeeds, and shows the awards in the cells that are there. -/
theorem perform (h : LaidOut event divisions v) (data : AwardsData) :
    Action.refresh.perform (answering data) v = (v.fill data.awards, .ok .done) :=
  perform_refresh h.event h.rendered rfl

/-- Later refreshes show all awards one after another. -/
theorem refreshes_eq (h : LaidOut event divisions v) (responses : List AwardsData) :
    v.refreshes responses = v.fill (responses.flatMap AwardsData.awards) := by
  unfold refreshes
  induction responses generalizing v with
  | nil => rfl
  | cons data responses ih =>
      rw [List.foldl_cons, h.perform data, ih (h.fill data.awards), List.flatMap_cons, fill_append]

/-- A cell is found where it was laid out. -/
theorem cell?_layOut (h : LaidOut event divisions v) (key : CellKey) :
    (layOut { eventId := some event } divisions).cell? key = (v.cell? key).map Cell.emptied := by
  have hcells : (layOut { eventId := some event } divisions).cells = v.cells.emptied :=
    h.cells.symm
  rw [cell?, hcells]
  exact Cells.find?_map v.cells Cell.emptied key

/-- The layout has the keys that the view shows. -/
theorem map_fst_layOut (h : LaidOut event divisions v) :
    (layOut { eventId := some event } divisions).cells.map Prod.fst = v.cells.map Prod.fst := by
  have hcells : (layOut { eventId := some event } divisions).cells = v.cells.emptied :=
    h.cells.symm
  rw [hcells, Cells.emptied, List.map_map]
  rfl

/-- Cells in which awards were shown are told from those of the layout key by key. -/
theorem cells_fill_eq_iff (h : LaidOut event divisions v) (all last : List Award) :
    (v.fill all).cells = ((layOut { eventId := some event } divisions).fill last).cells ↔
      ∀ key c, v.cell? key = some c →
        (all.filter (·.key = key)).foldl Cell.showing c =
          (last.filter (·.key = key)).foldl Cell.showing c.emptied := by
  constructor
  · intro heq key c hc
    have hfind : (v.fill all).cell? key =
        ((layOut { eventId := some event } divisions).fill last).cell? key :=
      congrArg (Cells.find? · key) heq
    rw [cell?_fill, cell?_fill, h.cell?_layOut, hc] at hfind
    simpa using hfind
  · intro hall
    have hnodup : ((v.fill all).cells.map Prod.fst).Nodup := by
      rw [map_fst_fill, ← h.map_fst_layOut]
      exact (sorted_layOut _ divisions).nodup
    refine Cells.ext_find? ?_ hnodup fun key => ?_
    · rw [map_fst_fill, map_fst_fill, h.map_fst_layOut]
    · change (v.fill all).cell? key =
        ((layOut { eventId := some event } divisions).fill last).cell? key
      rw [cell?_fill, cell?_fill, h.cell?_layOut]
      cases hc : v.cell? key with
      | none => rfl
      | some c => simpa using hall key c hc

end LaidOut

/-! ## Later refreshes and first ones -/

/-- A cell shows the last of its awards, unless there is none: then it shows an earlier one,
or what it showed before. -/
theorem foldl_showing_append_eq_iff (c : Cell) (earlier last : List Award) :
    (earlier ++ last).foldl Cell.showing c = last.foldl Cell.showing c.emptied ↔
      (last = [] → c.emptied = c ∧ earlier = []) := by
  rw [List.foldl_append]
  by_cases hlast : last = []
  · rw [hlast, List.foldl_nil, List.foldl_nil, Cell.foldl_showing_eq_emptied_iff]
    simp
  · have hemptied := Cell.foldl_showing_emptied (earlier.foldl Cell.showing c) hlast
    rw [Cell.emptied_foldl_showing] at hemptied
    simp [hlast, hemptied]

/-- Whatever responses later refreshes have, the rows they show are those of a first
refresh with the last response; and the cells they show are those of a first refresh
exactly if every place that has no award in the last response had none in the responses
before, and was empty before. -/
theorem LaidOut.refreshes_eq_first_iff (h : LaidOut event divisions v) (earlier : List AwardsData)
    (last : AwardsData) :
    let later := v.refreshes (earlier ++ [last])
    let first := refreshes { eventId := some event }
      [{ divisions := some divisions, awards := last.awards }]
    later.rows = first.rows ∧
      (later.cells = first.cells ↔
        ∀ key c, v.cell? key = some c → (∀ a ∈ last.awards, a.key ≠ key) →
          c.emptied = c ∧ ∀ data ∈ earlier, ∀ a ∈ data.awards, a.key ≠ key) := by
  intro later first
  have hlater : later = v.fill (earlier.flatMap AwardsData.awards ++ last.awards) := by
    simp only [later, h.refreshes_eq, List.flatMap_append, List.flatMap_singleton]
  have hfirst : first = (layOut { eventId := some event } divisions).fill last.awards :=
    congrArg Prod.fst (perform_first event { divisions := some divisions, awards := last.awards })
  have hnew : LaidOut event divisions (layOut { eventId := some event } divisions) :=
    laidOut_layOut rfl divisions
  constructor
  · rw [hlater, hfirst, (h.fill _).rows, (hnew.fill _).rows]
  · rw [hlater, hfirst, h.cells_fill_eq_iff]
    refine forall_congr' fun key => forall_congr' fun c => imp_congr_right fun _ => ?_
    rw [List.filter_append, foldl_showing_append_eq_iff, List.filter_eq_nil_iff,
      List.filter_eq_nil_iff, List.forall_mem_flatMap]
    simp only [decide_eq_true_eq]

/-! ## Refreshes of a board -/

/-- A refresh on a board that got a response does what it does on the view alone. -/
theorem show_refreshed_eq {x : Body} {data : AwardsData} (hx : x.Refreshed data)
    (hagrees : x.Agrees v ∨ x.FindsNoNote) : x.show v = (v.readied data).fill data.awards := by
  rcases hx with ⟨e, needDivisions, respond, haction, hasked, hrespond⟩
  rcases hagrees with hagrees | ⟨hnone, -⟩
  · simp only [Body.Agrees, hasked] at hagrees
    rcases hagrees with ⟨hbegin, -⟩
    have hperform : x.show v = (Action.refresh.perform respond v).1 := by
      simp only [Body.show, hbegin, hasked]
      rw [Action.perform, ← haction, hbegin]
    have hasks := Action.asks_of_begin hbegin
    rw [haction] at hasks
    cases hasks with
    | refresh _ shown => rw [hperform, perform_refresh_eq shown hrespond]
  · simp [hasked] at hnone

namespace LaidOut

/-- Views that show the same have the same layout. -/
theorem of_alike (h : LaidOut event divisions v) {w : View} (halike : w.Alike v) :
    LaidOut event divisions w where
  event := halike.eventId.trans h.event
  rendered := halike.divisionsRendered.trans h.rendered
  rows := halike.rows.trans h.rows
  cells := halike.cells ▸ h.cells

/-- A refresh that got a response shows its awards in the cells that are there. -/
theorem show_refreshed (h : LaidOut event divisions v) {x : Body} {data : AwardsData}
    (hx : x.Refreshed data) (hagrees : x.Agrees v ∨ x.FindsNoNote) :
    x.show v = v.fill data.awards := by
  rw [show_refreshed_eq hx hagrees, readied_of_rendered h.rendered]

/-- Refreshes that got responses do what refreshes do. -/
theorem serial_refreshed (h : LaidOut event divisions v) {xs : List Body}
    {responses : List AwardsData} (hxs : List.Forall₂ Body.Refreshed xs responses)
    (hagrees : ∀ before x after, xs = before ++ x :: after →
      x.Agrees (Board.serial v before) ∨ x.FindsNoNote) :
    Board.serial v xs = v.refreshes responses := by
  induction hxs generalizing v with
  | nil => rfl
  | @cons x data xs responses hx hxs ih =>
      have hshow := h.show_refreshed hx (hagrees [] x xs rfl)
      have hrest : Board.serial (v.fill data.awards) xs =
          (v.fill data.awards).refreshes responses := by
        refine ih (h.fill data.awards) fun before y after hsplit => ?_
        have hy := hagrees (x :: before) y after (by rw [hsplit]; rfl)
        rwa [Board.serial, List.foldl_cons, hshow] at hy
      rw [Board.serial, List.foldl_cons, hshow, refreshes, List.foldl_cons, h.perform data]
      exact hrest

end LaidOut

/-- Views that show the same show the same awards. -/
theorem Alike.fill {v w : View} (h : v.Alike w) (awards : List Award) :
    (v.fill awards).Alike (w.fill awards) := by
  unfold View.fill
  induction awards generalizing v w with
  | nil => exact h
  | cons a awards ih =>
      refine ih ⟨h.eventId, h.divisionsRendered, h.rows, ?_⟩
      simp only [showAward, h.cells]

end View

/-- A board with a layout shows after refreshes what they would show without a gate. -/
theorem InStep.alike_refreshes {b : Board} {s : View} (h : b.InStep s) {event : UInt64}
    {divisions : List (List (Option Division))} (hlaid : View.LaidOut event divisions b.view)
    {es : List Event} {responses : List AwardsData}
    (hbodies : List.Forall₂ Body.Refreshed (b.bodies es) responses) :
    (b.run es).view.Alike (b.view.refreshes responses) := by
  have halike := h.follows.alike
  have hs := hlaid.of_alike halike.symm
  have hserial := hs.serial_refreshed hbodies fun _ _ _ hsplit => h.agrees_run hsplit
  have hend := (h.run es).follows.alike
  rw [hserial, hs.refreshes_eq] at hend
  rw [hlaid.refreshes_eq]
  exact hend.trans (halike.symm.fill _)

/-- A board whose divisions are laid out refreshes again and again.  Then it shows the rows
of a new board that lays out the divisions and gets the last response; and it shows the
cells of that board exactly if every place that has no award in the last response had none
in the responses before, and was empty before. -/
theorem later_refreshes_iff (name : String) (options : Gate.Options) (v : View)
    (es more : List Event) {event : UInt64} {divisions : List (List (Option Division))}
    {earlier : List AwardsData} {last : AwardsData} :
    let b := Board.run { gate := { name, options }, view := v } es
    View.LaidOut event divisions b.view →
    List.Forall₂ Body.Refreshed (b.bodies more) (earlier ++ [last]) →
    let later := (b.run more).view
    let first := View.refreshes { eventId := some event }
      [{ divisions := some divisions, awards := last.awards }]
    later.rows = first.rows ∧
      (later.cells = first.cells ↔
        ∀ key c, b.view.cell? key = some c → (∀ a ∈ last.awards, a.key ≠ key) →
          c.emptied = c ∧ ∀ data ∈ earlier, ∀ a ∈ data.awards, a.key ≠ key) := by
  intro b hlaid hbodies later first
  have h : b.InStep _ := (inStep_initial name options v).run es
  have halike := h.alike_refreshes hlaid hbodies
  rcases hlaid.refreshes_eq_first_iff earlier last with ⟨hrows, hcells⟩
  exact ⟨halike.rows.trans hrows, halike.cells ▸ hcells⟩

/-- A division with one place. -/
def openDivision : Division where
  divId := 1
  rsuDivId := 101
  name := "Open"
  numAwards := 1

/-- An award at the place of {lit}`openDivision`. -/
def openAward : Award where
  awardeeId := 7
  divId := 1
  rsuDivId := 101
  place := 1
  name := "Ada"
  bib := "12"
  pickedUp := false
  prevPickedUp := false

/-- The place of {lit}`openDivision` is laid out, and its award is shown. -/
def layingOut : List Event :=
  [.start 0 (.selectEvent 1), .start 0 .refresh,
    .answer 1 (View.answering { divisions := some [[some openDivision]], awards := [openAward] })]

/-- A refresh gets no awards any more. -/
def losingAwards : List Event :=
  [.start 0 .refresh, .answer 2 (View.answering {})]

/-- A place that has lost its award goes on showing it after a later refresh. -/
theorem lost_award_shown :
    let b := Board.run { gate := { name := "awards", options := {} } } layingOut
    let first := View.refreshes { eventId := some 1 } [{ divisions := some [[some openDivision]] }]
    View.LaidOut 1 [[some openDivision]] b.view ∧
      List.Forall₂ Body.Refreshed (b.bodies losingAwards) [{}] ∧
      (b.run losingAwards).view.rows = first.rows ∧
      (b.run losingAwards).view.cells ≠ first.cells := by
  intro b first
  have hlaid : View.LaidOut 1 [[some openDivision]] b.view :=
    (View.laidOut_layOut rfl [[some openDivision]]).fill [openAward]
  have hbodies : List.Forall₂ Body.Refreshed (b.bodies losingAwards) [{}] :=
    .cons ⟨1, false, View.answering {}, rfl, rfl, rfl⟩ .nil
  have hlast : List.Forall₂ Body.Refreshed (b.bodies losingAwards)
      ([] ++ [({} : AwardsData)]) := hbodies
  obtain ⟨hrows, hcells⟩ :=
    later_refreshes_iff "awards" {} {} layingOut losingAwards hlaid hlast
  refine ⟨hlaid, hbodies, hrows, fun heq => ?_⟩
  have hcell : b.view.cell? openAward.key =
      some ((openDivision.emptyCell 1).showing openAward) := rfl
  have hempty := (hcells.1 heq _ _ hcell (by simp)).1
  exact Cell.showing_ne_emptied _ _ _ hempty.symm

end Board
end AwardsDesk
