import AwardsDesk.Proofs.Board.Refresh
import AwardsDesk.Proofs.Board.Shown

/-!
# Awards in another order, and awards once more

A refresh shows the awards of a response one after another, each in its cell.  Awards of
different cells do not touch each other, and of the awards of one cell the last one stays.  So
a board shows the same whatever the order of its awards, as long as those of one cell keep
their turns, and the same awards once more change nothing.

Main definitions:

- Structure {lit}`Award.Reordered`: awards in another order, those of one cell in the same.
- Structure {lit}`View.ShowsAwards`: what a list of awards makes of a view.
- Inductive type {lit}`Event.Reordered`: events that are alike but for the order of awards.

Main results:

- Theorem {lit}`View.fill_of_reordered`: the order of awards of different cells is not seen.
- Theorem {lit}`View.fill_append_of_covered`: awards are not seen behind later ones.
- Theorem {lit}`Board.run_of_reordered`: boards do not see it in a whole run.
- Theorem {lit}`Board.refresh_shows_last`: a refresh shows the last award of each cell, in
  whatever order, and a second one with the same awards changes nothing.
-/

namespace AwardsDesk

/-- Awards in another order, in which those of one cell keep their turns. -/
structure Award.Reordered (awards others : List Award) : Prop where
  perm : awards.Perm others
  turns : ∀ key, awards.filter (·.key = key) = others.filter (·.key = key)

namespace Board

/-! ## What awards make of a view -/

/-- A cell shows an award; what it shows of its division is as before. -/
structure Cell.Shows (before after : Cell) (a : Award) : Prop where
  divId : after.divId = before.divId
  header : after.header = before.header
  awardeeId : after.awardeeId = some a.awardeeId
  bib : after.bib = some a.bib
  name : after.name = some a.name
  pickedUp : after.pickedUp = a.pickedUp
  prevPickedUp : after.prevPickedUp = a.prevPickedUp
  notes : after.notes = if a.notes = some "" then none else a.notes

/-- What a list of awards makes of a view. -/
structure View.ShowsAwards (v : View) (awards : List Award) (w : View) : Prop where
  /-- Of the awards of a cell the last one is shown. -/
  last : ∀ key c a, v.cell? key = some c → (awards.filter (·.key = key)).getLast? = some a →
    ∃ after, w.cell? key = some after ∧ Cell.Shows c after a
  /-- A cell that none of the awards is for stays as it is. -/
  others : ∀ key, (∀ a ∈ awards, a.key ≠ key) → w.cell? key = v.cell? key
  /-- An award without a cell changes nothing. -/
  homeless : ∀ before a after, awards = before ++ a :: after → v.cell? a.key = none →
    v.fill (before ++ after) = w
  /-- No cell is added and none is taken away. -/
  keys : w.cells.map Prod.fst = v.cells.map Prod.fst
  /-- All but the cells stays as it is: the event, the layout, the rows and the editor. -/
  rest : w = { v with cells := w.cells }

/-- A cell in which an award is shown shows it. -/
theorem Cell.shows_showing (c : Cell) (a : Award) : Cell.Shows c (c.showing a) a where
  divId := rfl
  header := rfl
  awardeeId := rfl
  bib := rfl
  name := rfl
  pickedUp := rfl
  prevPickedUp := rfl
  notes := by
    rcases a with ⟨awardeeId, divId, rsuDivId, place, name, bib, pickedUp, prevPickedUp, notes⟩
    cases notes with
    | none => rfl
    | some text => by_cases htext : text = "" <;> simp [showing, shownNotes, Option.filter, htext]

namespace View

variable {v : View} {awards others : List Award} {a b : Award}

/-- An award without a cell is not shown. -/
theorem showAward_of_cell?_eq_none (h : v.cell? a.key = none) : v.showAward a = v := by
  have hcells : v.cells.modify a.key (·.showing a) = v.cells :=
    Cells.modify_of_find?_eq_none h _
  change { v with cells := v.cells.modify a.key (·.showing a) } = v
  rw [hcells]

/-- A list of awards shows the last award of every cell and nothing else. -/
theorem showsAwards_fill (v : View) (awards : List Award) :
    ShowsAwards v awards (v.fill awards) where
  last := by
    intro key c a hcell hlast
    refine ⟨c.showing a, ?_, c.shows_showing a⟩
    rw [cell?_fill, hcell, Option.map_some, c.foldl_showing_of_getLast? hlast]
  others := by
    intro key hnone
    have hfilter : awards.filter (·.key = key) = [] := by
      simpa [List.filter_eq_nil_iff] using hnone
    rw [cell?_fill, hfilter]
    simp
  homeless := by
    rintro before a after rfl hnone
    have hstill : (v.fill before).cell? a.key = none := by
      rw [cell?_fill, hnone, Option.map_none]
    rw [fill_append, fill_append]
    exact congrArg (·.fill after) (showAward_of_cell?_eq_none hstill).symm
  keys := map_fst_fill v awards
  rest := fill_eq v awards

/-! ## Order -/

/-- Awards of different cells can be shown in any order. -/
theorem showAward_comm (hne : a.key ≠ b.key) (v : View) :
    (v.showAward a).showAward b = (v.showAward b).showAward a := by
  have hcells := Cells.modify_comm hne (·.showing a) (·.showing b) v.cells
  exact congrArg (fun cells => { v with cells }) hcells.symm

/-- An award can be shown after awards of other cells instead of before them. -/
theorem fill_showAward (h : ∀ b ∈ awards, b.key ≠ a.key) (v : View) :
    (v.showAward a).fill awards = (v.fill awards).showAward a := by
  unfold fill
  induction awards generalizing v with
  | nil => rfl
  | cons b awards ih =>
      have hne : a.key ≠ b.key := Ne.symm (h b List.mem_cons_self)
      rw [List.foldl_cons, List.foldl_cons, showAward_comm hne,
        ih (fun c hc => h c (List.mem_cons_of_mem _ hc))]

/-- The order of awards of different cells is not seen. -/
theorem fill_of_reordered (h : ∀ key, awards.filter (·.key = key) = others.filter (·.key = key))
    (v : View) : v.fill awards = v.fill others := by
  induction awards generalizing others v with
  | nil =>
      cases others with
      | nil => rfl
      | cons b others => simpa using h b.key
  | cons a awards ih =>
      -- The first award is the first one of its cell in the other order, too, and those before
      -- it there are of other cells.
      have hfirst := h a.key
      rw [List.filter_cons_of_pos (by simp)] at hfirst
      obtain ⟨before, after, rfl, hbefore, -, hafter⟩ := List.filter_eq_cons_iff.1 hfirst.symm
      have hothers : ∀ b ∈ before, b.key ≠ a.key := by
        intro b hb
        simpa using hbefore b hb
      have hrest : ∀ key, awards.filter (·.key = key) =
          (before ++ after).filter (·.key = key) := by
        intro key
        have hkey := h key
        rw [List.filter_append]
        by_cases heq : a.key = key
        · subst heq
          have hnone : before.filter (·.key = a.key) = [] := by
            simpa [List.filter_eq_nil_iff] using hothers
          rw [hnone, hafter, List.nil_append]
        · rw [List.filter_cons_of_neg (by simpa using heq), List.filter_append,
            List.filter_cons_of_neg (by simpa using heq)] at hkey
          exact hkey
      calc v.fill (a :: awards) = (v.showAward a).fill (before ++ after) := ih hrest _
        _ = ((v.showAward a).fill before).fill after := fill_append _ _ _
        _ = ((v.fill before).showAward a).fill after := by rw [fill_showAward hothers]
        _ = v.fill (before ++ a :: after) := (fill_append v before (a :: after)).symm

/-! ## Repetition -/

/-- Of two awards of one cell the second one is shown. -/
theorem showAward_showAward (heq : a.key = b.key) (v : View) :
    (v.showAward a).showAward b = v.showAward b := by
  have hcells : (v.cells.modify a.key (·.showing a)).modify b.key (·.showing b) =
      v.cells.modify b.key (·.showing b) := by
    rw [heq, Cells.modify_modify]
    rfl
  exact congrArg (fun cells => { v with cells }) hcells

/-- An award is not seen behind a later one of its cell. -/
theorem fill_showAward_of_later (h : ∃ b ∈ awards, b.key = a.key) (v : View) :
    (v.showAward a).fill awards = v.fill awards := by
  induction awards generalizing v with
  | nil => simp at h
  | cons b awards ih =>
      by_cases heq : a.key = b.key
      · exact congrArg (·.fill awards) (showAward_showAward heq v)
      · have hlater : ∃ c ∈ awards, c.key = a.key := by
          rcases h with ⟨c, hc, hkey⟩
          rcases List.mem_cons.1 hc with rfl | hc
          · exact absurd hkey.symm heq
          · exact ⟨c, hc, hkey⟩
        calc (v.showAward a).fill (b :: awards)
            = ((v.showAward b).showAward a).fill awards :=
              congrArg (·.fill awards) (showAward_comm heq v)
          _ = v.fill (b :: awards) := ih hlater (v.showAward b)

/-- Awards are not seen behind later ones of their cells. -/
theorem fill_append_of_covered (h : ∀ a ∈ awards, ∃ b ∈ others, b.key = a.key) (v : View) :
    v.fill (awards ++ others) = v.fill others := by
  induction awards generalizing v with
  | nil => rfl
  | cons a awards ih =>
      calc v.fill (a :: awards ++ others) = (v.showAward a).fill (awards ++ others) := rfl
        _ = (v.showAward a).fill others := ih (fun b hb => h b (List.mem_cons_of_mem _ hb)) _
        _ = v.fill others := fill_showAward_of_later (h a List.mem_cons_self) v

/-- The same awards once more change nothing. -/
theorem fill_fill (v : View) (awards : List Award) :
    (v.fill awards).fill awards = v.fill awards := by
  rw [← fill_append]
  exact fill_append_of_covered (fun a ha => ⟨a, ha, rfl⟩) v

end View

/-! ## Runs of a board -/

/-- Backends that answer alike, but for the order in which they list awards of different
cells. -/
structure Responder.Reordered (r r' : Responder) : Prop where
  fetchAwards : ∀ event needDivisions,
    r (.fetchAwards event needDivisions) = r' (.fetchAwards event needDivisions) ∨
      ∃ data awards, r (.fetchAwards event needDivisions) = .ok data ∧
        r' (.fetchAwards event needDivisions) = .ok { data with awards } ∧
        Award.Reordered data.awards awards
  setPickedUp : ∀ event awardee was,
    r (.setPickedUp event awardee was) = r' (.setPickedUp event awardee was)
  fetchNotes : ∀ event awardee, r (.fetchNotes event awardee) = r' (.fetchNotes event awardee)
  saveNotes : ∀ event awardee text,
    r (.saveNotes event awardee text) = r' (.saveNotes event awardee text)

/-- Events that are alike, but for the order in which a backend lists awards of different
cells. -/
inductive Event.Reordered : Event → Event → Prop where
  | same (e : Event) : Reordered e e
  | answer (job : Nat) {r r' : Responder} (h : r.Reordered r') :
      Reordered (.answer job r) (.answer job r')

/-- An answer is shown alike in whatever order its awards are. -/
theorem Responder.Reordered.finish {r r' : Responder} (h : r.Reordered r') (w : Await)
    (v : View) : w.finish (r w.request) v = w.finish (r' w.request) v := by
  cases w with
  | awards event needDivisions =>
      dsimp only [Await.request]
      rcases h.fetchAwards event needDivisions with heq | ⟨data, awards, hr, hr', hreordered⟩
      · rw [heq]
      · rw [hr, hr']
        exact Prod.ext (View.fill_of_reordered hreordered.turns _) rfl
  | status event awardee was key =>
      dsimp only [Await.request]
      rw [h.setPickedUp]
  | notes event awardee key =>
      dsimp only [Await.request]
      rw [h.fetchNotes]
  | saved event awardee text key =>
      dsimp only [Await.request]
      rw [h.saveNotes]

/-- One event does the same to a board in whatever order awards are listed. -/
theorem step_of_reordered {e e' : Event} (h : e.Reordered e') (b : Board) :
    b.step e = b.step e' := by
  cases h with
  | same => rfl
  | answer job h =>
      have hanswer : ∀ r r' : Responder, r.Reordered r' → b.answer job r = b.answer job r' := by
        intro r r' h
        unfold answer
        split
        · rw [h.finish]
        · rfl
      rw [step, step, hanswer _ _ h]

/-- A whole run does the same to a board in whatever order awards are listed. -/
theorem run_of_reordered {es es' : List Event} (h : List.Forall₂ Event.Reordered es es')
    (b : Board) : b.run es = b.run es' := by
  induction h generalizing b with
  | nil => rfl
  | cons he _ ih => rw [run_cons, run_cons, step_of_reordered he, ih]

/-- A second refresh of a board that gets the same awards leaves what the first one showed. -/
theorem InStep.alike_refreshed_twice {b : Board} {s : View} (h : b.InStep s)
    {es more : List Event} {data again : AwardsData}
    (hes : List.Forall₂ Body.Refreshed (b.bodies es) [data])
    (hmore : List.Forall₂ Body.Refreshed ((b.run es).bodies more) [again])
    (hsame : again.awards = data.awards) :
    ((b.run es).run more).view.Alike (b.run es).view := by
  obtain ⟨x, xs, hx, hnil, hes⟩ := List.forall₂_cons_right_iff.1 hes
  obtain rfl := List.forall₂_nil_right_iff.1 hnil
  obtain ⟨y, ys, hy, hnil, hmore⟩ := List.forall₂_cons_right_iff.1 hmore
  obtain rfl := List.forall₂_nil_right_iff.1 hnil
  have hfirst := h.run es
  have hsecond := hfirst.run more
  rw [hmore] at hsecond
  rw [hes] at hfirst hsecond
  have hagrees : x.Agrees (serial s []) ∨ x.FindsNoNote := h.agrees_run hes
  have hagain : y.Agrees (serial (serial s [x]) []) ∨ y.FindsNoNote := hfirst.agrees_run hmore
  have hshown : serial s [x] = (s.readied data).fill data.awards :=
    View.show_refreshed_eq hx hagrees
  have hrendered : (serial s [x]).divisionsRendered = true := by
    rw [hshown, View.fill_eq]
    exact View.divisionsRendered_readied s data
  have hready : (serial s [x]).readied again = serial s [x] :=
    View.readied_of_rendered hrendered again
  have hunchanged : serial (serial s [x]) [y] = serial s [x] := by
    calc serial (serial s [x]) [y]
        = ((serial s [x]).readied again).fill again.awards := View.show_refreshed_eq hy hagain
      _ = ((s.readied data).fill data.awards).fill data.awards := by rw [hready, hsame, hshown]
      _ = serial s [x] := by rw [View.fill_fill, hshown]
  rw [hunchanged] at hsecond
  exact hsecond.follows.alike.trans hfirst.follows.alike.symm

/-- Whatever a board shows, a refresh shows the last award of each cell and leaves the rest.
The order in which the awards of different cells are listed is not seen, neither in one refresh
nor in a run, and a second refresh with the same awards changes nothing. -/
theorem refresh_shows_last (name : String) (options : Gate.Options) (v : View)
    (es : List Event) :
    let b := Board.run { gate := { name, options }, view := v } es
    (∀ event respond data, b.view.eventId = some event →
      respond (.fetchAwards event !b.view.divisionsRendered) = .ok data →
      let shown := (Action.refresh.perform respond b.view).1
      (b.view.readied data).ShowsAwards data.awards shown ∧
        (∀ respond' awards,
          respond' (.fetchAwards event !b.view.divisionsRendered) = .ok { data with awards } →
          Award.Reordered data.awards awards →
          Action.refresh.perform respond' b.view = (shown, .ok .done)) ∧
        ∀ respond' again, respond' (.fetchAwards event false) = .ok again →
          again.awards = data.awards →
          Action.refresh.perform respond' shown = (shown, .ok .done)) ∧
    (∀ more more', List.Forall₂ Event.Reordered more more' → b.run more = b.run more') ∧
    ∀ more more' data again, List.Forall₂ Body.Refreshed (b.bodies more) [data] →
      List.Forall₂ Body.Refreshed ((b.run more).bodies more') [again] →
      again.awards = data.awards →
      ((b.run more).run more').view.Alike (b.run more).view := by
  intro b
  have h : b.InStep _ := (inStep_initial name options v).run es
  refine ⟨?_, fun more more' hmore => run_of_reordered hmore b,
    fun more more' data again => h.alike_refreshed_twice⟩
  intro event respond data hevent hgot shown
  have hperform := View.perform_refresh_eq hevent hgot
  have hshown : shown = (b.view.readied data).fill data.awards := congrArg Prod.fst hperform
  refine ⟨?_, ?_, ?_⟩
  · rw [hshown]
    exact View.showsAwards_fill _ _
  · intro respond' awards hgot' hreordered
    rw [View.perform_refresh_eq hevent hgot', hshown, View.fill_of_reordered hreordered.turns]
    rfl
  · intro respond' again hgot' hsame
    have hrendered : shown.divisionsRendered = true := by
      rw [hshown, View.fill_eq]
      exact View.divisionsRendered_readied b.view data
    have hstill : shown.eventId = some event := by
      rw [hshown, View.fill_eq]
      exact (View.eventId_readied b.view data).trans hevent
    rw [View.perform_refresh hstill hrendered hgot', hsame, hshown, View.fill_fill]

/-- An award at a place that {lit}`openDivision` does not have. -/
def strayAward : Award :=
  { openAward with place := 2 }

/-- A later award at the place of {lit}`openDivision`, with empty notes. -/
def heirAward : Award :=
  { openAward with awardeeId := 8, name := "Bea", bib := "34", notes := some "" }

/-- Of two awards of one place the later one is shown, wherever the stray award stands. -/
theorem heir_shown_in_any_order :
    let b := Board.run { gate := { name := "awards", options := {} } } layingOut
    let data : AwardsData := { awards := [openAward, strayAward, heirAward] }
    let other : AwardsData := { awards := [strayAward, openAward, heirAward] }
    let shown := (Action.refresh.perform (View.answering data) b.view).1
    let es (data : AwardsData) : List Event :=
      [.start 0 .refresh, .answer 2 (View.answering data)]
    let again : List Event := [.start 0 .refresh, .answer 3 (View.answering data)]
    Award.Reordered data.awards other.awards ∧
      (∃ after, shown.cell? openAward.key = some after ∧
        Cell.Shows ((openDivision.emptyCell 1).showing openAward) after heirAward ∧
        after.notes = none) ∧
      Action.refresh.perform (View.answering other) b.view = (shown, .ok .done) ∧
      Action.refresh.perform (View.answering data) shown = (shown, .ok .done) ∧
      b.run (es data) = b.run (es other) ∧
      ((b.run (es data)).run again).view.Alike (b.run (es data)).view := by
  intro b data other shown es again
  obtain ⟨hview, hrun, htwice⟩ := refresh_shows_last "awards" {} {} layingOut
  obtain ⟨hshows, horder, hagain⟩ := hview 1 (View.answering data) data rfl rfl
  have hreordered : Award.Reordered data.awards other.awards := by
    have hne : openAward.key ≠ strayAward.key := by decide
    refine ⟨List.Perm.swap _ _ _, fun key => ?_⟩
    by_cases hstray : strayAward.key = key
    · simp [data, other, List.filter_cons, hstray, hstray ▸ hne]
    · simp [data, other, List.filter_cons, hstray]
  have hresponders : (View.answering data).Reordered (View.answering other) := by
    refine ⟨fun _ _ => Or.inr ⟨data, other.awards, rfl, rfl, hreordered⟩, ?_, ?_, ?_⟩
    · exact fun _ _ _ => rfl
    · exact fun _ _ => rfl
    · exact fun _ _ _ => rfl
  refine ⟨hreordered, ?_, ?_, ?_, ?_, ?_⟩
  · have hcell : b.view.cell? openAward.key =
        some ((openDivision.emptyCell 1).showing openAward) := rfl
    obtain ⟨after, hafter, hshown⟩ := hshows.last openAward.key _ heirAward hcell rfl
    refine ⟨after, hafter, hshown, ?_⟩
    exact hshown.notes
  · exact horder _ other.awards rfl hreordered
  · exact hagain _ data rfl rfl
  · exact hrun _ _ (.cons (.same _) (.cons (.answer 2 hresponders) .nil))
  · refine htwice _ _ data data ?_ ?_ rfl
    · exact .cons ⟨1, false, View.answering data, rfl, rfl, rfl⟩ .nil
    · exact .cons ⟨1, false, View.answering data, rfl, rfl, rfl⟩ .nil

end Board
end AwardsDesk
