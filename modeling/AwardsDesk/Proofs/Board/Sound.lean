import AwardsDesk.Proofs.Board.Refresh
import AwardsDesk.Proofs.Board.Shown
import AwardsDesk.Proofs.Desk.Failures

/-!
# Sound views

What a board shows hangs together at every moment: nothing is shown of an event before its
divisions are laid out, the rows have the keys of the cells, a cell shows all of a holder or
nothing, and the note editor is open over a cell with a holder.  So an action on a cell,
which needs a holder, needs an event that is there until the action is over.

Main definitions:

- Structures {lit}`Cell.Whole` and {lit}`View.Sound`: what holds of every cell and every view.
- Structure {lit}`Board.Orderly`: the invariant of a board's view and its jobs.

Main results:

- Theorems {lit}`View.Sound.begin_ended` and {lit}`View.Sound.finish`: both halves of an
  action keep a view sound.
- Theorem {lit}`Board.Orderly.change`: every event keeps a board orderly.
- Theorem {lit}`Board.sound_run`: in every run the view is sound, an event stays selected,
  and no action on a cell fails for want of one, unless the backend fails so.
-/

namespace AwardsDesk

namespace Board
namespace Cells

variable {cells : Cells} {key : CellKey} {c : Cell}

/-- The cells of a table are those that are found in it. -/
theorem Sorted.mem_iff (h : cells.Sorted) : (key, c) ∈ cells ↔ find? cells key = some c := by
  have hnodup := h.nodup
  clear h
  induction cells with
  | nil => simp [find?]
  | cons head rest ih =>
      rcases head with ⟨k, d⟩
      rcases List.nodup_cons.1 hnodup with ⟨hnot, hrest⟩
      by_cases hk : k = key
      · subst hk
        have habsent : (k, c) ∉ rest :=
          fun hmem => hnot (List.mem_map.2 ⟨(k, c), hmem, rfl⟩)
        simp [find?, habsent, eq_comm]
      · simp [find?, hk, Ne.symm hk, ih hrest]

end Cells
end Board

namespace Division

open Board

/-- The keys of a table to which the cells of a division are added. -/
theorem mem_keys_addCells (d : Division) {cells : Cells} {key : CellKey} :
    key ∈ (d.addCells cells).map Prod.fst ↔ key ∈ d.keys ∨ key ∈ cells.map Prod.fst := by
  unfold addCells keys
  induction d.places generalizing cells with
  | nil => simp
  | cons place places ih =>
      rw [List.foldl_cons, ih, Cells.mem_keys_insert, List.map_cons, List.mem_cons]
      tauto

/-- The keys of a table to which the cells of divisions are added. -/
theorem mem_keys_foldl_addCells (ds : List Division) {cells : Cells} {key : CellKey} :
    key ∈ (ds.foldl addCells cells).map Prod.fst ↔
      key ∈ (ds.map keys).flatten ∨ key ∈ cells.map Prod.fst := by
  induction ds generalizing cells with
  | nil => simp
  | cons d ds ih =>
      rw [List.foldl_cons, ih, mem_keys_addCells, List.map_cons, List.flatten_cons,
        List.mem_append]
      tauto

end Division

namespace Board

/-! ## Sound views -/

/-- A cell shows all of the holder of its award, or nothing of one, and only notes that have
something in them. -/
structure Cell.Whole (c : Cell) : Prop where
  bib : c.bib.isSome = c.awardeeId.isSome
  name : c.name.isSome = c.awardeeId.isSome
  vacant : c.awardeeId = none → c.pickedUp = false ∧ c.prevPickedUp = false ∧ c.notes = none
  notes : c.notes ≠ some ""

/-- What a view shows hangs together. -/
structure View.Sound (v : View) : Prop where
  /-- Nothing is shown of an event whose divisions are not laid out. -/
  unrendered : v.divisionsRendered = false → v.rows = [] ∧ v.cells = [] ∧ v.noteEditor = none
  /-- Every key has one cell. -/
  sorted : v.cells.Sorted
  /-- The rows have the keys of the cells. -/
  keys : ∀ key, key ∈ v.rows.flatten.flatten ↔ key ∈ v.cells.map Prod.fst
  /-- Places count from one. -/
  place : ∀ key ∈ v.cells.map Prod.fst, 1 ≤ key.place.toNat
  whole : ∀ p ∈ v.cells, p.2.Whole
  /-- The note editor is open over a cell whose award has a holder. -/
  editor : ∀ e, v.noteEditor = some e →
    ∃ c awardee, v.cell? e.cell = some c ∧ c.awardeeId = some awardee
  /-- Without an event nothing is shown. -/
  eventless : v.eventId = none → v = {}

/-- Notes that are shown have something in them. -/
theorem shownNotes_ne_empty (notes : Option String) : shownNotes notes ≠ some "" := by
  intro h
  cases notes with
  | none => simp [shownNotes] at h
  | some text =>
      by_cases htext : text = ""
      · simp [shownNotes, htext, Option.filter] at h
      · simp [shownNotes, htext, Option.filter] at h

namespace Cell

/-- A cell without a holder is whole. -/
theorem whole_emptied (c : Cell) : c.emptied.Whole := by
  constructor <;> simp [emptied]

/-- A cell in which an award is shown is whole. -/
theorem whole_showing (c : Cell) (a : Award) : (c.showing a).Whole where
  bib := rfl
  name := rfl
  vacant := by simp [showing]
  notes := shownNotes_ne_empty a.notes

namespace Whole

variable {c : Cell}

/-- A cell with a holder stays whole when the state of the award changes. -/
theorem pickup (h : c.Whole) (hholder : c.awardeeId ≠ none) (now before : Bool) :
    Whole { c with pickedUp := now, prevPickedUp := before } where
  bib := h.bib
  name := h.name
  vacant := fun hnone => absurd hnone hholder
  notes := h.notes

/-- A cell with a holder stays whole when the notes change. -/
theorem annotate (h : c.Whole) (hholder : c.awardeeId ≠ none) (notes : Option String) :
    Whole { c with notes := shownNotes notes } where
  bib := h.bib
  name := h.name
  vacant := fun hnone => absurd hnone hholder
  notes := shownNotes_ne_empty notes

end Whole
end Cell

namespace View

variable {v v' : View}

/-- A view that shows nothing but an event is sound. -/
theorem sound_initial (event : Option UInt64) : Sound { eventId := event } where
  unrendered := fun _ => ⟨rfl, rfl, rfl⟩
  sorted := List.Pairwise.nil
  keys := by simp
  place := by simp
  whole := by simp
  editor := by simp
  eventless := by
    intro hevent
    rw [← hevent]

/-- Divisions are laid out in rows that have the keys of the cells. -/
theorem keys_layOut (v : View) (divisions : List (List (Option Division))) (key : CellKey) :
    key ∈ (v.layOut divisions).rows.flatten.flatten ↔
      key ∈ (v.layOut divisions).cells.map Prod.fst := by
  have hrows : (v.layOut divisions).rows.flatten =
      ((divisions.map fun row => row.filterMap id).flatten).map Division.keys := by
    rw [List.map_flatten]
    rfl
  rw [hrows]
  simp [layOut, Division.mem_keys_foldl_addCells]

/-- Divisions are laid out in places that count from one. -/
theorem place_layOut (v : View) (divisions : List (List (Option Division))) {key : CellKey}
    (h : key ∈ (v.layOut divisions).cells.map Prod.fst) : 1 ≤ key.place.toNat := by
  have hkeys : key ∈ (((divisions.map fun row => row.filterMap id).flatten).map
      Division.keys).flatten := by
    simpa [layOut, Division.mem_keys_foldl_addCells] using h
  rcases List.mem_flatten.1 hkeys with ⟨keys, hmem, hkey⟩
  rcases List.mem_map.1 hmem with ⟨d, -, rfl⟩
  exact UInt32.le_iff_toNat_le.1 (Division.mem_places.1 (Division.mem_keys.1 hkey).2).1

/-- Cells are laid out whole. -/
theorem whole_layOut (v : View) (divisions : List (List (Option Division))) :
    ∀ p ∈ (v.layOut divisions).cells, p.2.Whole := by
  intro p hp
  have hmap : (v.layOut divisions).cells.map (fun p => (p.1, p.2.emptied)) =
      (v.layOut divisions).cells.map id := by
    rw [List.map_id]
    exact emptied_layOut v divisions
  have hempty : (p.1, p.2.emptied) = p := List.map_inj_left.1 hmap p hp
  rw [← hempty]
  exact p.2.whole_emptied

namespace Sound

/-- A view stays sound when its divisions are laid out for the first time. -/
theorem layOut (h : v.Sound) (hevent : v.eventId ≠ none) (hfirst : v.divisionsRendered = false)
    (divisions : List (List (Option Division))) : (v.layOut divisions).Sound where
  unrendered := by simp [View.layOut]
  sorted := sorted_layOut v divisions
  keys := keys_layOut v divisions
  place := fun _ => place_layOut v divisions
  whole := whole_layOut v divisions
  editor := by
    intro e he
    have hclosed : (v.layOut divisions).noteEditor = none := (h.unrendered hfirst).2.2
    simp [hclosed] at he
  eventless := fun hnone => absurd hnone hevent

/-- A view stays sound when a cell is changed that stays whole and keeps a holder if it has
one. -/
theorem modify (h : v.Sound) (key : CellKey) {f : Cell → Cell}
    (hwhole : ∀ c, v.cell? key = some c → c.Whole → (f c).Whole)
    (hholder : ∀ c, c.awardeeId ≠ none → (f c).awardeeId ≠ none) :
    Sound { v with cells := v.cells.modify key f } := by
  have hcell : ∀ k, ({ v with cells := v.cells.modify key f } : View).cell? k =
      if k = key then (v.cell? k).map f else v.cell? k :=
    fun k => Cells.find?_modify v.cells key k f
  have hsorted : (v.cells.modify key f).Sorted := by
    rw [Cells.Sorted, Cells.map_fst_modify]
    exact h.sorted
  refine ⟨?_, hsorted, ?_, ?_, ?_, ?_, ?_⟩
  · intro hunrendered
    rcases h.unrendered hunrendered with ⟨hrows, hcells, heditor⟩
    refine ⟨hrows, ?_, heditor⟩
    simp [hcells, Cells.modify]
  · intro k
    rw [Cells.map_fst_modify]
    exact h.keys k
  · intro k hk
    rw [Cells.map_fst_modify] at hk
    exact h.place k hk
  · rintro ⟨k, c⟩ hp
    have hfind := (hcell k).symm.trans (hsorted.mem_iff.1 hp)
    by_cases hk : k = key
    · rw [if_pos hk] at hfind
      rcases Option.map_eq_some_iff.1 hfind with ⟨d, hd, rfl⟩
      exact hwhole d (hk ▸ hd) (h.whole (k, d) (h.sorted.mem_iff.2 hd))
    · rw [if_neg hk] at hfind
      exact h.whole (k, c) (h.sorted.mem_iff.2 hfind)
  · intro e he
    rcases h.editor e he with ⟨c, awardee, hc, hawardee⟩
    rw [hcell]
    by_cases hk : e.cell = key
    · have hnew : (f c).awardeeId ≠ none := hholder c (by simp [hawardee])
      rcases Option.ne_none_iff_exists'.1 hnew with ⟨holder, hholder⟩
      refine ⟨f c, holder, ?_, hholder⟩
      rw [if_pos hk, hc, Option.map_some]
    · exact ⟨c, awardee, by rw [if_neg hk, hc], hawardee⟩
  · intro hevent
    have hview := h.eventless hevent
    simp [hview, Cells.modify]

/-- A view stays sound when an award is shown. -/
theorem showAward (h : v.Sound) (a : Award) : (v.showAward a).Sound := by
  refine h.modify ⟨a.rsuDivId, a.place⟩ ?_ ?_
  · intro c _ _
    exact c.whole_showing a
  · intro c _
    simp

/-- A view stays sound when awards are shown. -/
theorem fill (h : v.Sound) (awards : List Award) : (v.fill awards).Sound := by
  unfold View.fill
  induction awards generalizing v with
  | nil => exact h
  | cons a awards ih => exact ih (h.showAward a)

/-- A view stays sound when the note editor is closed. -/
theorem closeEditor (h : v.Sound) : v.closeEditor.Sound where
  unrendered := by
    intro hunrendered
    rcases h.unrendered hunrendered with ⟨hrows, hcells, -⟩
    exact ⟨hrows, hcells, rfl⟩
  sorted := h.sorted
  keys := h.keys
  place := h.place
  whole := h.whole
  editor := by simp [View.closeEditor]
  eventless := by
    intro hevent
    have hview := h.eventless hevent
    rw [hview]
    rfl

/-- A view stays sound when the note editor is opened over a cell with a holder. -/
theorem openEditor (h : v.Sound) {key : CellKey} {awardee : UInt64}
    (hholder : v.awardeeAt key = some awardee) (hevent : v.eventId ≠ none) (text : String) :
    (v.openEditor key text).Sound where
  unrendered := by
    intro hunrendered
    have hcells := (h.unrendered hunrendered).2.1
    simp [awardeeAt, cell?, hcells, Cells.find?] at hholder
  sorted := h.sorted
  keys := h.keys
  place := h.place
  whole := h.whole
  editor := by
    intro e he
    obtain rfl := Option.some.inj he
    rcases awardeeAt_eq_some_iff.1 hholder with ⟨c, hc, hawardee⟩
    exact ⟨c, awardee, hc, hawardee⟩
  eventless := fun hnone => absurd hnone hevent

/-- A view stays sound when an action could not have the gate. -/
theorem afterGateError (h : v.Sound) (a : Action) : (a.afterGateError v).Sound := by
  cases a with
  | saveNote text => exact h.closeEditor
  | selectEvent event => exact h
  | refresh => exact h
  | toggle key => exact h
  | openNote key => exact h

/-- The first half of an action keeps a view sound. -/
theorem begin_ended (h : v.Sound) {a : Action} {result : Except Error Outcome}
    (hbegin : a.begin v = .ended v' result) : v'.Sound := by
  rcases Action.begin_ended_cases hbegin with ⟨event, rfl, -⟩ | ⟨rfl | rfl, -⟩
  · obtain ⟨rfl, -⟩ := Begun.ended.inj hbegin
    exact sound_initial (some event)
  · exact h
  · exact h.closeEditor

/-- The second half of an action keeps a view sound in which what was asked about is still
shown. -/
theorem finish (h : v.Sound) {w : Await} (hshown : w.Shown v)
    (answer : Except Error w.request.Answer) : (w.finish answer v).1.Sound := by
  have hevent := hshown.eventId
  cases w with
  | awards event needDivisions =>
      cases answer with
      | error e => exact h
      | ok data =>
          cases needDivisions with
          | false => exact h.fill data.awards
          | true =>
              have hfirst : v.divisionsRendered = false := by simpa using hshown.2
              exact (h.layOut hevent hfirst _).fill data.awards
  | status event awardee was key =>
      cases answer with
      | error e => exact h
      | ok s =>
          rcases hshown with ⟨-, c, hc, hholder, -⟩
          refine h.modify key ?_ fun c hc => hc
          intro d hd hwhole
          obtain rfl : c = d := Option.some.inj (hc.symm.trans hd)
          exact hwhole.pickup (by simp [hholder]) s.pickedUp s.prevPickedUp
  | notes event awardee key =>
      cases answer with
      | error e => exact h
      | ok text => exact h.openEditor hshown.2 hevent text
  | saved event awardee text key =>
      cases answer with
      | error e => exact h.closeEditor
      | ok saved =>
          rcases awardeeAt_eq_some_iff.1 hshown.2 with ⟨c, hc, hholder⟩
          refine h.closeEditor.modify key ?_ fun c hc => hc
          intro d hd hwhole
          obtain rfl : c = d := Option.some.inj (hc.symm.trans hd)
          exact hwhole.annotate (by simp [hholder]) (some saved)

end Sound
end View

/-! ## Events that are missed -/

/-- Whether an action is on a cell or on the note under the editor, and needs a holder. -/
def Action.onCell : Action → Bool
  | toggle _ | openNote _ | saveNote _ => true
  | _ => false

/-- No action is over for want of an event before it asks for the gate. -/
theorem Action.early?_ne_noEvent (a : Action) (v : View) :
    a.early? v ≠ some (.error .noEvent) := by
  intro h
  cases a with
  | selectEvent event => simp [early?] at h
  | refresh => simp [early?] at h
  | toggle key => simp [early?] at h
  | openNote key => simp [early?] at h
  | saveNote text => simp [early?] at h

/-- With an event no action misses one when it has the gate. -/
theorem Action.begin_ne_noEvent {a : Action} {v v' : View} {result : Except Error Outcome}
    (hevent : v.eventId ≠ none) (hbegin : a.begin v = .ended v' result) :
    result ≠ .error .noEvent := by
  rcases Option.ne_none_iff_exists'.1 hevent with ⟨event, hsome⟩
  rintro rfl
  cases a with
  | selectEvent event => simp [begin] at hbegin
  | refresh => simp [begin, hsome] at hbegin
  | toggle key =>
      simp only [begin, hsome] at hbegin
      split at hbegin <;> simp at hbegin
  | openNote key =>
      simp only [begin, hsome] at hbegin
      split at hbegin <;> simp at hbegin
  | saveNote text =>
      simp only [begin, hsome] at hbegin
      split at hbegin <;> simp at hbegin

/-- An action that has asked the backend fails only if the backend does. -/
theorem Await.answer_eq_of_finish {w : Await} {answer : Except Error w.request.Answer} {v : View}
    {e : Error} (h : (w.finish answer v).2 = .error e) : answer = .error e := by
  cases w with
  | awards event needDivisions =>
      cases answer with
      | ok data => simp [finish] at h
      | error e => simpa [finish] using h
  | status event awardee was key =>
      cases answer with
      | ok data => simp [finish] at h
      | error e => simpa [finish] using h
  | notes event awardee key =>
      cases answer with
      | ok data => simp [finish] at h
      | error e => simpa [finish] using h
  | saved event awardee text key =>
      cases answer with
      | ok data => simp [finish] at h
      | error e => simpa [finish] using h

/-- Where an action on a cell needs the gate, an event is shown. -/
theorem View.Sound.eventId_ne_none {v : View} (h : v.Sound) {a : Action} (hcell : a.onCell)
    (hearly : a.early? v = none) : v.eventId ≠ none := by
  intro hnone
  have hempty := h.eventless hnone
  subst hempty
  cases a with
  | selectEvent event => simp [Action.onCell] at hcell
  | refresh => simp [Action.onCell] at hcell
  | toggle key => simp [Action.early?, View.awardeeAt, View.cell?, Cells.find?] at hearly
  | openNote key => simp [Action.early?, View.awardeeAt, View.cell?, Cells.find?] at hearly
  | saveNote text => simp [Action.early?, View.noteTarget] at hearly

/-! ## Orderly boards -/

variable {b b' : Board} {s : View} {reply : Option Advance} {es : List Gate.Event}
  {x : Option Body}

/-- The view of a board is sound, and the actions under way on cells have an event. -/
structure Orderly (b : Board) : Prop where
  view : b.view.Sound
  selected : ∀ j ∈ b.jobs, j.action.onCell → b.view.eventId ≠ none

/-- A new board is orderly. -/
theorem IsNew.orderly (h : b.IsNew) : b.Orderly := by
  rcases h.eq with ⟨name, options, event, rfl⟩
  exact ⟨View.sound_initial event, by simp⟩

namespace Orderly

/-- A job on a cell that has just got the gate has an event. -/
theorem eventId_ne_none (ho : b.Orderly) {j : Job} {e : Gate.Event} (enters : b.Enters b' j e)
    (hcell : j.action.onCell) : b.view.eventId ≠ none := by
  cases enters with
  | started now a granted early => exact ho.view.eventId_ne_none hcell early
  | turned now j request mem stage granted => exact ho.selected j mem hcell

/-- Every event keeps a board orderly. -/
theorem change (ho : b.Orderly) (h : b.InStep s) (c : b.Change b' reply es x) : b'.Orderly where
  view := by
    cases c with
    | idle reply es still told quiet => exact ho.view
    | outside e strange => exact ho.view
    | queued now a early => exact ho.view
    | gone j mem e about v reply fate =>
        rcases fate with ⟨rfl, -⟩ | ⟨rfl, -⟩
        · exact ho.view.afterGateError j.action
        · exact ho.view
    | asking enters w begins => exact enters.view_eq ▸ ho.view
    | done enters v result begins => exact ho.view.begin_ended begins
    | answered j mem w stage respond => exact ho.view.finish (h.shown mem stage) _
  selected := by
    intro k hk hcell
    apply c.eventId_ne_none
    rcases c.action_of_mem hk with ⟨j, hj, -, haction⟩ | ⟨-, hearly⟩
    · exact ho.selected j hj (haction ▸ hcell)
    · exact ho.view.eventId_ne_none hcell hearly

/-- Every run keeps a board orderly. -/
theorem run (ho : b.Orderly) (h : b.InStep s) (es : List Event) : (b.run es).Orderly := by
  induction es generalizing b s with
  | nil => exact ho
  | cons e es ih => exact ih (ho.change h (h.change e)) (h.step e)

/-- What ends for want of an event is a refresh, or has heard so from the backend. -/
theorem of_noEvent (ho : b.Orderly) (c : b.Change b' reply es x)
    (hreply : reply = some (.ended (.error .noEvent))) :
    ∃ y, x = some y ∧ (y.action.onCell →
      ∃ w respond, y.asked = some (w, respond) ∧ respond w.request = .error .noEvent) := by
  cases c with
  | idle reply es still told quiet =>
      rcases told _ hreply with ⟨a, hearly⟩
      exact absurd hearly (a.early?_ne_noEvent b.view)
  | outside e strange => simp at hreply
  | queued now a early => simp at hreply
  | gone j mem e about v reply fate =>
      rcases fate with ⟨-, hgate⟩ | ⟨-, hnone⟩
      · simp [hgate] at hreply
      · simp [hnone] at hreply
  | asking enters w begins => simp at hreply
  | done enters v result begins =>
      obtain rfl : result = .error .noEvent := by simpa using hreply
      refine ⟨_, rfl, fun hcell => ?_⟩
      exact absurd rfl (Action.begin_ne_noEvent (ho.eventId_ne_none enters hcell) begins)
  | answered j mem w stage respond =>
      have hfinish : (w.finish (respond w.request) b.view).2 = .error .noEvent := by
        simpa using hreply
      exact ⟨_, rfl, fun _ => ⟨w, respond, rfl, Await.answer_eq_of_finish hfinish⟩⟩

end Orderly

/-- A body is that of the action of its event, and what it has asked is answered by it. -/
theorem of_body? {e : Event} {y : Body} (h : b.body? e = some y) :
    b.caller? e = some y.action ∧
      ∀ w respond, y.asked = some (w, respond) →
        ∃ id, e = .answer id respond ∧ b.request? id = some w.request := by
  have hover : ∀ {ticket action asked} {advance : Advance},
      advance.body? ticket action asked = some y → y.action = action ∧ y.asked = asked := by
    intro ticket action asked advance hbody
    cases advance with
    | ended result =>
        obtain rfl := Option.some.inj hbody
        exact ⟨rfl, rfl⟩
    | waiting job => simp [Advance.body?] at hbody
    | asking job request => simp [Advance.body?] at hbody
  cases e with
  | start now a =>
      simp only [body?] at h
      split at h
      · rcases hover h with ⟨rfl, hasked⟩
        exact ⟨rfl, by simp [hasked]⟩
      · simp at h
  | resume now job =>
      simp only [body?] at h
      split at h
      · rename_i hjob
        split at h
        · rcases hover h with ⟨rfl, hasked⟩
          exact ⟨by simp [caller?, hjob], by simp [hasked]⟩
        · simp at h
      · simp at h
  | answer job respond =>
      simp only [body?] at h
      split at h
      · rename_i hjob
        rcases hover h with ⟨rfl, hasked⟩
        refine ⟨by simp [caller?, hjob], fun w' respond' hsome => ?_⟩
        obtain ⟨rfl, rfl⟩ : _ = w' ∧ respond = respond' := by
          simpa [hasked] using hsome
        exact ⟨job, rfl, by simp [request?, hjob]⟩
      · simp at h
  | cancel job => simp [body?] at h
  | outside e => simp [body?] at h

/-- In every run of a new board the view is sound, and an event that is selected stays so;
and an action on a cell fails for want of an event only if a backend says so, which
neither a store nor a service at the other end of a wire does. -/
theorem sound_run (hnew : b.IsNew) (es : List Event) :
    (b.run es).view.Sound ∧
      (∀ more, (b.run es).view.eventId ≠ none → (b.run (es ++ more)).view.eventId ≠ none) ∧
      (∀ e a, (b.run es).caller? e = some a → a.onCell →
        ((b.run es).step e).2 = some (.ended (.error .noEvent)) →
        ∃ id respond r, e = .answer id respond ∧ (b.run es).request? id = some r ∧
          respond r = .error .noEvent) ∧
      ∀ (backend : Backend) r, (backend.finish r).2 ≠ .error .noEvent := by
  have h := hnew.inStep.run es
  have ho := hnew.orderly.run hnew.inStep es
  refine ⟨ho.view, ?_, ?_, ?_⟩
  · intro more hevent
    rw [run_append]
    exact h.eventId_ne_none_run hevent more
  · intro e a hcaller hcell hreply
    rcases ho.of_noEvent (h.change e) hreply with ⟨y, hbody, hasked⟩
    rcases of_body? hbody with ⟨haction, hanswer⟩
    obtain rfl : y.action = a := Option.some.inj (haction.symm.trans hcaller)
    rcases hasked hcell with ⟨w, respond, hsome, herror⟩
    rcases hanswer w respond hsome with ⟨id, he, hrequest⟩
    exact ⟨id, respond, w.request, he, hrequest, herror⟩
  · intro backend r herror
    rcases backend.error_of_finish herror with ⟨reason, he⟩ | ⟨fault, he⟩
    · simp at he
    · simp at he

/-- A backend that answers every request: with the same awards, and with the same notes. -/
def answeringAll (data : AwardsData) (notes : String) : Responder
  | .fetchAwards .. => .ok data
  | .setPickedUp _ _ was => .ok { pickedUp := !was }
  | .fetchNotes .. => .ok notes
  | .saveNotes _ _ text => .ok text

/-- The place of {lit}`openDivision` is laid out, and the note editor is opened over it. -/
def openingNote : List Event :=
  let respond := answeringAll { divisions := some [[some openDivision]], awards := [openAward] } ""
  [.start 0 .refresh, .answer 0 respond, .start 0 (.openNote openAward.key), .answer 1 respond]

/-- A configured board that has opened the note editor has a sound view. -/
theorem sound_opened_note :
    let b : Board :=
      { gate := { name := defaultGateName, options := {} }, view := { eventId := some 1 } }
    ofConfig { eventId := some 1 } = .ok b ∧
      (b.run openingNote).view.noteEditor = some { cell := openAward.key, text := "" } ∧
      (b.run openingNote).view.Sound := by
  intro b
  have hmade : ofConfig { eventId := some 1 } = .ok b := rfl
  have hopen : (b.run openingNote).view.noteEditor = some { cell := openAward.key, text := "" } := by
    decide +kernel
  have hsound := sound_run (.configured _ b hmade) openingNote
  exact ⟨hmade, hopen, hsound.1⟩

deriving instance DecidableEq for Advance

/-- A backend that does not know the event it is asked about. -/
def missingEvent : Responder :=
  fun _ => .error .noEvent

/-- The place of {lit}`openDivision` is laid out, and its award is toggled. -/
def togglingOpen : List Event :=
  openingNote.take 2 ++ [.start 0 (.toggle openAward.key)]

/-- A toggle fails for want of an event although one is selected, if the backend answers so: the
board passes on the failure of a backend as it is. -/
theorem toggle_misses_event :
    let b : Board :=
      { gate := { name := defaultGateName, options := {} }, view := { eventId := some 1 } }
    ofConfig { eventId := some 1 } = .ok b ∧ (b.run togglingOpen).view.eventId = some 1 ∧
      (b.run togglingOpen).caller? (.answer 1 missingEvent) = some (.toggle openAward.key) ∧
      ((b.run togglingOpen).step (.answer 1 missingEvent)).2 = some (.ended (.error .noEvent)) ∧
      ¬ ∀ e a, (b.run togglingOpen).caller? e = some a → a.onCell →
        ((b.run togglingOpen).step e).2 ≠ some (.ended (.error .noEvent)) := by
  intro b
  have hcaller : (b.run togglingOpen).caller? (.answer 1 missingEvent) =
      some (.toggle openAward.key) := by
    decide +kernel
  have hreply : ((b.run togglingOpen).step (.answer 1 missingEvent)).2 =
      some (.ended (.error .noEvent)) := by
    decide +kernel
  refine ⟨rfl, by decide +kernel, hcaller, hreply, fun hnever => ?_⟩
  exact hnever (.answer 1 missingEvent) (.toggle openAward.key) hcaller rfl hreply

end Board
end AwardsDesk
