import AwardsDesk.Board.Basic
import AwardsDesk.Proofs.Json.Given
import AwardsDesk.Proofs.Json.Written
import Mathlib.Data.List.Nodup

/-!
# Boards as configured

A document of settings is an object that holds some of them, in any order and among other members.
The settings are the usual ones, but for those that are given, and they are judged by the same
rules wherever they are used.

Main definitions:

- Structure {lit}`Config.Given`: some of the settings, with the configuration that they make.
- Definition {lit}`Config.Repeats`: a document gives a known field more than once.
- Inductive type {lit}`Config.Judged`: the verdict on a configuration.

Main results:

- Theorems {lit}`Gate.Options.describes` and {lit}`Board.Config.describes`: what it takes for
  options and configurations to become others.
- Theorem {lit}`Board.Config.Given.ofText_of_recordOf`: what an object of settings is taken for.
- Theorem {lit}`Board.Config.ofText_of_repeats`: documents that repeat a field are refused.
- Theorem {lit}`Board.ofConfig_eq`: boards are made of just the configurations that are accepted.
- Theorem {lit}`Board.configured`: all of this about documents, configurations and boards.
-/

namespace AwardsDesk

open Json

/-! ## Gate options -/

namespace Gate
namespace Options

/-- What it takes for gate options to become others. -/
def entries (s o : Options) : List (Entry Tree) :=
  [.spare "timeout_ms" (Tree.IsUInt64 o.timeoutMs) (o.timeoutMs = s.timeoutMs)]

/-- Gate options are described by their timeout. -/
theorem describes : Settings.Describes settings entries where
  names := fun _ _ => rfl
  nodup := by decide
  same := by
    rintro ⟨s⟩ ⟨c⟩
    simp [entries, Entry.spare]
  shaped := by
    rintro st hst t s s' hput
    obtain rfl := List.mem_singleton.1 hst
    rcases map_eq_ok_iff.1 hput with ⟨n, hn, -⟩
    exact (Tree.uint64_eq_ok_iff.1 hn).wellShaped
  put := by
    rintro st hst
    obtain rfl := List.mem_singleton.1 hst
    exact Settings.put_iff 0 timeoutMs (fun _ _ => rfl) (fun _ _ => Tree.uint64_eq_ok_iff)
      (fun _ _ => rfl) (fun _ _ => rfl) (fun _ _ _ => rfl) (by simp [entries])

/-- A tree gives gate options. -/
def GivenBy (o : Options) (t : Tree) : Prop :=
  ∃ found, t.Gives ["timeout_ms"] found ∧ Filled (entries {} o) found

/-- Gate options are read from just the trees that give them. -/
theorem ofTree_eq_ok_iff {t : Tree} {o : Options} : ofTree t = .ok o ↔ o.GivenBy t :=
  describes.read_eq_ok_iff

/-- What gives gate options has no flaw. -/
theorem GivenBy.wellShaped {t : Tree} {o : Options} (h : o.GivenBy t) : t.wellShaped = true := by
  rcases h with ⟨found, hgives, -⟩
  exact hgives.wellShaped

end Options
end Gate

/-! ## Configurations -/

namespace Board
namespace Config

/-- What it takes for a configuration to become another. -/
def entries (s c : Config) : List (Entry Tree) :=
  [.spare "event_id" (Tree.OrNull Tree.IsUInt64 c.eventId) (c.eventId = s.eventId),
    .spare "poll_period_secs" (Tree.IsUInt64 c.pollPeriodSecs)
      (c.pollPeriodSecs = s.pollPeriodSecs),
    .spare "gate_name" (Tree.IsText c.gateName) (c.gateName = s.gateName),
    .spare "gate" c.gate.GivenBy (c.gate = s.gate)]

/-- The event of a configuration is read. -/
theorem eventId_eq_ok_iff (t : Tree) (e : Option UInt64) :
    t.orNull Tree.uint64 = .ok e ↔ Tree.OrNull Tree.IsUInt64 e t :=
  Tree.orNull_eq_ok_iff (fun _ => Tree.uint64_eq_ok_iff) (by simp [Tree.IsUInt64])

/-- Configurations are described by their four fields. -/
theorem describes : Settings.Describes settings entries where
  names := fun _ _ => rfl
  nodup := by decide
  same := by
    rintro ⟨e, p, n, g⟩ ⟨e', p', n', g'⟩
    simp [entries, Entry.spare]
  shaped := by
    intro st hst t s s' hput
    simp only [settings, List.mem_cons, List.not_mem_nil, or_false] at hst
    rcases hst with rfl | rfl | rfl | rfl <;> rcases map_eq_ok_iff.1 hput with ⟨a, ha, -⟩
    · rw [eventId_eq_ok_iff] at ha
      cases a with
      | none =>
          rw [show t = .null from ha]
          rfl
      | some u => exact Tree.IsUInt64.wellShaped ha
    · exact (Tree.uint64_eq_ok_iff.1 ha).wellShaped
    · exact (Tree.text_eq_ok_iff.1 ha).wellShaped
    · exact (Gate.Options.ofTree_eq_ok_iff.1 ha).wellShaped
  put := by
    intro st hst
    simp only [settings, List.mem_cons, List.not_mem_nil, or_false] at hst
    rcases hst with rfl | rfl | rfl | rfl
    · exact Settings.put_iff 0 eventId (fun _ _ => rfl) eventId_eq_ok_iff
        (fun _ _ => rfl) (fun _ _ => rfl) (fun _ _ _ => rfl) (by simp [entries, Entry.spare])
    · exact Settings.put_iff 1 pollPeriodSecs (fun _ _ => rfl) (fun _ _ => Tree.uint64_eq_ok_iff)
        (fun _ _ => rfl) (fun _ _ => rfl) (fun _ _ _ => rfl) (by simp [entries, Entry.spare])
    · exact Settings.put_iff 2 gateName (fun _ _ => rfl) (fun _ _ => Tree.text_eq_ok_iff)
        (fun _ _ => rfl) (fun _ _ => rfl) (fun _ _ _ => rfl) (by simp [entries, Entry.spare])
    · exact Settings.put_iff 3 gate (fun _ _ => rfl) (fun _ _ => Gate.Options.ofTree_eq_ok_iff)
        (fun _ _ => rfl) (fun _ _ => rfl) (fun _ _ _ => rfl) (by simp [entries, Entry.spare])

/-! ## Settings that are given -/

/-- Some of the settings: each is given or not, and with the options of the gate some of these. -/
structure Given where
  eventId : Option (Option UInt64) := none
  pollPeriodSecs : Option UInt64 := none
  gateName : Option String := none
  gate : Option (Option UInt64) := none

namespace Given

/-- The usual options with the timeout that is given, if one is. -/
def options (timeout : Option UInt64) : Gate.Options where
  timeoutMs := timeout.elim Gate.defaultTimeoutMs id

/-- The usual configuration with just the given settings replaced. -/
def config (g : Given) : Config where
  eventId := g.eventId.elim none id
  pollPeriodSecs := g.pollPeriodSecs.elim defaultPollPeriodSecs id
  gateName := g.gateName.elim defaultGateName id
  gate := g.gate.elim {} options

/-- The fields of an object that gives a timeout or none. -/
def gateEntries (timeout : Option UInt64) : List (Entry Tree) :=
  [.chosen "timeout_ms" timeout Tree.IsUInt64]

/-- The fields of an object that gives the settings. -/
def entries (g : Given) : List (Entry Tree) :=
  [.chosen "event_id" g.eventId (Tree.OrNull Tree.IsUInt64),
    .chosen "poll_period_secs" g.pollPeriodSecs Tree.IsUInt64,
    .chosen "gate_name" g.gateName Tree.IsText,
    .chosen "gate" g.gate fun timeout t => t.RecordOf (gateEntries timeout)]

/-- An object of settings gives the options that it makes. -/
theorem givenBy_of_recordOf {timeout : Option UInt64} {t : Tree}
    (h : t.RecordOf (gateEntries timeout)) (hshape : t.wellShaped = true) :
    (options timeout).GivenBy t := by
  rcases h.gives hshape with ⟨found, hgives, hfilled, -⟩
  rw [Filled, gateEntries, List.forall_mem_singleton] at hfilled
  refine ⟨found, hgives, List.forall_mem_singleton.2 ?_⟩
  exact hfilled.spare fun _ _ _ hu => hu

/-- An object of settings gives the configuration that it makes. -/
theorem ofText_of_recordOf {g : Given} {t : Tree} {text : String} (ht : t.SpelledBy text)
    (h : t.RecordOf g.entries) : Settings.ofText settings {} text = .ok g.config := by
  rcases h.gives ht.wellShaped with ⟨found, hgives, hfilled, hshape⟩
  refine describes.ofText_eq_ok_iff.2 ⟨t, ht, found, hgives, ?_⟩
  simp only [Filled, entries, List.forall_mem_cons] at hfilled
  rcases hfilled with ⟨hevent, hperiod, hname, hgate, -⟩
  simp only [Filled, Config.entries, List.forall_mem_cons]
  refine ⟨?_, ?_, ?_, ?_, by simp⟩
  · exact hevent.spare fun _ _ _ hu => hu
  · exact hperiod.spare fun _ _ _ hu => hu
  · exact hname.spare fun _ _ _ hu => hu
  · exact hgate.spare fun timeout u hu hrecord =>
      givenBy_of_recordOf hrecord (hshape "gate" u hu)

end Given

/-! ## Configurations as they are written -/

/-- A configuration as it is written, with its members as they are declared. -/
def written (c : Config) : Value :=
  .record [("event_id", c.eventId.elim .null fun e => .ofNat e.toNat),
    ("poll_period_secs", .ofNat c.pollPeriodSecs.toNat),
    ("gate_name", .str c.gateName),
    ("gate", .record [("timeout_ms", .ofNat c.gate.timeoutMs.toNat)])]

/-- A configuration is written with numbers of 64 bits only, as an object with one inside. -/
theorem plain_written (c : Config) : c.written.Plain 2 := by
  have hnumber : ∀ room, ∀ n : UInt64, (Value.ofNat n.toNat).Plain room := fun room n =>
    .nat room n.toNat_lt
  have hevent : (c.eventId.elim .null fun e => .ofNat e.toNat : Value).Plain 1 := by
    cases c.eventId with
    | none => exact .null 1
    | some e => exact hnumber 1 e
  have hgate : (Value.record [("timeout_ms", .ofNat c.gate.timeoutMs.toNat)]).Plain 1 :=
    .record (by simp [hnumber])
  exact .record (by simp [hevent, hnumber, hgate, Value.Plain.str])

/-- A number of 64 bits as it is written. -/
theorem isUInt64_tree_ofNat (n : UInt64) : Tree.IsUInt64 n (Value.ofNat n.toNat).tree :=
  ⟨_, rfl, Numeral.isNat_ofNat n.toNat⟩

/-- All settings of a configuration. -/
def all (c : Config) : Given where
  eventId := some c.eventId
  pollPeriodSecs := some c.pollPeriodSecs
  gateName := some c.gateName
  gate := some (some c.gate.timeoutMs)

/-- A configuration as it is written gives all its settings. -/
theorem recordOf_written (c : Config) : c.written.tree.RecordOf c.all.entries := by
  have hevent : Tree.OrNull Tree.IsUInt64 c.eventId
      (c.eventId.elim .null fun e => .ofNat e.toNat : Value).tree := by
    cases c.eventId with
    | none => rfl
    | some e => exact isUInt64_tree_ofNat e
  have hgate : (Value.record [("timeout_ms", .ofNat c.gate.timeoutMs.toNat)]).tree.RecordOf
      (Given.gateEntries (some c.gate.timeoutMs)) := by
    refine ⟨_, rfl, by simp [Value.memberTrees], by
      simp [Value.memberTrees, Given.gateEntries, Entry.chosen], ?_⟩
    exact List.forall_mem_singleton.2 ⟨_, rfl, isUInt64_tree_ofNat c.gate.timeoutMs⟩
  refine ⟨_, rfl, by simp [Value.memberTrees], fun p _ =>
    List.nodup_iff_count_le_one.1 (by simp [Value.memberTrees]) _, ?_⟩
  simp only [Filled, Given.entries, List.forall_mem_cons]
  exact ⟨⟨_, rfl, hevent⟩, ⟨_, rfl, isUInt64_tree_ofNat c.pollPeriodSecs⟩, ⟨_, rfl, rfl⟩,
    ⟨_, rfl, hgate⟩, by simp⟩

/-! ## Verdicts -/

/-- The verdict on a configuration: it is accepted, or the first of its faults is reported. -/
inductive Judged (c : Config) : Except Board.Error Config → Prop where
  | accepted (period : 0 < c.pollPeriodSecs) (name : c.gateName ≠ "")
      (timeout : 0 < c.gate.timeoutMs) : Judged c (.ok c)
  | zeroPeriod (period : c.pollPeriodSecs = 0) : Judged c (.error (.config .zeroPeriod))
  | emptyGateName (period : 0 < c.pollPeriodSecs) (name : c.gateName = "") :
      Judged c (.error (.config .emptyGateName))
  | zeroTimeout (period : 0 < c.pollPeriodSecs) (name : c.gateName ≠ "")
      (timeout : c.gate.timeoutMs = 0) :
      Judged c (.error (.config (.gate (.invalidOptions .zeroTimeout))))

/-- Configurations are judged by validation. -/
theorem judged_validate (c : Config) : c.Judged (c.validate.map fun _ => c) := by
  unfold validate
  split_ifs with hperiod hname
  · exact .zeroPeriod hperiod
  · exact .emptyGateName (UInt64.pos_iff_ne_zero.2 hperiod) hname
  · unfold Gate.Options.validate
    split_ifs with husable
    · exact .accepted (UInt64.pos_iff_ne_zero.2 hperiod) hname (UInt64.pos_iff_ne_zero.2 husable)
    · exact .zeroTimeout (UInt64.pos_iff_ne_zero.2 hperiod) hname (not_not.1 husable)

/-- What is read is judged. -/
theorem ofText_eq {text : String} {c : Config} (h : Settings.ofText settings {} text = .ok c) :
    ofText text = c.validate.map fun _ => c := by
  rw [ofText, h]
  cases hvalid : c.validate <;>
    simp [hvalid, Except.mapError, Except.map, bind, Except.bind, pure, Except.pure]

/-! ## Fields that are repeated -/

/-- What a document gives for the gate: the member of that name, or the last of four items. -/
inductive GateOf : Tree → Tree → Prop where
  | member {members : List (Option String × Tree)} {whole : Bool} {u : Tree}
      (mem : (some "gate", u) ∈ members) : GateOf (.record members whole) u
  | item {items : List Tree} {whole : Bool} {u : Tree} (get : items[3]? = some u) :
      GateOf (.list items whole) u

/-- What a document gives for the gate is found under its name. -/
theorem GateOf.found_eq {t u : Tree} (h : GateOf t u) {found : String → Option Tree}
    (hgives : t.Gives (settings.map Setting.name) found) : found "gate" = some u := by
  cases h with
  | member mem =>
      rcases hgives with ⟨-, -, hcount, rfl⟩
      exact lookup_of_count mem (hcount "gate" (by simp [settings]))
  | @item items whole u get =>
      rcases hgives with ⟨-, -, -, rfl⟩
      rcases items with _ | ⟨a, _ | ⟨b, _ | ⟨c, _ | ⟨d, items⟩⟩⟩⟩ <;> cases get
      rfl

/-- A document gives a known field more than once. -/
def Repeats (t : Tree) : Prop :=
  t.Repeats (settings.map Setting.name) ∨
    ∃ u, GateOf t u ∧ u.Repeats (Gate.Options.settings.map Setting.name)

/-- A document that repeats a known field is refused. -/
theorem ofText_of_repeats {t : Tree} {text : String} (ht : t.SpelledBy text) (h : Repeats t) :
    ∃ fault, ofText text = .error (.config (.document fault)) := by
  cases hread : Settings.ofText settings {} text with
  | error fault =>
      refine ⟨fault, ?_⟩
      rw [ofText, hread]
      rfl
  | ok c =>
      rcases describes.ofText_eq_ok_iff.1 hread with ⟨t', ht', found, hgives, hfilled⟩
      obtain rfl := ht.unique ht'
      rcases h with hrepeats | ⟨u, hu, hrepeats⟩
      · exact absurd hrepeats hgives.not_repeats
      · have hgate : (Entry.spare "gate" c.gate.GivenBy (c.gate = {})).Holds (found "gate") :=
          hfilled _ (by simp [entries])
        rw [hu.found_eq hgives] at hgate
        rcases hgate with ⟨found', hgives', -⟩
        exact absurd hrepeats hgives'.not_repeats

end Config

/-! ## Boards -/

/-- Boards are made of just the configurations that are accepted. -/
theorem ofConfig_eq (c : Config) : ofConfig c = c.validate.map fun _ =>
    { gate := { name := c.gateName, options := c.gate }, view := { eventId := c.eventId } } := by
  unfold ofConfig Config.validate Gate.make
  split_ifs
  · rfl
  · rfl
  · cases c.gate.validate <;> rfl

/-- A configuration that is written is read back if it is valid, and otherwise refused for what is
wrong with it.  An object of settings, in any order and among other members, is taken for the usual
configuration with the given settings replaced.  No document that repeats a known field is
accepted.  Boards are made of valid configurations, and no others. -/
theorem configured :
    (∀ c : Config, c.Judged (c.validate.map fun _ => c)) ∧
    (∀ c : Config, Config.ofText c.written.render = c.validate.map fun _ => c) ∧
    (∀ (text : String) (t : Tree) (g : Config.Given), t.SpelledBy text → t.RecordOf g.entries →
      Config.ofText text = g.config.validate.map fun _ => g.config) ∧
    (∀ (text : String) (t : Tree), t.SpelledBy text → Config.Repeats t →
      ∃ fault, Config.ofText text = .error (.config (.document fault))) ∧
    ∀ c : Config, (ofConfig c = c.validate.map fun _ =>
        { gate := { name := c.gateName, options := c.gate }, view := { eventId := c.eventId } }) ∧
      ∀ e, ofConfig c ≠ .error (.gate e) := by
  have hgiven : ∀ (text : String) (t : Tree) (g : Config.Given), t.SpelledBy text →
      t.RecordOf g.entries → Config.ofText text = g.config.validate.map fun _ => g.config :=
    fun text t g ht h => Config.ofText_eq (Config.Given.ofText_of_recordOf ht h)
  refine ⟨Config.judged_validate, fun c => ?_, hgiven, fun _ _ => Config.ofText_of_repeats,
    fun c => ⟨ofConfig_eq c, fun e he => ?_⟩⟩
  · exact hgiven _ _ c.all c.plain_written.spelledBy_render c.recordOf_written
  · rw [ofConfig_eq] at he
    have hjudged := c.judged_validate
    cases hvalid : c.validate with
    | ok u =>
        rw [hvalid] at he
        cases he
    | error e' =>
        rw [hvalid] at he hjudged
        cases he
        cases hjudged

/-- An object that gives the timeout of the gate and then an event, with another member between,
and one that gives the timeout twice. -/
theorem configured_by_gate_first :
    Config.ofText
        "\x7b\"gate\": \x7b\"timeout_ms\": 250\x7d, \"more\": [1], \"event_id\": 12\x7d" =
      .ok { eventId := some 12, gate := { timeoutMs := 250 } } ∧
    ∃ fault, Config.ofText
        "\x7b\"gate\": \x7b\"timeout_ms\": 250, \"timeout_ms\": 250\x7d\x7d" =
      .error (.config (.document fault)) := by
  have hdocument : Document.ofText
      "\x7b\"gate\": \x7b\"timeout_ms\": 250\x7d, \"more\": [1], \"event_id\": 12\x7d" =
        { root := .record
            [(some "gate", .record [(some "timeout_ms", .num { whole := ['2', '5', '0'] })] true),
              (some "more", .list [.num { whole := ['1'] }] true),
              (some "event_id", .num { whole := ['1', '2'] })] true } := by rfl
  have htwice : Document.ofText
      "\x7b\"gate\": \x7b\"timeout_ms\": 250, \"timeout_ms\": 250\x7d\x7d" =
        { root := .record
            [(some "gate", .record
              [(some "timeout_ms", .num { whole := ['2', '5', '0'] }),
                (some "timeout_ms", .num { whole := ['2', '5', '0'] })] true)] true } := by rfl
  have hspelled := (Document.ofText_eq_iff rfl).1 hdocument
  have hspelledTwice := (Document.ofText_eq_iff rfl).1 htwice
  constructor
  · refine (configured.2.2.1 _ _ { eventId := some (some 12), gate := some (some 250) } hspelled
      ⟨_, rfl, by simp, fun p _ => List.nodup_iff_count_le_one.1 (by simp) _, ?_⟩).trans rfl
    simp only [Filled, Config.Given.entries, List.forall_mem_cons]
    refine ⟨⟨_, rfl, _, rfl, rfl, rfl, rfl, rfl⟩, rfl, rfl, ⟨_, rfl, _, rfl, by simp, ?_, ?_⟩,
      by simp⟩
    · simp [Config.Given.gateEntries, Entry.chosen]
    · exact List.forall_mem_singleton.2 ⟨_, rfl, _, rfl, rfl, rfl, rfl, rfl⟩
  · refine configured.2.2.2.1 _ _ hspelledTwice (.inr ⟨_, .member List.mem_cons_self, ?_⟩)
    exact ⟨"timeout_ms", List.mem_cons_self, by decide⟩

end Board

end AwardsDesk
