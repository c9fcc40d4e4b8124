import AwardsDesk.Json.Schema

/-!
# Awards, divisions and notes as they are sent

What the results service sends: the divisions of an event and who holds their
awards, the state of an award after it was handed out or taken back, and the notes
about an awardee.  Each structure has a schema by which it is read, and is written
as a record.

Main definitions:

- Structures {lit}`Division`, {lit}`Award`, {lit}`AwardsData` and
  {lit}`PickupStatus`, each with {lit}`schema`, {lit}`members` and {lit}`toValue`.
-/

namespace AwardsDesk

open Json

/-- A division in which awards are given. -/
structure Division where
  divId : UInt64
  rsuDivId : UInt64
  name : String
  numAwards : UInt32
  shname : Option String := none
  prio : Option UInt32 := none
  gender : Option String := none
  min : Option UInt32 := none
  max : Option UInt32 := none
deriving DecidableEq, Repr, Inhabited

/-- The holder of one award. -/
structure Award where
  awardeeId : UInt64
  divId : UInt64
  rsuDivId : UInt64
  place : UInt32
  name : String
  bib : String
  pickedUp : Bool
  prevPickedUp : Bool
  notes : Option String := none
deriving DecidableEq, Repr, Inhabited

/-- The awards of an event.  Divisions are there only when asked for; a row has one
entry for each gender. -/
structure AwardsData where
  divisions : Option (List (List (Option Division))) := none
  awards : List Award := []
deriving DecidableEq, Repr, Inhabited

/-- The state of an award: whether its holder has it, and whether the former holder
has it still. -/
structure PickupStatus where
  pickedUp : Bool := false
  prevPickedUp : Bool := false
deriving DecidableEq, Repr, Inhabited

/-! ## Members that may be left out -/

/-- A member that is written only if there is something to write. -/
def Json.Members.ofOption {α : Type} (key : String) (write : α → Value) :
    Option α → List (String × Value)
  | some a => [(key, write a)]
  | none => []

namespace Division

/-- How a division is read. -/
def schema : Schema Division :=
  (Schema.const Division.mk)
    |>.field "div_id" Reader.uint64
    |>.field "rsu_div_id" Reader.uint64
    |>.field "name" Reader.text
    |>.field "num_awards" Reader.uint32
    |>.optional "shname" (Reader.orNull Reader.text) none
    |>.optional "prio" (Reader.orNull Reader.uint32) none
    |>.optional "gen" (Reader.orNull Reader.text) none
    |>.optional "min" (Reader.orNull Reader.uint32) none
    |>.optional "max" (Reader.orNull Reader.uint32) none

/-- The members of a division, as they are written; what is absent is left out. -/
def members (d : Division) : List (String × Value) :=
  [("div_id", .ofNat d.divId.toNat), ("rsu_div_id", .ofNat d.rsuDivId.toNat),
    ("name", .str d.name), ("num_awards", .ofNat d.numAwards.toNat)] ++
  Members.ofOption "shname" .str d.shname ++
  Members.ofOption "prio" (fun n => .ofNat n.toNat) d.prio ++
  Members.ofOption "gen" .str d.gender ++
  Members.ofOption "min" (fun n => .ofNat n.toNat) d.min ++
  Members.ofOption "max" (fun n => .ofNat n.toNat) d.max

/-- A division as a record. -/
def toValue (d : Division) : Value :=
  .ofMembers d.members

end Division

namespace Award

/-- How an award is read. -/
def schema : Schema Award :=
  (Schema.const Award.mk)
    |>.field "awardee_id" Reader.uint64
    |>.field "div_id" Reader.uint64
    |>.field "rsu_div_id" Reader.uint64
    |>.field "place" Reader.uint32
    |>.field "name" Reader.text
    |>.field "bib" Reader.text
    |>.field "picked_up" Reader.bool
    |>.field "prev_picked_up" Reader.bool
    |>.optional "notes" (Reader.orNull Reader.text) none

/-- The members of an award, as they are written; absent notes are null. -/
def members (a : Award) : List (String × Value) :=
  [("awardee_id", .ofNat a.awardeeId.toNat), ("div_id", .ofNat a.divId.toNat),
    ("rsu_div_id", .ofNat a.rsuDivId.toNat), ("place", .ofNat a.place.toNat),
    ("name", .str a.name), ("bib", .str a.bib), ("picked_up", .bool a.pickedUp),
    ("prev_picked_up", .bool a.prevPickedUp),
    ("notes", a.notes.elim .null .str)]

/-- An award as a record. -/
def toValue (a : Award) : Value :=
  .ofMembers a.members

end Award

namespace AwardsData

/-- How the awards of an event are read. -/
def schema : Schema AwardsData :=
  (Schema.const AwardsData.mk)
    |>.optional "divisions"
      (Reader.orNull (Reader.listOf (Reader.listOf (Reader.orNull Division.schema.read)))) none
    |>.optional "awards" (Reader.listOf Award.schema.read) []

/-- The members of the awards of an event, with divisions and awards written in a given way;
divisions are left out when absent. -/
def members (division : Division → Value) (award : Award → Value) (d : AwardsData) :
    List (String × Value) :=
  Members.ofOption "divisions"
    (fun rows => .list (rows.map fun row =>
      .list (row.map fun entry => entry.elim .null division))) d.divisions ++
  [("awards", .list (d.awards.map award))]

/-- The awards of an event as a record. -/
def toValue (d : AwardsData) : Value :=
  .ofMembers (d.members Division.toValue Award.toValue)

end AwardsData

namespace PickupStatus

/-- How the state of an award is read. -/
def schema : Schema PickupStatus :=
  (Schema.const PickupStatus.mk)
    |>.field "picked_up" Reader.bool
    |>.optional "prev_picked_up" Reader.bool false

/-- The members of the state of an award, as they are written. -/
def members (s : PickupStatus) : List (String × Value) :=
  [("picked_up", .bool s.pickedUp), ("prev_picked_up", .bool s.prevPickedUp)]

/-- The state of an award as a record. -/
def toValue (s : PickupStatus) : Value :=
  .ofMembers s.members

end PickupStatus

/-- How notes are read. -/
def notesSchema : Schema String :=
  (Schema.const id) |>.optional "notes" Reader.text ""

end AwardsDesk
