import DiskKeys.Yaml.Event

/-! # Documents

    The nodes of the first document of a text, in order, with the fault
    that ended it early, if any.  Anchors are numbered, and an alias is the
    number of its anchor.  A number is given out by counting the names that
    are known, so a name that is used twice makes the next new name share
    its number; then the later node counts for both. -/

namespace DiskKeys.Yaml

/-- A node, or the start or end of one. -/
inductive Node where
  /-- Stands for the node whose anchor has a number. -/
  | aliasOf (number : Nat)
  | scalar (scalar : Scalar)
  | sequenceStart
  | sequenceEnd
  | mappingStart
  | mappingEnd
  /-- The only node of a text without documents. -/
  | nothing
  deriving DecidableEq, Repr

/-- The first document of a text. -/
structure Document where
  nodes : Array (Node × Mark)
  /-- The positions of anchored nodes by number, last first. -/
  anchored : List (Nat × Nat)
  fault : Option Fault
  /-- Whether there is anything behind the document. -/
  hasMore : Bool

/-- The anchors that have been seen: their names with their numbers, last
    first. -/
structure Anchors where
  numbers : List (List Char × Nat)
  anchored : List (Nat × Nat)
  /-- How many different names there are. -/
  count : Nat

namespace Anchors

/-- No anchors yet. -/
def empty : Anchors := ⟨[], [], 0⟩

/-- Notes the anchor of the node at a position. -/
def note (a : Anchors) (position : Nat) : Option (List Char) → Anchors
  | some name =>
      let count := if (a.numbers.lookup name).isSome then a.count else a.count + 1
      ⟨(name, a.count) :: a.numbers, (a.count, position) :: a.anchored, count⟩
  | none => a

end Anchors

namespace Document

/-- Turns events into nodes, up to an alias without anchor. -/
def nodesOf : List (Event × Mark) → Array (Node × Mark) → Anchors →
    Array (Node × Mark) × Anchors × Option Fault
  | [], nodes, anchors => (nodes, anchors, none)
  | (event, mark) :: rest, nodes, anchors =>
      let add (node : Node) (anchor : Option (List Char)) :=
        let anchors := anchors.note nodes.size anchor
        nodesOf rest (nodes.push (node, mark)) anchors
      match event with
      | .aliasOf name =>
          match anchors.numbers.lookup name with
          | some number => add (.aliasOf number) none
          | none => (nodes, anchors, some ⟨.unknownAnchor, mark, none⟩)
      | .scalar anchor scalar => add (.scalar scalar) anchor
      | .sequenceStart anchor => add .sequenceStart anchor
      | .sequenceEnd => add .sequenceEnd none
      | .mappingStart anchor => add .mappingStart anchor
      | .mappingEnd => add .mappingEnd none

/-- The first document of a source. -/
def ofSource (source : Source) : Document :=
  let fuel := EventReader.fuelFor source
  let (found, reader) := (EventReader.readFirst fuel).run (.ofSource source)
  let (nodes, anchors, lost) := nodesOf reader.events.toList #[] .empty
  match lost, found with
  | some fault, _ => ⟨nodes, anchors.anchored, some fault, false⟩
  | none, .error fault => ⟨nodes, anchors.anchored, some fault, false⟩
  | none, .ok false => ⟨#[(.nothing, .start)], [], none, false⟩
  | none, .ok true =>
      let more := match ((EventReader.hasMore fuel).run reader).1 with
        | .ok more => more
        | .error _ => true
      ⟨nodes, anchors.anchored, none, more⟩

/-- The first document of a text. -/
def ofText (text : String) : Document :=
  ofSource (.ofText text)

end Document

end DiskKeys.Yaml
