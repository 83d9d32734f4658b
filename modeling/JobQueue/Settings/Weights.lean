import JobQueue.Error
import JobQueue.Text.Blank
import JobQueue.Text.Decimal
import JobQueue.Text.Named
import JobQueue.Text.Split

/-!
# Weights of queues

The queues of a pool with their weights, in ascending order of their names.

As a text they are pieces `name=weight` between commas.  Blanks around a piece,
a name or a weight do not count, nor do empty pieces; of a name that is there
twice the last weight wins.  The first piece that is not of this form decides
the error.
-/

namespace JobQueue

/-- Queues with their weights. -/
structure Weights where
  /-- The names and weights. -/
  entries : List (String × UInt32)
  /-- The names ascend. -/
  ascending : Ascending entries
deriving DecidableEq, Repr

namespace Weights

/-- No queues. -/
def empty : Weights := ⟨[], List.Pairwise.nil⟩

instance : Inhabited Weights := ⟨empty⟩

/-- Give a queue a weight. -/
def insert (name : String) (weight : UInt32) (w : Weights) : Weights :=
  ⟨insertNamed name weight w.entries, pairwise_insertNamed w.ascending⟩

/-- The weights of a list; of a name that is there twice the last one wins. -/
def ofList (entries : List (String × UInt32)) : Weights :=
  ⟨sortNamed entries, pairwise_sortNamed entries⟩

/-- The weight of a queue. -/
def weight? (w : Weights) (name : String) : Option UInt32 := lookupNamed name w.entries

theorem weight?_insert (name other : String) (weight : UInt32) (w : Weights) :
    (w.insert name weight).weight? other = if name = other then some weight else w.weight? other :=
  lookup_insertNamed name other weight w.entries

/-- The name and the weight of a piece. -/
def ofPiece (piece : List Char) : Except QueueError (String × UInt32) :=
  match cutAt ['='] piece with
  | none => .error (.invalidConfig s!"expected name=weight, got '{String.ofList piece}'")
  | some (name, weight) =>
    let name := String.ofList (trim name)
    match readUnsigned 4294967295 (trim weight) with
    | .ok n => .ok (name, UInt32.ofNat n)
    | .error f => .error (.invalidConfig s!"bad weight for queue '{name}': {f.message}")

/-- The weights of pieces. -/
def ofPieces : List (List Char) → Weights → Except QueueError Weights
  | [], w => .ok w
  | p :: rest, w =>
    match ofPiece p with
    | .error e => .error e
    | .ok (name, weight) => ofPieces rest (w.insert name weight)

/-- The pieces of a text that hold something. -/
def filledPieces (text : List Char) : List (List Char) :=
  ((pieces ',' text).map trim).filter fun p => p ≠ []

/-- The weights of a text. -/
def ofText (text : List Char) : Except QueueError Weights :=
  match ofPieces (filledPieces text) empty with
  | .error e => .error e
  | .ok w => if w.entries = [] then .error (.invalidConfig "no queues given") else .ok w

end Weights

end JobQueue
