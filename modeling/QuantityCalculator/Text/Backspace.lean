import QuantityCalculator.Text.Cluster.Basic

/-!
Backspaces in typed text.

A backspace takes back the cluster before it.  What it takes back is counted in bytes, and the length of
a cluster is recorded in one byte: longer clusters are taken back in part, and a backspace that would
cut a character cannot be applied.
-/

namespace QuantityCalculator.Text

def backspace : Char := '\x08'

/-- Drops characters that take a number of bytes together, if a character ends there. -/
def dropBytes? : Nat → List Char → Option (List Char)
  | 0, text => some text
  | _ + 1, [] => none
  | bytes + 1, c :: rest =>
    if c.utf8Size ≤ bytes + 1 then dropBytes? (bytes + 1 - c.utf8Size) rest else none

def byteLength (text : List Char) : Nat :=
  text.foldl (fun bytes c => bytes + c.utf8Size) 0

structure Typed where
  /-- What is left, the last character first. -/
  kept : List Char
  /-- The recorded lengths of the clusters that can be taken back, the last one first. -/
  lengths : List Nat

namespace Typed

def start : Typed := { kept := [], lengths := [] }

def lengthLimit : Nat := 256

def takeBack (typed : Typed) : Option Typed :=
  match typed.lengths with
  | [] => some typed
  | length :: lengths => (dropBytes? length typed.kept).map fun kept => { kept, lengths }

def append (typed : Typed) (cluster : List Char) : Typed :=
  { kept := cluster.reverse ++ typed.kept
    lengths := byteLength cluster % lengthLimit :: typed.lengths }

def type (typed : Typed) (cluster : List Char) : Option Typed :=
  if cluster = [backspace] then typed.takeBack else some (typed.append cluster)

end Typed

def applyBackspaces (text : List Char) : Option (List Char) :=
  ((clusters text).foldlM Typed.type Typed.start).map fun typed => typed.kept.reverse

end QuantityCalculator.Text
