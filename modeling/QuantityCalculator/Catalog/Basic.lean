import QuantityCalculator.Measure.Basic
import QuantityCalculator.Prefix

/-!
Catalogues of units.

A catalogue holds entries in the order of their registration.  A defined entry stands for the
coherent unit of its dimension and gives it a quantity and, possibly, a name; a derived entry is a named
multiple of another unit.  Two indexes lead to the entries: that of the units of defined entries, and that of
all names.
-/

namespace QuantityCalculator

structure Catalog.Entry where
  name : Option String
  measure : Measure
  /-- How costly the name is in a compound name. -/
  weight : Nat
  quantity : Option String
  /-- Whether the entry is a multiple of another unit, and so never names a dimension. -/
  derived : Bool
  /-- The symbols of the prefixes that the name does not take. -/
  barred : List String

def Catalog.Entry.allows (entry : Catalog.Entry) (symbol : String) : Bool :=
  !entry.barred.contains symbol

structure Catalog where
  entries : List Catalog.Entry
  /-- The positions of defined entries, by their units. -/
  unitIndex : List (Measure × Nat)
  /-- The positions of named entries, by their names. -/
  nameIndex : List (String × Nat)

inductive Catalog.Conflict where
  /-- The unit has been defined already. -/
  | unitTaken (dimension : Dimension)
  /-- The name is in use already. -/
  | nameTaken (name : String)

def Catalog.Conflict.message : Catalog.Conflict → String
  | .unitTaken dimension =>
    "a unit with dimension '" ++ dimension.baseText ++ "' and multiplier 1 is already registered"
  | .nameTaken name => "a unit named " ++ name ++ " is already registered"

namespace Catalog

def empty : Catalog := { entries := [], unitIndex := [], nameIndex := [] }

/-! ### Queries -/

def positionOfUnit? (catalog : Catalog) (measure : Measure) : Option Nat :=
  (catalog.unitIndex.find? fun key => key.1.same measure).map Prod.snd

def positionOfName? (catalog : Catalog) (name : String) : Option Nat :=
  catalog.nameIndex.lookup name

def lookup? (catalog : Catalog) (name : String) : Option Entry :=
  (catalog.positionOfName? name).bind (catalog.entries[·]?)

def entryOf? (catalog : Catalog) (measure : Measure) : Option Entry :=
  (catalog.positionOfUnit? measure).bind (catalog.entries[·]?)

/-- The entries that can name a dimension: those that are defined and have a name. -/
def namingEntries (catalog : Catalog) : List Entry :=
  catalog.entries.filter fun entry => entry.name.isSome && !entry.derived

def names (catalog : Catalog) : List String :=
  catalog.entries.filterMap Entry.name

/-! ### Registration -/

/-- A change to a catalogue.  One that fails keeps what it has changed before. -/
abbrev Update := ExceptT Conflict (StateM Catalog)

namespace Update

def runOn {α : Type} (update : Update α) (catalog : Catalog) : Except Conflict α × Catalog :=
  update.run.run catalog

def push (entry : Entry) : Update Nat := do
  let position := (← get).entries.length
  if let some name := entry.name then
    if ((← get).positionOfName? name).isSome then
      throw (.nameTaken name)
    modify fun catalog => { catalog with nameIndex := (name, position) :: catalog.nameIndex }
  modify fun catalog => { catalog with entries := catalog.entries ++ [entry] }
  return position

def define (name : Option String) (weight : Nat) (quantity : String) (dimension : Dimension)
    (barred : List String) : Update Measure := do
  let measure := Measure.coherent dimension
  if ((← get).positionOfUnit? measure).isSome then
    throw (.unitTaken dimension)
  let position ← push { name, measure, weight, quantity := some quantity, derived := false, barred }
  modify fun catalog => { catalog with unitIndex := (measure, position) :: catalog.unitIndex }
  return measure

def derivedWeight : Nat := 1000

/-- Derives a named unit.  Its quantity is that of the coherent unit of the same dimension. -/
def derive (name : String) (measure : Measure) (barred : List String) : Update Measure := do
  let quantity := ((← get).entryOf? (Measure.coherent measure.dimension)).bind Entry.quantity
  let _ ← push { name := some name, measure, weight := derivedWeight, quantity, derived := true, barred }
  return measure

end Update

inductive Registration where
  | define (name : Option String) (weight : Nat) (quantity : String) (dimension : Dimension)
      (barred : List String)
  | derive (name : String) (measure : Measure) (barred : List String)

def Registration.update : Registration → Update Measure
  | .define name weight quantity dimension barred => .define name weight quantity dimension barred
  | .derive name measure barred => .derive name measure barred

def register (catalog : Catalog) (request : Registration) : Except Conflict Catalog :=
  let (result, next) := request.update.runOn catalog
  result.map fun _ => next

def define (catalog : Catalog) (name : Option String) (weight : Nat) (quantity : String)
    (dimension : Dimension) (barred : List String) : Except Conflict Catalog :=
  catalog.register (.define name weight quantity dimension barred)

def derive (catalog : Catalog) (name : String) (measure : Measure) (barred : List String) :
    Except Conflict Catalog :=
  catalog.register (.derive name measure barred)

/-- The catalogue after a list of requests, whether they succeed or fail. -/
def registerAll (catalog : Catalog) (requests : List Registration) : Catalog :=
  requests.foldl (fun current request => (request.update.runOn current).2) catalog

end Catalog

end QuantityCalculator
