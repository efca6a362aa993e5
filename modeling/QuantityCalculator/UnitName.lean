import QuantityCalculator.Catalog.Standard

/-!
Names of dimensions.

A dimension whose coherent unit is named in the catalogue has that name.  Any other dimension is spelled
in the lightest of these forms: its base units, a power of a named unit, a product of two named units, or
a quotient of two.  Of equally light forms the first in this order counts, and within a form the order of
the catalogue decides.
-/

namespace QuantityCalculator

/-- The spelling of a coherent unit, and what a prefix in front of it does. -/
structure UnitName where
  text : String
  /-- The power of the leading unit, to which a prefix in front of the text is raised as well. -/
  prefixPower : Int
  /-- The symbols of the prefixes that the leading unit does not take. -/
  barred : List String
  deriving DecidableEq, Repr

namespace UnitName

def allows (name : UnitName) (symbol : String) : Bool :=
  name.text != "" && name.prefixPower != 0 && !name.barred.contains symbol

def blank : UnitName := { text := "", prefixPower := 0, barred := Prefix.symbols }

/-! ### Spellings -/

structure Spelling where
  name : UnitName
  weight : Nat
  deriving DecidableEq, Repr

def label (entry : Catalog.Entry) : String :=
  entry.name.getD ""

/-- The spelling in base units.  A prefix belongs to the first unit of the numerator; there is none in
front of a kilogram or of a bare denominator. -/
def baseSpelling (dimension : Dimension) : Spelling :=
  let text := dimension.baseText
  let name :=
    match dimension.factors.find? fun factor => 0 < factor.2 with
    | some (.mass, power) => { text, prefixPower := power, barred := Prefix.symbols }
    | some (_, power) => { text, prefixPower := power, barred := [] }
    | none => { text, prefixPower := 0, barred := Prefix.symbols }
  { name, weight := Nat.pow 2 dimension.factors.length }

def powerSpelling? (dimension : Dimension) (entry : Catalog.Entry) : Option Spelling :=
  match entry.measure.dimension.powerGiving? dimension with
  | some power =>
    if power = 0 || power = 1 then none
    else
      some
        { name :=
            { text := label entry ++ Text.raisedPower power
              prefixPower := power
              barred := entry.barred }
          weight := entry.weight * 2 }
  | none => none

def compound (separator : String) (first second : Catalog.Entry) : Spelling :=
  { name := { text := label first ++ separator ++ label second, prefixPower := 1, barred := first.barred }
    weight := first.weight * second.weight }

def productSpellings (dimension : Dimension) : List Catalog.Entry → List Spelling
  | [] => []
  | first :: later =>
    (later.filter fun second =>
        first.measure.dimension.mul? second.measure.dimension = some dimension).map (compound " " first) ++
      productSpellings dimension later

/-- The quotients of two entries that have the dimension.  The quotient of an entry by itself is a plain
number, which is never spelled. -/
def quotientSpellings (dimension : Dimension) (entries : List Catalog.Entry) : List Spelling :=
  entries.flatMap fun numerator =>
    (entries.filter fun denominator =>
        numerator.measure.dimension.div? denominator.measure.dimension = some dimension).map
      (compound " / " numerator)

def spellings (dimension : Dimension) : List Spelling :=
  let entries := Catalog.standard.namingEntries
  baseSpelling dimension ::
    (entries.filterMap (powerSpelling? dimension) ++ productSpellings dimension entries ++
      quotientSpellings dimension entries)

/-- The lightest of some spellings; the earliest of equally light ones. -/
def lightest (best : Spelling) : List Spelling → Spelling
  | [] => best
  | next :: rest => lightest (if next.weight < best.weight then next else best) rest

def composed (dimension : Dimension) : UnitName :=
  if dimension.isOne then blank
  else (lightest (baseSpelling dimension) (spellings dimension)).name

end UnitName

def Dimension.unitName (dimension : Dimension) : UnitName :=
  match Catalog.standard.entryOf? (Measure.coherent dimension) with
  | some entry =>
    match entry.name with
    | some text => { text, prefixPower := 1, barred := entry.barred }
    | none => UnitName.composed dimension
  | none => UnitName.composed dimension

def Dimension.quantity? (dimension : Dimension) : Option String :=
  (Catalog.standard.entryOf? (Measure.coherent dimension)).bind Catalog.Entry.quantity

end QuantityCalculator
