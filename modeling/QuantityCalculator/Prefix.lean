/-!
Metric prefixes.

Every prefix is accepted when a unit is read.  A shown quantity takes a prefix whose exponent is a
multiple of three, or none; micro is then written with the Greek letter.
-/

namespace QuantityCalculator

structure Prefix where
  symbol : String
  exponent : Int
  deriving DecidableEq, Repr

namespace Prefix

def empty : Prefix := { symbol := "", exponent := 0 }

/-- All prefixes, in the order in which a unit name is tried against them. -/
def all : List Prefix :=
  [{ symbol := "da", exponent := 1 },
    { symbol := "h", exponent := 2 },
    { symbol := "k", exponent := 3 },
    { symbol := "M", exponent := 6 },
    { symbol := "G", exponent := 9 },
    { symbol := "T", exponent := 12 },
    { symbol := "P", exponent := 15 },
    { symbol := "E", exponent := 18 },
    { symbol := "Z", exponent := 21 },
    { symbol := "Y", exponent := 24 },
    { symbol := "d", exponent := -1 },
    { symbol := "c", exponent := -2 },
    { symbol := "m", exponent := -3 },
    { symbol := "u", exponent := -6 },
    { symbol := "μ", exponent := -6 },
    { symbol := "n", exponent := -9 },
    { symbol := "p", exponent := -12 },
    { symbol := "f", exponent := -15 },
    { symbol := "a", exponent := -18 },
    { symbol := "z", exponent := -21 },
    { symbol := "y", exponent := -24 }]

def symbols : List String :=
  all.map Prefix.symbol

def isShown (candidate : Prefix) : Bool :=
  candidate.exponent % 3 = 0 && candidate.symbol != "u"

/-- What may stand before the unit of a shown quantity: nothing, or a shown prefix. -/
def shown : List Prefix :=
  empty :: all.filter isShown

end Prefix

end QuantityCalculator
