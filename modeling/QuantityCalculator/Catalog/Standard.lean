import QuantityCalculator.Catalog.Basic

/-!
The standard catalogue: units of the international system, metric units derived from them, and customary
units.
-/

namespace QuantityCalculator

namespace Catalog.Standard

/-! ### Units that others are derived from -/

private def unitOf (numerator denominator : List BaseQuantity) : Measure :=
  Measure.coherent (Dimension.ofBases numerator denominator)

private def ratio (numerator : Int) (denominator : Nat) : Number :=
  .exact (mkRat numerator denominator)

private def whole (n : Int) : Number :=
  .exact (n : Rat)

def kilogram : Measure := unitOf [.mass] []
def meter : Measure := unitOf [.length] []
def second : Measure := unitOf [.time] []
def candela : Measure := unitOf [.luminosity] []
def newton : Measure := unitOf [.mass, .length] [.time, .time]
def joule : Measure := unitOf [.mass, .length, .length] [.time, .time]
def pascal : Measure := unitOf [.mass] [.time, .time, .length]
def hertz : Measure := unitOf [] [.time]
def gray : Measure := unitOf [.length, .length] [.time, .time]
def squareMeter : Measure := unitOf [.length, .length] []
def cubicMeter : Measure := unitOf [.length, .length, .length] []
def meterPerSecond : Measure := unitOf [.length] [.time]
def coulombPerKilogram : Measure := unitOf [.current, .time] [.mass]

def minute : Measure := second.scale (whole 60)
def hour : Measure := minute.scale (whole 60)

def degree : Measure := Measure.one.scale (.real (3.141592653589793 / 180.0))

def arcMinute : Measure := degree.scale (ratio 1 60)

def inch : Measure := meter.scale (Number.ofScientific 254 (-4))
def foot : Measure := inch.scale (whole 12)
def yard : Measure := foot.scale (whole 3)
def mile : Measure := yard.scale (whole 1760)
def pound : Measure := kilogram.scale (Number.ofScientific 45359237 (-8))
def poundForce : Measure := newton.scale (pound.factor * Number.ofScientific 980665 (-5))
def gallon : Measure := cubicMeter.scale (whole 231 * (inch.factor * inch.factor * inch.factor))

/-! ### Registrations -/

private def named (name : String) (weight : Nat) (quantity : String)
    (numerator denominator : List BaseQuantity) : Registration :=
  .define (some name) weight quantity (Dimension.ofBases numerator denominator) []

private def unnamed (weight : Nat) (quantity : String)
    (numerator denominator : List BaseQuantity) : Registration :=
  .define none weight quantity (Dimension.ofBases numerator denominator) []

private def metric (name : String) (base : Measure) (factor : Number) : Registration :=
  .derive name (base.scale factor) []

private def plain (name : String) (measure : Measure) : Registration :=
  .derive name measure Prefix.symbols

def baseUnits : List Registration :=
  [unnamed 2 "number" [] [],
    named "A" 2 "electric current" [.current] [],
    .define (some "kg") 2 "mass" (Dimension.ofBases [.mass] []) Prefix.symbols,
    named "m" 2 "distance" [.length] [],
    named "s" 2 "time" [.time] [],
    named "K" 2 "temperature" [.temperature] [],
    named "mol" 2 "amount of substance" [.amount] [],
    named "cd" 2 "luminous intensity" [.luminosity] []]

def namedUnits : List Registration :=
  [named "N" 3 "force" [.mass, .length] [.time, .time],
    named "J" 3 "energy" [.mass, .length, .length] [.time, .time],
    named "Pa" 4 "pressure" [.mass] [.time, .time, .length],
    named "W" 4 "power" [.mass, .length, .length] [.time, .time, .time],
    named "C" 3 "electric charge" [.current, .time] [],
    named "V" 3 "voltage" [.mass, .length, .length] [.time, .time, .time, .current],
    named "F" 4 "capacitance" [.time, .time, .time, .time, .current, .current] [.mass, .length, .length],
    named "Ω" 4 "resistance" [.mass, .length, .length] [.time, .time, .time, .current, .current],
    named "S" 5 "conductance" [.time, .time, .time, .current, .current] [.mass, .length, .length],
    named "Wb" 4 "magnetic flux" [.mass, .length, .length] [.time, .time, .current],
    named "T" 4 "magnetic flux density" [.mass] [.time, .time, .current],
    named "H" 4 "inductance" [.mass, .length, .length] [.time, .time, .current, .current],
    named "Hz" 4 "frequency" [] [.time],
    named "lux" 3 "illuminance" [.luminosity] [.length, .length],
    metric "lm" candela Number.one,
    named "Gy" 5 "radiation dose" [.length, .length] [.time, .time],
    named "kat" 5 "catalytic activity" [.amount] [.time],
    metric "Bq" hertz Number.one,
    metric "Sv" gray Number.one]

def unnamedQuantities : List Registration :=
  [unnamed 3 "area" [.length, .length] [],
    unnamed 4 "volume" [.length, .length, .length] [],
    unnamed 3 "speed" [.length] [.time],
    unnamed 4 "acceleration" [.length] [.time, .time],
    unnamed 4 "momentum" [.mass, .length] [.time],
    unnamed 5 "angular momentum" [.mass, .length, .length] [.time],
    unnamed 5 "moment of inertia" [.mass, .length, .length] [],
    unnamed 4 "electric field strength" [.mass, .length] [.time, .time, .time, .current],
    unnamed 4 "magnetic field strength" [.current] [.length],
    unnamed 5 "electric charge density" [.current, .time] [.length, .length, .length],
    unnamed 5 "resistivity" [.mass, .length, .length, .length]
      [.time, .time, .time, .current, .current],
    unnamed 5 "conductivity" [.time, .time, .time, .current, .current]
      [.mass, .length, .length, .length],
    unnamed 5 "permittivity" [.time, .time, .time, .time, .current, .current]
      [.mass, .length, .length, .length],
    unnamed 5 "magnetic permeability" [.mass, .length] [.time, .time, .current, .current],
    unnamed 5 "thermal conductivity" [.mass, .length] [.time, .time, .time, .temperature],
    unnamed 5 "thermal capacity" [.mass, .length, .length] [.time, .time, .temperature],
    unnamed 5 "specific thermal capacity" [.length, .length] [.time, .time, .temperature],
    unnamed 5 "molar thermal capacity" [.mass, .length, .length] [.time, .time, .temperature, .amount],
    unnamed 5 "molar mass" [.mass] [.amount],
    unnamed 5 "concentration" [.amount] [.length, .length, .length],
    unnamed 5 "luminous energy" [.luminosity, .time] [],
    unnamed 5 "luminous exposure" [.luminosity, .time] [.length, .length],
    unnamed 5 "luminous efficacy" [.luminosity, .time, .time, .time] [.mass, .length, .length],
    unnamed 5 "radioactive exposure" [.current, .time] [.mass]]

def derivedUnits : List Registration :=
  [metric "g" kilogram (ratio 1 1000),
    metric "erg" joule (Number.ofPowerOfTen (-7)),
    metric "l" cubicMeter (ratio 1 1000),
    plain "ha" (squareMeter.scale (whole 10000)),
    metric "bar" pascal (whole 100000),
    plain "atm" (pascal.scale (whole 101325)),
    plain "mmHg" (pascal.scale (Number.ofScientific 133322387415 (-9))),
    plain "inHg" (pascal.scale (Number.ofScientific 3386389 (-3))),
    metric "Torr" pascal (ratio 101325 760),
    plain "min" minute,
    plain "h" hour,
    plain "d" (hour.scale (whole 24)),
    plain "kph" (meterPerSecond.scale (ratio 1000 3600)),
    plain "deg" degree,
    plain "'" arcMinute,
    plain "\"" (arcMinute.scale (ratio 1 60)),
    metric "cal" joule (Number.ofScientific 4184 (-3)),
    metric "eV" joule (Number.ofScientific 1602176634 (-28)),
    metric "Ci" hertz (Number.ofScientific 37 9),
    metric "rad" gray (ratio 1 100),
    metric "R" coulombPerKilogram (Number.ofScientific 258 (-6))]

def customaryUnits : List Registration :=
  [plain "in" inch,
    plain "ft" foot,
    plain "yd" yard,
    plain "mi" mile,
    plain "NM" (meter.scale (whole 1852)),
    plain "mph" (meterPerSecond.scale (mile.factor * ratio 1 3600)),
    plain "ac" (squareMeter.scale (whole 43560 * (foot.factor * foot.factor))),
    plain "lb" pound,
    plain "lbf" poundForce,
    plain "ftlb" (joule.scale (poundForce.factor * foot.factor)),
    plain "psi" (pascal.scale (poundForce.factor * ratio 25000000 16129)),
    plain "gal" gallon,
    plain "floz" (gallon.scale (ratio 1 128))]

def registrations : List Registration :=
  baseUnits ++ namedUnits ++ unnamedQuantities ++ derivedUnits ++ customaryUnits

end Catalog.Standard

def Catalog.standard : Catalog :=
  Catalog.empty.registerAll Catalog.Standard.registrations

end QuantityCalculator
