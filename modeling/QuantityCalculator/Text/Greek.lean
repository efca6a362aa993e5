import QuantityCalculator.ReadError

/-!
Greek letters typed as escapes.

A backslash followed by a Latin letter stands for a Greek one.  The micro sign is read as the letter mu.
-/

namespace QuantityCalculator.Text

def greekLetters : List (Char × Char) :=
  [('a', 'α'), ('b', 'β'), ('c', 'γ'), ('d', 'δ'), ('e', 'ε'), ('f', 'φ'), ('g', 'γ'), ('h', 'χ'),
    ('i', 'ι'), ('j', 'η'), ('k', 'κ'), ('l', 'λ'), ('m', 'μ'), ('n', 'ν'), ('o', 'ω'), ('p', 'π'),
    ('q', 'ψ'), ('r', 'ρ'), ('s', 'σ'), ('t', 'τ'), ('u', 'υ'), ('v', 'θ'), ('x', 'ξ'), ('z', 'ζ'),
    ('A', 'Α'), ('B', 'Β'), ('C', 'Γ'), ('D', 'Δ'), ('E', 'Ε'), ('F', 'Φ'), ('G', 'Γ'), ('H', 'Χ'),
    ('I', 'Ι'), ('J', 'Η'), ('K', 'Κ'), ('L', 'Λ'), ('M', 'Μ'), ('N', 'Ν'), ('O', 'Ω'), ('P', 'Π'),
    ('Q', 'Ψ'), ('R', 'Ρ'), ('S', 'Σ'), ('T', 'Τ'), ('U', 'Υ'), ('V', 'Θ'), ('X', 'Ξ'), ('Z', 'Ζ')]

def microSign : Char := 'µ'

/-- Replaces escapes and micro signs by Greek letters. -/
def resolveEscapes : List Char → Except ReadError (List Char)
  | [] => .ok []
  | ['\\'] => .error (.unreadable "\\")
  | '\\' :: letter :: rest =>
    match greekLetters.lookup letter with
    | some greek => (resolveEscapes rest).map (greek :: ·)
    | none => .error (.noGreekLetter letter)
  | c :: rest => (resolveEscapes rest).map ((if c = microSign then 'μ' else c) :: ·)

end QuantityCalculator.Text
