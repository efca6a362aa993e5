import QuantityCalculator.Text.Cluster.Ranges

/-!
Clusters: the runs of characters that are seen as one.

A cluster is an extended grapheme cluster: a character with the marks on it, a line end of two
characters, a syllable of conjoining letters, a conjunct of consonants, a flag of two indicators, or
pictographs joined to one picture.
-/

namespace QuantityCalculator.Text

namespace Cluster

inductive Role where
  | carriageReturn
  | lineFeed
  | control
  | extend
  | joiner
  | spacing
  | prepend
  /-- A leading consonant of a syllable. -/
  | leading
  /-- The vowel of a syllable. -/
  | vowel
  /-- A trailing consonant of a syllable. -/
  | trailing
  /-- A syllable that ends in its vowel. -/
  | openSyllable
  /-- A syllable that ends in a trailing consonant. -/
  | closedSyllable
  /-- One of the two characters of a flag. -/
  | indicator
  | pictograph
  /-- A consonant that forms conjuncts. -/
  | consonant
  | other
  deriving DecidableEq, Repr

namespace Role

def standsAlone : Role → Bool
  | .carriageReturn | .lineFeed | .control => true
  | _ => false

/-- Whether the character belongs to the one before it, whatever that is. -/
def attaches : Role → Bool
  | .extend | .joiner | .spacing => true
  | _ => false

def sharesSyllable : Role → Role → Bool
  | .leading, .leading | .leading, .vowel | .leading, .openSyllable | .leading, .closedSyllable => true
  | .openSyllable, .vowel | .openSyllable, .trailing | .vowel, .vowel | .vowel, .trailing => true
  | .closedSyllable, .trailing | .trailing, .trailing => true
  | _, _ => false

end Role

def joinerCode : Nat := 0x200D

/-- The non-joiner, U+200C.  It extends a character but does not continue a conjunct. -/
def nonJoinerCode : Nat := 0x200C

/-- The number of precomposed syllables that share their first two letters; the first of them is open. -/
def syllablesOfVowel : Nat := 28

def syllableRole (index : Nat) : Role :=
  if index % syllablesOfVowel = 0 then .openSyllable else .closedSyllable

def roleOfCode (code : Nat) : Role :=
  if code = 0xD then .carriageReturn
  else if code = 0xA then .lineFeed
  else if inRanges controlRanges code then .control
  else if code = joinerCode then .joiner
  else if inRanges extendRanges code then .extend
  else if inRanges spacingRanges code then .spacing
  else if inRanges prependRanges code then .prepend
  else if inRanges leadingRanges code then .leading
  else if inRanges vowelRanges code then .vowel
  else if inRanges trailingRanges code then .trailing
  else if 0xAC00 ≤ code && code ≤ 0xD7A3 then syllableRole (code - 0xAC00)
  else if 0x1F1E6 ≤ code && code ≤ 0x1F1FF then .indicator
  else if inRanges pictographRanges code then .pictograph
  else if inRanges consonantRanges code then .consonant
  else .other

def roleOf (c : Char) : Role :=
  roleOfCode c.toNat

/-! ### Where a cluster goes on -/

def isLinker (c : Char) : Bool :=
  linkers.contains c.toNat

/-- A mark that may stand between the consonants of a conjunct. -/
def isConjunctMark (c : Char) : Bool :=
  isLinker c ||
    ((roleOf c = .extend || roleOf c = .joiner) && c.toNat != nonJoinerCode)

/-- Whether a text, the last character first, ends in a consonant and marks with a linker among them. -/
def endsInLinkedConsonant (before : List Char) : Bool :=
  (before.takeWhile isConjunctMark).any isLinker &&
    ((before.dropWhile isConjunctMark).head?.any fun c => roleOf c = .consonant)

/-- Whether a text, the last character first, ends in a pictograph, its marks and a joiner. -/
def endsInJoinedPictograph : List Char → Bool
  | [] => false
  | last :: before =>
    roleOf last = .joiner &&
      ((before.dropWhile fun c => roleOf c = .extend).head?.any fun c => roleOf c = .pictograph)

/-- Whether a text, the last character first, ends in an odd number of indicators. -/
def endsInHalfFlag (before : List Char) : Bool :=
  (before.takeWhile fun c => roleOf c = .indicator).length % 2 = 1

/-- Whether a character belongs to the cluster before it, which is given with its last character
first. -/
def continues : List Char → Char → Bool
  | [], _ => false
  | last :: earlier, next =>
    let before := roleOf last
    let after := roleOf next
    if before.standsAlone || after.standsAlone then before = .carriageReturn && after = .lineFeed
    else if after.attaches || before = .prepend || before.sharesSyllable after then true
    else
      match after with
      | .consonant => endsInLinkedConsonant (last :: earlier)
      | .pictograph => endsInJoinedPictograph (last :: earlier)
      | .indicator => endsInHalfFlag (last :: earlier)
      | _ => false

/-- The clusters of a text behind a cluster that has been read so far, its last character first. -/
def readOn (current : List Char) : List Char → List (List Char)
  | [] => [current.reverse]
  | next :: rest =>
    if continues current next then readOn (next :: current) rest
    else current.reverse :: readOn [next] rest

/-- Clusters put together again give the text. -/
theorem flatten_readOn (current text : List Char) :
    (readOn current text).flatten = current.reverse ++ text := by
  induction text generalizing current with
  | nil => simp [readOn]
  | cons next rest ih =>
      unfold readOn
      split
      · simp [ih]
      · simp [ih]

end Cluster

def clusters : List Char → List (List Char)
  | [] => []
  | first :: rest => Cluster.readOn [first] rest

/-- Nothing of a text is lost between its clusters. -/
theorem flatten_clusters (text : List Char) : (clusters text).flatten = text := by
  cases text with
  | nil => rfl
  | cons first rest => simp [clusters, Cluster.flatten_readOn]

end QuantityCalculator.Text
