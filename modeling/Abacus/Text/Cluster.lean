import Abacus.Text.Conjunct
import Abacus.Text.Extend
import Abacus.Text.Pictograph
import Abacus.Text.Spacing

/-! Clusters: the characters that a reader takes for one.  A text is cut into clusters by the rules
of Unicode for extended grapheme clusters; the main statement is that nothing is lost. -/

namespace Abacus.Text

/-- What a character is to the characters beside it.  A syllable of Hangul is open if it has no
trailing consonant. -/
inductive Kind where
  | carriageReturn
  | lineFeed
  | control
  | joiner
  | nonJoiner
  | linker
  | extend
  | spacing
  | prepended
  | leading
  | vowel
  | trailing
  | openSyllable
  | closedSyllable
  | regional
  | pictograph
  | consonant
  | other
deriving DecidableEq, Repr

/-- Controls and characters that only shape the layout, without the two that end a line. -/
def controlRanges : Ranges :=
  [(0x0, 0x9), (0xB, 0xC), (0xE, 0x1F), (0x7F, 0x9F), (0xAD, 0xAD), (0x61C, 0x61C),
   (0x180E, 0x180E), (0x200B, 0x200B), (0x200E, 0x200F), (0x2028, 0x202E), (0x2060, 0x206F),
   (0xFEFF, 0xFEFF), (0xFFF0, 0xFFFB), (0x13430, 0x1343F), (0x1BCA0, 0x1BCA3),
   (0x1D173, 0x1D17A), (0xE0000, 0xE001F), (0xE0080, 0xE00FF), (0xE01F0, 0xE0FFF)]

/-- The signs that belong to the character behind them. -/
def prependedRanges : Ranges :=
  [(0x600, 0x605), (0x6DD, 0x6DD), (0x70F, 0x70F), (0x890, 0x891), (0x8E2, 0x8E2),
   (0xD4E, 0xD4E), (0x110BD, 0x110BD), (0x110CD, 0x110CD), (0x111C2, 0x111C3),
   (0x113D1, 0x113D1), (0x1193F, 0x1193F), (0x11941, 0x11941), (0x11A84, 0x11A89),
   (0x11D46, 0x11D46), (0x11F02, 0x11F02)]

/-- The consonants that begin a syllable of Hangul. -/
def leadingRanges : Ranges := [(0x1100, 0x115F), (0xA960, 0xA97C)]

/-- The vowels of Hangul, and those of another script that join in the same way. -/
def vowelRanges : Ranges :=
  [(0x1160, 0x11A7), (0xD7B0, 0xD7C6), (0x16D63, 0x16D63), (0x16D67, 0x16D6A)]

/-- The consonants that end a syllable of Hangul. -/
def trailingRanges : Ranges := [(0x11A8, 0x11FF), (0xD7CB, 0xD7FB)]

/-- The syllables of Hangul.  They stand in blocks of 28, and the first of a block is open. -/
def syllableRanges : Ranges := [(0xAC00, 0xD7A3)]

/-- The letters of which two make a flag. -/
def regionalRanges : Ranges := [(0x1F1E6, 0x1F1FF)]

/-- The kind of a character. -/
def Kind.of (c : Char) : Kind :=
  if ' ' ≤ c ∧ c ≤ '~' then .other
  else if c = '\r' then .carriageReturn
  else if c = '\n' then .lineFeed
  else if c = '\u200d' then .joiner
  else if c = '\u200c' then .nonJoiner
  else if controlRanges.has c then .control
  else if linkerRanges.has c then .linker
  else if extendRanges.has c then .extend
  else if spacingRanges.has c then .spacing
  else if prependedRanges.has c then .prepended
  else if leadingRanges.has c then .leading
  else if vowelRanges.has c then .vowel
  else if trailingRanges.has c then .trailing
  else if syllableRanges.has c then
    if (c.toNat - 0xAC00) % 28 = 0 then .openSyllable else .closedSyllable
  else if regionalRanges.has c then .regional
  else if pictographRanges.has c then .pictograph
  else if consonantRanges.has c then .consonant
  else .other

/-- Whether a character stands alone: one that ends a line, or a control. -/
def Kind.isAlone : Kind → Bool
  | carriageReturn | lineFeed | control => true
  | _ => false

/-- Whether a character belongs to the one before it, unless that stands alone. -/
def Kind.attaches : Kind → Bool
  | joiner | nonJoiner | linker | extend | spacing => true
  | _ => false

/-- Whether a character may stand between a pictograph and a joiner behind it. -/
def Kind.extendsPictograph : Kind → Bool
  | nonJoiner | linker | extend => true
  | _ => false

/-- Whether a character may stand between two consonants that a linker joins. -/
def Kind.isInConjunct : Kind → Bool
  | joiner | linker | extend => true
  | _ => false

/-- Whether two parts of Hangul belong to one syllable. -/
def joinsSyllable : Kind → Kind → Bool
  | .leading, .leading | .leading, .vowel => true
  | .leading, .openSyllable | .leading, .closedSyllable => true
  | .openSyllable, .vowel | .openSyllable, .trailing => true
  | .vowel, .vowel | .vowel, .trailing => true
  | .closedSyllable, .trailing | .trailing, .trailing => true
  | _, _ => false

/-- Whether a consonant goes on with the conjunct at the end of a cluster, the last kind first:
a consonant, and signs of which one is a linker. -/
def joinsConjunct (cluster : List Kind) : Bool :=
  (cluster.takeWhile Kind.isInConjunct).contains .linker &&
    (cluster.dropWhile Kind.isInConjunct).head? == some .consonant

/-- Whether a pictograph goes on with the one at the end of a cluster, the last kind first: a
pictograph with its extending signs, and a joiner. -/
def joinsPictograph : (cluster : List Kind) → Bool
  | .joiner :: before => (before.dropWhile Kind.extendsPictograph).head? == some .pictograph
  | _ => false

/-- Whether a regional letter goes on with a cluster, the last kind first: it does if the letter
before it has no partner. -/
def joinsRegional (cluster : List Kind) : Bool :=
  (cluster.takeWhile (· == .regional)).length % 2 == 1

/-- Whether a cluster with these kinds, the last one first, goes on with a character of the next
kind. -/
def goesOn (cluster : List Kind) (next : Kind) : Bool :=
  match cluster with
  | [] => true
  | last :: _ =>
    if last = .carriageReturn && next = .lineFeed then true
    else if last.isAlone || next.isAlone then false
    else
      next.attaches || last = .prepended || joinsSyllable last next ||
        (next = .consonant && joinsConjunct cluster) ||
        (next = .pictograph && joinsPictograph cluster) ||
        (next = .regional && joinsRegional cluster)

/-- The clusters of a text, the first of which begins with the characters of `cluster`, the last one
first.  Their kinds are `kinds`. -/
def clustersFrom (cluster : List Char) (kinds : List Kind) : List Char → List (List Char)
  | [] => [cluster.reverse]
  | c :: rest =>
    let kind := Kind.of c
    if goesOn kinds kind then clustersFrom (c :: cluster) (kind :: kinds) rest
    else cluster.reverse :: clustersFrom [c] [kind] rest

/-- The clusters of a text. -/
def clusters : List Char → List (List Char)
  | [] => []
  | c :: rest => clustersFrom [c] [Kind.of c] rest

theorem flatten_clustersFrom (cluster : List Char) (kinds : List Kind) (text : List Char) :
    (clustersFrom cluster kinds text).flatten = cluster.reverse ++ text := by
  induction text generalizing cluster kinds with
  | nil => simp [clustersFrom]
  | cons c rest ih =>
    simp only [clustersFrom]
    split <;> simp [ih]

/-- Nothing is lost between clusters. -/
theorem flatten_clusters (text : List Char) : (clusters text).flatten = text := by
  cases text with
  | nil => rfl
  | cons c rest => simp [clusters, flatten_clustersFrom]

end Abacus.Text
