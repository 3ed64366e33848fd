import Abacus.Text.Utf8

/-! Input: what any input for words can do, and input that comes in portions. -/

namespace Abacus

/-- Something that words can be read from, none at its end.  Reading may fail with a message, and
leaves the input as it is then. -/
class Intake (ρ : Type) where
  readWord : EStateM String ρ (Option String)

/-- What asking for more input gives: bytes, of which none mean the end of the input for now; a
failure that is no reason to stop; or a failure with a message. -/
inductive Fill where
  | bytes (portion : List UInt8)
  | interrupted
  | failed (message : String)
deriving DecidableEq, Repr

/-- Input as the portions that are still to come.  Behind the last one the input has ended. -/
structure Feed where
  fills : List Fill
deriving DecidableEq, Repr

namespace Feed

/-- Input that comes in one portion. -/
def ofBytes (bytes : List UInt8) : Feed := ⟨[.bytes bytes]⟩

/-- The bytes that are still to come. -/
def unread (feed : Feed) : List UInt8 :=
  feed.fills.flatMap fun
    | .bytes portion => portion
    | _ => []

/-- The bytes that stand between words: blank, tab, line feed, form feed and carriage return. -/
def isSeparator (b : UInt8) : Bool :=
  b == 0x20 || b == 0x09 || b == 0x0A || b == 0x0C || b == 0x0D

/-- The word so far after one more portion, and what is left of the portion behind the one
separator that ends the word.  Without such a separator the word may go on. -/
def takeWord (word portion : List UInt8) : List UInt8 × Option (List UInt8) :=
  let portion := if word.isEmpty then portion.dropWhile isSeparator else portion
  let word := word ++ portion.takeWhile (!isSeparator ·)
  match portion.dropWhile (!isSeparator ·) with
  | [] => (word, none)
  | _ :: left => (word, some left)

/-- The portions to come when `left` is left of the first one. -/
def putBack (left : List UInt8) (fills : List Fill) : List Fill :=
  if left.isEmpty then fills else .bytes left :: fills

/-- The word that begins with the bytes of `word` and goes on in the portions to come. -/
def wordFrom (word : List UInt8) : List Fill → Except String (List UInt8) × List Fill
  | [] => (.ok word, [])
  | .interrupted :: rest => wordFrom word rest
  | .failed message :: rest => (.error message, rest)
  | .bytes portion :: rest =>
    if portion.isEmpty then (.ok word, rest)
    else
      match takeWord word portion with
      | (word, some left) => (.ok word, putBack left rest)
      | (word, none) => wordFrom word rest

/-- Reads the next word, together with the one separator behind it.  There is none at the end of
the input. -/
def readWord : EStateM String Feed (Option String) := fun feed =>
  match wordFrom [] feed.fills with
  | (.ok word, fills) =>
    .ok (if word.isEmpty then none else some (Text.decodeLossy word)) ⟨fills⟩
  | (.error message, fills) => .error message ⟨fills⟩

instance : Intake Feed := ⟨readWord⟩

end Feed

end Abacus
