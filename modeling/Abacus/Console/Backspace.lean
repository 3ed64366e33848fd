import Abacus.Text.Basic
import Abacus.Text.Cluster

/-! Backspaces in an entry.  Each takes back the cluster before it that is not yet taken back, by
the number of bytes remembered for it.  That number is kept in one byte, so of a cluster of 256
bytes or more only a part is taken back, and a cut can fall inside a character. -/

namespace Abacus.Console

open Text

/-- The character that takes back what stands before it. -/
def backspace : Char := '\x08'

/-- What has been typed: the characters, and the numbers of bytes that can be taken back, both with
the last one first. -/
structure Typed where
  text : List Char := []
  sizes : List UInt8 := []
deriving DecidableEq, Repr

/-- The text, last character first, without a number of bytes at its end; `none` if the cut would
fall inside a character. -/
def withoutBytes? (count : Nat) : List Char → Option (List Char)
  | [] => if count = 0 then some [] else none
  | c :: rest =>
    if count = 0 then some (c :: rest)
    else if c.utf8Size ≤ count then withoutBytes? (count - c.utf8Size) rest
    else none

/-- What has been typed after one more cluster. -/
def Typed.add? (typed : Typed) (cluster : List Char) : Option Typed :=
  if cluster = [backspace] then
    match typed.sizes with
    | [] => some typed
    | size :: sizes => (withoutBytes? size.toNat typed.text).map fun text => { text, sizes }
  else
    some {
      text := cluster.reverse ++ typed.text
      sizes := (byteLength cluster).toUInt8 :: typed.sizes }

/-- The text that its backspaces leave; `none` if one of them would leave a part of a character. -/
def takeBack? (text : List Char) : Option (List Char) :=
  if text.contains backspace then
    ((clusters text).foldlM Typed.add? {}).map fun typed => typed.text.reverse
  else some text

/-- Whole characters are cut off as one. -/
theorem withoutBytes?_byteLength (cluster text : List Char) :
    withoutBytes? (byteLength cluster) (cluster ++ text) = some text := by
  induction cluster with
  | nil => cases text <;> simp [byteLength, withoutBytes?]
  | cons c cluster ih =>
    have : 0 < c.utf8Size := c.utf8Size_pos
    simp only [byteLength, List.cons_append, withoutBytes?]
    rw [if_neg (by omega), if_pos (by omega), Nat.add_sub_cancel_left, ih]

end Abacus.Console
