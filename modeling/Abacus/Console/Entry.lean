import Abacus.Console.Backspace
import Abacus.Text.Utf8

/-! Entries of the console: whether an entry is complete, or goes on in the next line. -/

namespace Abacus.Console

open Text

/-- A line up to its comment. -/
def uncommented : List Char → List Char
  | [] => []
  | c :: rest => if c == '/' && rest.head? == some '/' then [] else c :: uncommented rest

/-- A text without the comment in its last line. -/
def withoutComment (text : List Char) : List Char :=
  let front := (text.reverse.dropWhile (· != '\n')).reverse
  let last := (text.reverse.takeWhile (· != '\n')).reverse
  front ++ uncommented last

/-- The brackets that have to be closed after a text, the innermost first, if those in `expected`
had to be closed before it.  There is no answer if a bracket is closed that is not the innermost
one. -/
def closers? (expected : List Char) : List Char → Option (List Char)
  | [] => some expected
  | c :: rest =>
    if c = '(' then closers? (')' :: expected) rest
    else if c = '\x7b' then closers? ('\x7d' :: expected) rest
    else if c = ')' ∨ c = '\x7d' then
      match expected with
      | [] => none
      | closer :: expected => if closer = c then closers? expected rest else none
    else closers? expected rest

/-- Whether no bracket outside comments waits to be closed.  A text in which a wrong bracket is
closed does not wait for anything. -/
def isBalanced (text : List Char) : Bool :=
  match closers? [] ((splitLines text).flatMap uncommented) with
  | some expected => expected.isEmpty
  | none => true

/-- Whether a text, without the comment in its last line, ends in an operator or in an opening
bracket. -/
def endsOpen (text : List Char) : Bool :=
  (trimEnd (withoutComment text)).getLast?.any
    (· ∈ ['+', '-', '*', '/', '=', '<', '>', '(', '\x7b'])

/-- Whether an entry is complete.  Commands always are. -/
def isComplete (text : List Char) : Bool :=
  (trimStart text).head? == some '.' || (isBalanced text && !endsOpen text)

/-- What reading an entry gives: an entry, bytes that are no text, a backspace that would leave a
part of a character, or the end of the input. -/
inductive Reading where
  | entry (text : List Char)
  | garbled
  | torn
  | ended
deriving DecidableEq, Repr

/-- The first line of the bytes, with its line feed if it has one, and the bytes behind it. -/
def firstLine : List UInt8 → List UInt8 × List UInt8
  | [] => ([], [])
  | b :: rest =>
    if b = 0x0A then ([b], rest)
    else
      let (line, behind) := firstLine rest
      (b :: line, behind)

/-- Nothing is lost at the end of the line. -/
theorem firstLine_append (bytes : List UInt8) :
    (firstLine bytes).1 ++ (firstLine bytes).2 = bytes := by
  induction bytes with
  | nil => rfl
  | cons b rest ih =>
    by_cases h : b = 0x0A
    · simp [firstLine, h]
    · simp [firstLine, h, ih]

theorem length_firstLine_lt (b : UInt8) (rest : List UInt8) :
    (firstLine (b :: rest)).2.length < (b :: rest).length := by
  induction rest generalizing b with
  | nil => by_cases h : b = 0x0A <;> simp [firstLine, h]
  | cons c rest ih =>
    by_cases h : b = 0x0A
    · simp [firstLine, h]
    · rw [firstLine, if_neg h]
      exact Nat.lt_succ_of_lt (ih c)

/-- A line cut in front of its ending: a line feed, behind a carriage return or not. -/
def cutEnding (line : List Char) : List Char × List Char :=
  match line.reverse with
  | '\n' :: '\r' :: body => (body.reverse, ['\r', '\n'])
  | '\n' :: body => (body.reverse, ['\n'])
  | _ => (line, [])

/-- Nothing is lost before the ending. -/
theorem cutEnding_append (line : List Char) : (cutEnding line).1 ++ (cutEnding line).2 = line := by
  unfold cutEnding
  split
  · next body h => rw [← List.reverse_reverse line, h]; simp
  · next body h => rw [← List.reverse_reverse line, h]; simp
  · simp

/-- Reads an entry that begins with the characters of `start`: lines, until the entry is complete.
The ending of the last line is dropped, and backspaces take back also what earlier lines brought.
An entry that is not complete at the end of the input is lost. -/
def readEntry (start : List Char) : List UInt8 → Reading × List UInt8
  | [] => (.ended, [])
  | b :: rest =>
    let behind := (firstLine (b :: rest)).2
    match Text.decode? (firstLine (b :: rest)).1 with
    | none => (.garbled, behind)
    | some line =>
      let (body, ending) := cutEnding line.toList
      match takeBack? (start ++ body) with
      | none => (.torn, behind)
      | some text =>
        if isComplete text then (.entry text, behind) else readEntry (text ++ ending) behind
termination_by input => input.length
decreasing_by exact length_firstLine_lt b rest

end Abacus.Console
