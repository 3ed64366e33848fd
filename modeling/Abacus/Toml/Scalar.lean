import Abacus.Number.Text
import Abacus.Toml.Basic
import Abacus.Toml.Reader

/-! Values of TOML that hold no others: strings, numbers, truth values, dates and times. -/

namespace Abacus.Toml

open Reader

/-- The value of a digit in a base of at most sixteen. -/
def digitValue? (base : Nat) (c : Char) : Option Nat :=
  let value :=
    if c.isDigit then c.toNat - '0'.toNat
    else if 'a' ≤ c ∧ c ≤ 'f' then c.toNat - 'a'.toNat + 10
    else if 'A' ≤ c ∧ c ≤ 'F' then c.toNat - 'A'.toNat + 10
    else 16
  if value < base then some value else none

/-- Whether a character is a digit in a base. -/
def isDigitIn (base : Nat) (c : Char) : Bool := (digitValue? base c).isSome

/-- The number that digits stand for in a base. -/
def valueOf (base : Nat) (digits : List Char) : Nat :=
  digits.foldl (fun value c => value * base + (digitValue? base c).getD 0) 0

/-- As many digits as asked for. -/
def fixedDigits (base : Nat) : (count : Nat) → Reader (List Char)
  | 0 => pure []
  | count + 1 => do
    let c ← one (isDigitIn base)
    let cs ← fixedDigits base count
    return c :: cs

/-- A character given by the digits of its code point. -/
def codePoint (count : Nat) : Reader Char := do
  let code := valueOf 16 (← fixedDigits 16 count)
  if code.isValidChar then return Char.ofNat code else failure

/-- A character behind a backslash. -/
def escape : Reader Char := do
  mark '\\'
  match ← one fun _ => true with
  | 'b' => return '\x08'
  | 't' => return '\t'
  | 'n' => return '\n'
  | 'f' => return '\x0c'
  | 'r' => return '\r'
  | '"' => return '"'
  | '\\' => return '\\'
  | 'u' => codePoint 4
  | 'U' => codePoint 8
  | _ => failure

/-- A string in double quotes, in one line. -/
def quoted : Reader String := do
  mark '"'
  let cs ← many (one (fun c => isPlain c && c != '"' && c != '\\') <|> escape)
  mark '"'
  return String.ofList cs

/-- A string in single quotes, in one line and without escapes. -/
def literal : Reader String := do
  mark '\''
  let cs ← span fun c => isPlain c && c != '\''
  mark '\''
  return String.ofList cs

/-- What stands between triple quotes: the pieces of text, each a single piece for `piece` or one
or two quotes, up to three quotes.  Up to two more quotes right in front of these belong to the
text. -/
def tripleQuoted (quote : Char) (piece : Reader (List Char)) : Reader String := do
  let fence := mark quote *> mark quote *> mark quote
  let run := span1 (· == quote)
  let inner : Reader (List Char) := do
    let quotes ← run
    if quotes.length < 3 then return quotes else failure
  fence
  let _ ← optional? lineEnd
  let pieces ← many (piece <|> inner)
  let closing ← run
  if closing.length ≤ 5 then
    return String.ofList (pieces.flatten ++ closing.drop 3)
  else failure

/-- A line end in a string is a line feed. -/
def lineFeed : Reader (List Char) := do
  lineEnd
  return ['\n']

/-- A backslash at the end of a line takes away the white space up to the next text. -/
def continuation : Reader (List Char) := do
  mark '\\'
  blanks
  lineEnd
  let _ ← many ((span1 (fun c => c == ' ' || c == '\t') *> pure ()) <|> lineEnd)
  return []

/-- A string over several lines, with escapes. -/
def longQuoted : Reader String :=
  tripleQuoted '"' (span1 (fun c => isPlain c && c != '"' && c != '\\') <|> lineFeed <|>
    continuation <|> (List.singleton <$> escape))

/-- A string over several lines, without escapes. -/
def longLiteral : Reader String :=
  tripleQuoted '\'' (span1 (fun c => isPlain c && c != '\'') <|> lineFeed)

/-- Digits with at most one underscore between two of them. -/
def digits (base : Nat) : Reader (List Char) := do
  let digit := one (isDigitIn base)
  let first ← digit
  let rest ← many (digit <|> (mark '_' *> digit))
  return first :: rest

/-- A plus or a minus, or none. -/
def sign : Reader (Option Char) := optional? (one fun c => c == '+' || c == '-')

/-- A decimal number without a zero in front. -/
def whole : Reader (List Char) := do
  let cs ← digits 10
  if cs.head? = some '0' ∧ cs ≠ ['0'] then failure else return cs

/-- An integer of 64 bits, in one of four bases.  Only a decimal one may have a sign. -/
def integer : Reader Int := do
  let inBase (mark : String) (base : Nat) : Reader Int := do
    word mark
    return valueOf base (← digits base)
  let decimal : Reader Int := do
    let negative := (← sign) == some '-'
    let value : Int := valueOf 10 (← whole)
    return if negative then -value else value
  let value ← inBase "0x" 16 <|> inBase "0o" 8 <|> inBase "0b" 2 <|> decimal
  if -0x8000000000000000 ≤ value ∧ value < 0x8000000000000000 then return value else failure

/-- A number with a fraction or an exponent.  One that is too large for a double is none, unless
it is negative. -/
def fractional : Reader Float := do
  let exponent : Reader Unit := do
    let _ ← one fun c => c == 'e' || c == 'E'
    let _ ← sign
    let _ ← digits 10
  let fraction : Reader Unit := do
    mark '.'
    let _ ← digits 10
  let written ← spelling do
    let _ ← sign
    let _ ← whole
    exponent <|> (do fraction; let _ ← optional? exponent)
  match Number.read? (String.ofList (written.filter (· != '_'))) with
  | some value =>
    if Number.magnitude value = Number.infinity ∧ ¬ Number.isNegative value then failure
    else return value
  | none => failure

/-- Infinity or no number, with a sign or without. -/
def special : Reader Float := do
  let written ← spelling do
    let _ ← sign
    word "inf" <|> word "nan"
  match Number.read? (String.ofList written) with
  | some value => return value
  | none => failure

/-- A number of two digits within bounds. -/
def pair (low high : Nat) : Reader Nat := do
  let value := valueOf 10 (← fixedDigits 10 2)
  if low ≤ value ∧ value ≤ high then return value else failure

/-- The number of days of a month. -/
def daysIn (year month : Nat) : Nat :=
  if month = 2 then
    if year % 4 = 0 ∧ (year % 100 ≠ 0 ∨ year % 400 = 0) then 29 else 28
  else if month ∈ [4, 6, 9, 11] then 30
  else 31

/-- A day of the calendar. -/
def date : Reader Date := do
  let year := valueOf 10 (← fixedDigits 10 4)
  mark '-'
  let month ← pair 1 12
  mark '-'
  let day ← pair 1 (daysIn year month)
  return { year, month, day }

/-- The nanoseconds that the digits of a fraction stand for.  Digits behind the ninth are
dropped. -/
def nanoseconds (digits : List Char) : Nat := valueOf 10 ((digits ++ List.replicate 9 '0').take 9)

/-- A time of the day; a minute may have a leap second. -/
def time : Reader Time := do
  let hour ← pair 0 23
  mark ':'
  let minute ← pair 0 59
  mark ':'
  let second ← pair 0 60
  let fraction ← optional? (mark '.' *> span1 Char.isDigit)
  return { hour, minute, second, nanosecond := nanoseconds (fraction.getD []) }

/-- The distance of a local time from universal time. -/
def offset : Reader Offset :=
  (one (fun c => c == 'Z' || c == 'z') *> pure .universal) <|> do
    let sign ← one fun c => c == '+' || c == '-'
    let hours ← pair 0 23
    mark ':'
    let minutes ← pair 0 59
    let distance : Int := hours * 60 + minutes
    return .ahead (if sign = '-' then -distance else distance)

/-- A date, a date with a time, or a time. -/
def moment : Reader Moment := do
  let timed (date : Date) : Reader Moment := do
    let _ ← one fun c => c == 'T' || c == 't' || c == ' '
    let time ← time
    return .instant date time (← optional? offset)
  let dated : Reader Moment := do
    let date ← date
    timed date <|> pure (.day date)
  dated <|> (Moment.clock <$> time)

/-- The date or time that a text stands for as a whole. -/
def moment? (text : String) : Option Moment :=
  ((moment <* done).run text.toList).map (·.1)

/-- A value that holds no others. -/
def scalar : Reader Item :=
  (Item.text <$> (longQuoted <|> quoted <|> longLiteral <|> literal)) <|>
  (Item.moment <$> moment) <|>
  (Item.real <$> (fractional <|> special)) <|>
  (Item.integer <$> integer) <|>
  (word "true" *> pure (Item.boolean true)) <|>
  (word "false" *> pure (Item.boolean false))

end Abacus.Toml
