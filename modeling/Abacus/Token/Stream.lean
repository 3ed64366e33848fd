import Abacus.Token.Layout
import Abacus.Token.Lexeme

/-! Scanning: a source cut into tokens with their places in it. -/

namespace Abacus

/-- Why a source cannot be scanned: a character that begins no token, or an operator without the
equals sign that completes it; each with its byte offset. -/
inductive ScanError where
  | unexpectedChar (char : Char) (position : Nat)
  | malformedOperator (char : Char) (position : Nat)
deriving DecidableEq, Repr

namespace ScanError

/-- The text of a scan error. -/
def message : ScanError → String
  | unexpectedChar c position =>
    s!"lexical error at position {position}: unexpected character '{c}'"
  | malformedOperator c position =>
    s!"lexical error at position {position}: '{c}' must be followed by '='"

end ScanError

namespace Token

open Text

/-- A place in a source: the text ahead, its byte offset, and whether the sequence of tokens has
come to its end. -/
structure Stream where
  rest : List Char
  offset : Nat
  finished : Bool
deriving DecidableEq, Repr

namespace Stream

/-- The start of a source. -/
def ofSource (source : String) : Stream := ⟨source.toList, 0, false⟩

/-- Why no token begins with the character `c`. -/
def refusal (c : Char) (position : Nat) : ScanError :=
  if c = '!' then .malformedOperator c position else .unexpectedChar c position

/-- The next token behind the layout ahead.  At the end of the source it is always the end token.
After an error the stream goes on behind the character that begins no token. -/
def next (s : Stream) : Except ScanError Token × Stream :=
  let (layout, ahead) := cutLayout false s.rest
  let start := s.offset + byteLength layout
  match ahead with
  | [] => (.ok ⟨.eof, "", ⟨start, start⟩⟩, ⟨[], start, true⟩)
  | c :: tail =>
    match Lexeme.read? (c :: tail) with
    | some lexeme =>
      let stop := start + byteLength lexeme.chars
      (.ok ⟨lexeme.kind, String.ofList lexeme.chars, ⟨start, stop⟩⟩,
        ⟨lexeme.rest, stop, s.finished⟩)
    | none => (.error (refusal c start), ⟨tail, start + c.utf8Size, s.finished⟩)

/-- The next item of the sequence of tokens, which ends before the end token and behind the first
error. -/
def nextItem? (s : Stream) : Option (Except ScanError Token) × Stream :=
  if s.finished then (none, s)
  else
    match s.next with
    | (.ok token, after) => if token.isEof then (none, after) else (some (.ok token), after)
    | (.error e, after) => (some (.error e), { after with finished := true })

theorem length_next_lt {s after : Stream} {token : Token} (h : s.next = (.ok token, after))
    (inside : token.isEof = false) : after.rest.length < s.rest.length := by
  have ahead_le := length_cutLayout_le false s.rest
  unfold next at h
  simp only at h
  split at h
  · cases h; cases inside
  · next c tail ahead =>
    rw [ahead] at ahead_le
    split at h
    · next lexeme found =>
      cases h
      have := Lexeme.length_rest_lt found
      simp only at ahead_le this ⊢
      omega
    · cases h

/-- All tokens from here on, the end token included, or the first error. -/
def tokens (s : Stream) : Except ScanError (List Token) :=
  match step : s.next with
  | (.error e, _) => .error e
  | (.ok token, after) =>
    if inside : token.isEof = true then .ok [token]
    else
      have := length_next_lt step (by simpa using inside)
      after.tokens.map (token :: ·)
termination_by s.rest.length

end Stream

/-- The tokens of a source, followed by the end token. -/
def scan (source : String) : Except ScanError (List Token) := (Stream.ofSource source).tokens

end Token

end Abacus
