/-! Bytes read as UTF-8 text.  `decodeLossy` reads any bytes: the longest start of a character
that is never completed, and each byte that cannot begin one, become a replacement character. -/

namespace Abacus.Text

/-- The character that stands for bytes that are no text. -/
def replacement : Char := '�'

/-- A character of which `missing` bytes are to come: `code` is the value so far, and the next
byte has to lie between `low` and `high`. -/
structure OpenChar where
  code : Nat
  missing : Nat
  low : UInt8
  high : UInt8

/-- What a byte at the start of a character gives: a character of its own, or a character to be
completed.  The bounds on the second byte leave out overlong forms, surrogates and values above
the last code point. -/
def beginChar (b : UInt8) : List Char × Option OpenChar :=
  let pending (code missing : Nat) (low high : UInt8) : List Char × Option OpenChar :=
    ([], some ⟨code, missing, low, high⟩)
  if b < 0x80 then ([Char.ofNat b.toNat], none)
  else if b < 0xC2 then ([replacement], none)
  else if b < 0xE0 then pending (b.toNat - 0xC0) 1 0x80 0xBF
  else if b = 0xE0 then pending 0 2 0xA0 0xBF
  else if b = 0xED then pending 0xD 2 0x80 0x9F
  else if b < 0xF0 then pending (b.toNat - 0xE0) 2 0x80 0xBF
  else if b = 0xF0 then pending 0 3 0x90 0xBF
  else if b < 0xF4 then pending (b.toNat - 0xF0) 3 0x80 0xBF
  else if b = 0xF4 then pending 4 3 0x80 0x8F
  else ([replacement], none)

/-- One more byte: the characters that are settled by it, and the character left open. -/
def feedByte (state : Option OpenChar) (b : UInt8) : List Char × Option OpenChar :=
  match state with
  | none => beginChar b
  | some p =>
    if p.low ≤ b ∧ b ≤ p.high then
      let code := p.code * 64 + (b.toNat - 0x80)
      if p.missing ≤ 1 then ([Char.ofNat code], none)
      else ([], some ⟨code, p.missing - 1, 0x80, 0xBF⟩)
    else
      let next := beginChar b
      (replacement :: next.1, next.2)

/-- The characters of the bytes that follow a character left open. -/
def decodeFrom (state : Option OpenChar) : List UInt8 → List Char
  | [] => if state.isSome then [replacement] else []
  | b :: rest =>
    let next := feedByte state b
    next.1 ++ decodeFrom next.2 rest

/-- The text of the bytes, with a replacement character for each part that is no UTF-8. -/
def decodeLossy (bytes : List UInt8) : String := String.ofList (decodeFrom none bytes)

/-- The text of the bytes, if they are UTF-8. -/
def decode? (bytes : List UInt8) : Option String := String.fromUTF8? ⟨bytes.toArray⟩

/-- The bytes of a text. -/
def encode (text : String) : List UInt8 := text.toUTF8.data.toList

end Abacus.Text
