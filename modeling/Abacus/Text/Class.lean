import Abacus.Text.NameStart
import Abacus.Text.NameExtend
import Abacus.Text.WordExtra

/-! The character classes of the language and of its console: white space, the characters of names,
and alphanumeric characters.  Each class is a rule on ASCII and a table outside it. -/

namespace Abacus.Text

/-- White space outside ASCII. -/
def blankRanges : Ranges :=
  [(0x85, 0x85), (0xA0, 0xA0), (0x1680, 0x1680), (0x2000, 0x200A), (0x2028, 0x2029),
   (0x202F, 0x202F), (0x205F, 0x205F), (0x3000, 0x3000)]

/-- White space: the blank, the controls from tab to carriage return, and the Unicode spaces. -/
def isBlank (c : Char) : Bool :=
  c == ' ' || ('\t' ≤ c && c ≤ '\r') || blankRanges.has c

/-- A name begins with a letter or an underscore. -/
def isNameStart (c : Char) : Bool :=
  c == '_' || c.isAlpha || nameStartRanges.has c

/-- A name goes on with letters, underscores, digits and combining marks. -/
def isNameChar (c : Char) : Bool :=
  isNameStart c || c.isDigit || nameExtendRanges.has c

/-- Letters, marks that count as letters, and numbers of every kind.  The two symbols that may
begin a name without being letters are left out. -/
def isAlphanumeric (c : Char) : Bool :=
  c.isAlphanum || (nameStartRanges.has c && c != '℘' && c != '℮') || wordExtraRanges.has c

/-- In ASCII only the rule counts. -/
theorem isNameStart_of_ascii {c : Char} (h : c.toNat < 128) :
    isNameStart c = (c == '_' || c.isAlpha) := by
  have outside := Ranges.has_of_lt (by decide +kernel : nameStartRanges.all (128 ≤ ·.1) = true) h
  rw [isNameStart, outside, Bool.or_false]

theorem isNameChar_of_ascii {c : Char} (h : c.toNat < 128) :
    isNameChar c = (c == '_' || c.isAlpha || c.isDigit) := by
  have outside := Ranges.has_of_lt (by decide +kernel : nameExtendRanges.all (128 ≤ ·.1) = true) h
  rw [isNameChar, isNameStart_of_ascii h, outside, Bool.or_false]

theorem isBlank_of_isWhitespace {c : Char} (h : c.isWhitespace = true) : isBlank c = true := by
  simp only [Char.isWhitespace, Bool.or_eq_true, decide_eq_true_eq] at h
  rcases h with ((rfl | rfl) | rfl) | rfl <;> decide

theorem isNameStart_of_isAlpha {c : Char} (h : c.isAlpha = true) : isNameStart c = true := by
  simp [isNameStart, h]

theorem isNameChar_of_isNameStart {c : Char} (h : isNameStart c = true) :
    isNameChar c = true := by
  simp [isNameChar, h]

theorem isAlphanumeric_of_isAlphanum {c : Char} (h : c.isAlphanum = true) :
    isAlphanumeric c = true := by
  simp [isAlphanumeric, h]

end Abacus.Text
