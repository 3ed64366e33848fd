/-! Coloured text for a terminal. -/

namespace Abacus.Console

/-- The colours in use. -/
inductive Color where
  | red | yellow | blue | magenta | cyan
  | brightGreen | brightYellow | brightCyan
deriving DecidableEq, Repr

/-- The number by which a terminal knows a colour. -/
def Color.number : Color → Nat
  | red => 31
  | yellow => 33
  | blue => 34
  | magenta => 35
  | cyan => 36
  | brightGreen => 92
  | brightYellow => 93
  | brightCyan => 96

/-- How a piece of text is set off: dimmed, in a colour, or bold and in a colour. -/
inductive Style where
  | dim
  | ink (color : Color)
  | bold (color : Color)
deriving DecidableEq, Repr

/-- The sequence that sets a property of the text that follows. -/
def control (number : Nat) : String := "\x1b[" ++ Nat.repr number ++ "m"

/-- The sequences in front of text in a style. -/
def Style.opening : Style → String
  | dim => control 2
  | ink color => control color.number
  | bold color => control 1 ++ control color.number

/-- The sequences behind text in a style, which undo those in front of it. -/
def Style.closing : Style → String
  | dim => control 0
  | ink _ => control 39
  | bold _ => control 39 ++ control 0

/-- A text in a style. -/
def Style.apply (style : Style) (text : String) : String := style.opening ++ text ++ style.closing

/-- A text in a style, if there are to be colours. -/
def paint (color : Bool) (style : Style) (text : String) : String :=
  if color then style.apply text else text

/-- A piece of a text, in a style or plain. -/
structure Piece where
  style : Option Style
  text : String
deriving DecidableEq, Repr

/-- A piece as a terminal gets it. -/
def Piece.render (piece : Piece) : String :=
  match piece.style with
  | some style => style.apply piece.text
  | none => piece.text

end Abacus.Console
