import Abacus.Toml.Disguise

/-! TOML documents: keys, values that hold others, lines, and the table that a text stands for. -/

namespace Abacus.Toml

open Reader

/-- How many arrays and inline tables may stand inside each other, and how many names a key may
have. -/
def depthLimit : Nat := 79

/-- A name in a key: bare or in quotes. -/
def keyName : Reader String :=
  (String.ofList <$> span1 (fun c => c.isAlphanum || c == '_' || c == '-')) <|> quoted <|> literal

/-- A key: names with points between them. -/
def key : Reader Key := do
  let names ← separated1 (blanks *> keyName <* blanks) (mark '.')
  match names.getLast? with
  | some name =>
    if names.length ≤ depthLimit then return { path := names.dropLast, name } else failure
  | none => failure

/-- A key and its value. -/
def keyed (value : Reader Item) : Reader (Key × Item) := do
  let key ← key
  mark '='
  blanks
  return (key, ← value)

/-- An array.  It may go over several lines and have a comma behind its last item. -/
def array (value : Reader Item) : Reader Item := do
  let filled : Reader (List Item) := do
    let items ← separated1 (gap *> value <* gap) (mark ',')
    let _ ← optional? (mark ',')
    return items
  mark '['
  let items ← filled <|> pure []
  gap
  mark ']'
  return .array items

/-- An inline table. -/
def inlineTable (value : Reader Item) : Reader Item := do
  mark '\x7b'
  let pairs ← separated1 (keyed value <* blanks) (mark ',') <|> pure []
  blanks
  mark '\x7d'
  let entries ← pairs.foldlM (fun entries (key, item) => insertPair key item .inline entries) ∅
  return .table .inline entries

/-- A value with at most `levels` arrays and inline tables inside each other. -/
def value : (levels : Nat) → Reader Item
  | 0 => scalar
  | levels + 1 => array (value levels) <|> inlineTable (value levels) <|> scalar

/-- The content of a line. -/
def content : Reader Line :=
  (do
    word "[["
    let key ← key
    word "]]"
    return .element key) <|>
  (do
    mark '['
    let key ← key
    mark ']'
    return .header key) <|>
  (do
    let (key, item) ← keyed (value depthLimit)
    return .pair key item)

/-- A line, which may be empty, with a comment or without. -/
def line : Reader (Option Line) := do
  blanks
  let found ← optional? content
  blanks
  let _ ← optional? comment
  return found

/-- The lines of a document, behind a byte order mark or not. -/
def document : Reader (List Line) := do
  let _ ← optional? (mark '\ufeff')
  let lines ← separated1 line lineEnd
  done
  return lines.reduceOption

/-- The table that a text stands for, if it is a document. -/
def parse? (text : String) : Option Entries := do
  let (lines, _) ← document text.toList
  let draft ← lines.foldlM Draft.add {}
  return ⟨← unmaskEntries? draft.entries.entries⟩

end Abacus.Toml
