import Abacus.Toml.Scalar

/-! Dates and times in disguise: a table whose first key is `momentKey` stands for the date or time
that is written under that key.  This holds for every table inside a document, while the document
itself is always a table. -/

namespace Abacus.Toml

/-- The key that makes a table stand for a date or a time, if it is the table's first key. -/
def momentKey : String := "$__toml_private_datetime"

/-- What a disguise hides, given the item under the first key: the date or time that a string
spells.  Nothing else can be hidden. -/
def hidden? : Item → Option Item
  | .text value => Item.moment <$> moment? value
  | _ => none

/-- The item under the first key, if the entries are those of a disguise. -/
def disguise? : List (String × Item) → Option Item
  | (name, item) :: _ => if name = momentKey then some item else none
  | [] => none

mutual

/-- The item with every disguise in it taken off; `none` if one of them hides nothing.  What stands
beside the first key of a disguise has no meaning. -/
def Item.unmask? : Item → Option Item
  | .array items => return .array (← unmaskItems? items)
  | .table form table => unmaskTable? form table
  | .tables earlier last => do
    let earlier ← unmaskTables? earlier
    return .array (earlier ++ [← unmaskTable? .header last])
  | item => some item
termination_by structural item => item

/-- The items of an array with the disguises taken off. -/
def unmaskItems? : List Item → Option (List Item)
  | [] => some []
  | item :: rest => return (← item.unmask?) :: (← unmaskItems? rest)
termination_by structural items => items

/-- What a table inside a document stands for: itself, or a date or time. -/
def unmaskTable? (form : Form) : Store Item → Option Item
  | ⟨entries⟩ =>
    match disguise? entries with
    | some item => hidden? item
    | none => return .table form ⟨← unmaskEntries? entries⟩
termination_by structural table => table

/-- The entries of a table with the disguises taken off. -/
def unmaskEntries? : List (String × Item) → Option (List (String × Item))
  | [] => some []
  | entry :: rest => return (← unmaskEntry? entry) :: (← unmaskEntries? rest)
termination_by structural entries => entries

/-- An entry with the disguises in its item taken off. -/
def unmaskEntry? : String × Item → Option (String × Item)
  | (name, item) => return (name, ← item.unmask?)
termination_by structural entry => entry

/-- The tables of an array of tables with the disguises taken off. -/
def unmaskTables? : List (Store Item) → Option (List Item)
  | [] => some []
  | table :: rest => return (← unmaskTable? .header table) :: (← unmaskTables? rest)
termination_by structural tables => tables

end

end Abacus.Toml
