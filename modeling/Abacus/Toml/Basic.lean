import Abacus.Store
import Abacus.Toml.Moment

/-! The items of a TOML document, and how its lines build up its tables. -/

namespace Abacus.Toml

/-- How a table has come about: under a header of its own, only on the way to a table further
inside, through a dotted key, or as an inline value. -/
inductive Form where
  | header
  | parent
  | dotted
  | inline
deriving DecidableEq, Repr

/-- Whether a dotted key may go through a table of this form. -/
def Form.isOpen : Form → Bool
  | parent | dotted => true
  | header | inline => false

/-- What a key stands for.  The tables of an array of tables are the earlier ones and the last one,
which is the one that later lines go on with. -/
inductive Item where
  | text (value : String)
  | integer (value : Int)
  | real (value : Float)
  | boolean (value : Bool)
  | moment (value : Moment)
  | array (items : List Item)
  | table (form : Form) (entries : Store Item)
  | tables (earlier : List (Store Item)) (last : Store Item)

/-- The entries of a table. -/
abbrev Entries := Store Item

/-- A key, dotted or not: the names that lead to a table, and a name in that table. -/
structure Key where
  path : List String
  name : String
deriving DecidableEq, Repr

/-- Changes the table at the end of a path, which begins in a table with the given form and
entries.  Tables that are missing on the path come into being, with the form that `viaDots` tells.
A dotted key cannot go through a table that has a header, no path goes through a value, and a path
through an array of tables goes through its last table. -/
def alterAt (viaDots : Bool) (change : Form → Entries → Option Entries) :
    List String → Form → Entries → Option Entries
  | [], form, entries => change form entries
  | name :: path, _, entries =>
    match entries.get? name with
    | none => do
      let form := if viaDots then Form.dotted else Form.parent
      let inner ← alterAt viaDots change path form ∅
      return entries.set name (.table form inner)
    | some (.table form inner) =>
      if form = .inline ∨ (viaDots ∧ !form.isOpen) then none
      else do
        let inner ← alterAt viaDots change path form inner
        return entries.set name (.table form inner)
    | some (.tables earlier last) => do
      let last ← alterAt viaDots change path .header last
      return entries.set name (.tables earlier last)
    | some _ => none

/-- Puts a value under a key that is not taken.  A dotted key has to end in a table made by dotted
keys, and a plain key in any other table. -/
def insertPair (key : Key) (value : Item) (form : Form) (entries : Entries) : Option Entries :=
  alterAt true (fun form entries =>
    if (form = .dotted ↔ key.path = []) ∨ entries.contains key.name then none
    else some (entries.set key.name value)) key.path form entries

/-- Opens the table of a header: a new one, or one that so far was only on the way to others and
that now takes the last place. -/
def openTable (key : Key) (entries : Entries) : Option Entries :=
  alterAt false (fun _ entries =>
    match entries.get? key.name with
    | none => some (entries.set key.name (.table .header ∅))
    | some (.table .parent inner) =>
      some ((entries.erase key.name).set key.name (.table .header inner))
    | some _ => none) key.path .header entries

/-- Opens one more table of an array of tables. -/
def openElement (key : Key) (entries : Entries) : Option Entries :=
  alterAt false (fun _ entries =>
    match entries.get? key.name with
    | none => some (entries.set key.name (.tables [] ∅))
    | some (.tables earlier last) =>
      some (entries.set key.name (.tables (earlier ++ [last]) ∅))
    | some _ => none) key.path .header entries

/-- A line that says something: the header of a table, the header of one more table of an array,
or a key with its value. -/
inductive Line where
  | header (key : Key)
  | element (key : Key)
  | pair (key : Key) (value : Item)

/-- A document after some of its lines: its entries, and the path to the table that the next
keys go to. -/
structure Draft where
  entries : Entries := ∅
  path : List String := []

/-- The document after one more line. -/
def Draft.add (draft : Draft) : Line → Option Draft
  | .header key => do
    return { entries := ← openTable key draft.entries, path := key.path ++ [key.name] }
  | .element key => do
    return { entries := ← openElement key draft.entries, path := key.path ++ [key.name] }
  | .pair key value => do
    return { draft with
      entries := ← alterAt false (insertPair key value) draft.path .header draft.entries }

end Abacus.Toml
