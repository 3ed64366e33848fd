import Abacus.Text.Utf8

/-! Files: why one cannot be read, and a tree of files held in memory. -/

namespace Abacus

/-- Why a path does not lead to a text. -/
inductive FileError where
  | missing
  | notDirectory
  | isDirectory
  | nameTooLong
  | badName
  | notText
  | other (text : String) (number : Nat)
deriving DecidableEq, Repr

namespace FileError

/-- The text of a file error.  Those of the system end in its number for them. -/
def message : FileError → String
  | missing => "No such file or directory (os error 2)"
  | notDirectory => "Not a directory (os error 20)"
  | isDirectory => "Is a directory (os error 21)"
  | nameTooLong => "File name too long (os error 36)"
  | badName => "file name contained an unexpected NUL byte"
  | notText => "stream did not contain valid UTF-8"
  | other text number => text ++ " (os error " ++ Nat.repr number ++ ")"

/-- Whether the error says that there is nothing at the path. -/
def isAbsence : FileError → Bool
  | missing | notDirectory | nameTooLong | badName => true
  | isDirectory | notText | other _ _ => false

end FileError

/-- A way to read the bytes of the file at a path. -/
abbrev FileReader (m : Type → Type) := String → m (Except FileError (List UInt8))

/-- The text of the file at a path. -/
def FileReader.text {m : Type → Type} [Monad m] (read : FileReader m) (path : String) :
    m (Except FileError String) := do
  match ← read path with
  | .error e => return .error e
  | .ok bytes =>
    match Text.decode? bytes with
    | some text => return .ok text
    | none => return .error .notText

/-- A tree of files: each file under the names that lead to it from the root, and the names that
lead to the working directory.  Every place on the way to one of them is a directory. -/
structure FileTree where
  workingDirectory : List String
  files : List (List String × List UInt8)

namespace FileTree

/-- Whether a place is a directory. -/
def isDirectory (tree : FileTree) (place : List String) : Bool :=
  place.isPrefixOf tree.workingDirectory ||
    tree.files.any fun (path, _) => place.isPrefixOf path && place != path

/-- Whether there is a file at a place. -/
def isFile (tree : FileTree) (place : List String) : Bool := (tree.files.lookup place).isSome

/-- The longest name that a directory can hold, in bytes. -/
def longestName : Nat := 255

/-- The longest path, in bytes. -/
def longestPath : Nat := 4095

/-- The place that a name leads to from another place.  Only a directory leads on; the empty name
and a point stay, two points go up. -/
def enter (tree : FileTree) (place : List String) (name : String) :
    Except FileError (List String) :=
  if !tree.isDirectory place then .error .notDirectory
  else if name = "" ∨ name = "." then .ok place
  else if name = ".." then .ok place.dropLast
  else if longestName < name.utf8ByteSize then .error .nameTooLong
  else
    let next := place ++ [name]
    if tree.isFile next || tree.isDirectory next then .ok next else .error .missing

/-- The place that a path leads to: from the root if it begins with a slash, else from the working
directory. -/
def resolve (tree : FileTree) (path : String) : Except FileError (List String) :=
  if path.toList.any (· == '\x00') then .error .badName
  else if path = "" then .error .missing
  else if longestPath < path.utf8ByteSize then .error .nameTooLong
  else
    let start := if path.toList.head? = some '/' then [] else tree.workingDirectory
    (path.splitOn "/").foldlM tree.enter start

/-- The bytes of the file at a path. -/
def read (tree : FileTree) (path : String) : Except FileError (List UInt8) := do
  match tree.files.lookup (← tree.resolve path) with
  | some bytes => return bytes
  | none => throw .isDirectory

/-- The tree as a way to read files. -/
def reader (tree : FileTree) : FileReader Id := fun path => pure (tree.read path)

end FileTree

end Abacus
