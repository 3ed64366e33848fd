import Abacus.Text.Utf8

/-! Output: what any sink for text can do, and a sink that keeps what is written to it. -/

namespace Abacus

/-- Something that text can be written to.  Writing and flushing may fail with a message, and leave
the sink as it is then. -/
class Sink (σ : Type) where
  write : String → EStateM String σ Unit
  flush : EStateM String σ Unit

/-- A sink that keeps the bytes written to it and counts the flushes.  It may have room only for a
number of bytes, and one of its flushes may fail. -/
structure Tape where
  written : Array UInt8 := #[]
  room : Option Nat := none
  fullMessage : String := ""
  flushes : Nat := 0
  failingFlush : Option Nat := none
  flushMessage : String := ""

namespace Tape

/-- Writes what there is room for.  A rest without room is a failure. -/
def write (text : String) : EStateM String Tape Unit := fun tape =>
  let bytes := text.toUTF8.data
  match tape.room with
  | none => .ok () { tape with written := tape.written ++ bytes }
  | some room =>
    let after := { tape with
      written := tape.written ++ bytes.take room, room := some (room - bytes.size) }
    if bytes.size ≤ room then .ok () after else .error tape.fullMessage after

/-- Counts a flush. -/
def flush : EStateM String Tape Unit := fun tape =>
  let after := { tape with flushes := tape.flushes + 1 }
  if tape.failingFlush = some after.flushes then .error tape.flushMessage after else .ok () after

instance : Sink Tape := ⟨write, flush⟩

end Tape

end Abacus
