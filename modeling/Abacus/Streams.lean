import Abacus.Console.Paint
import Abacus.Machine.Sink

/-! The standard streams of the command line. -/

namespace Abacus

/-- The bytes of the input that are still to be read, the output, and the text of the errors
reported. -/
structure Streams where
  input : List UInt8
  output : Tape := {}
  errors : String := ""

namespace Streams

/-- The streams after a text has been put out. -/
def print (s : Streams) (text : String) : Streams :=
  { s with output := { s.output with written := s.output.written ++ text.toUTF8.data } }

/-- The streams after a line has been put out. -/
def printLine (s : Streams) (text : String) : Streams := s.print (text ++ "\n")

/-- The streams after an error has been reported. -/
def report (s : Streams) (color : Bool) (message : String) : Streams :=
  { s with errors :=
      s.errors ++ Console.paint color (.bold .red) "Error" ++ ": " ++ message ++ "\n" }

end Streams

end Abacus
