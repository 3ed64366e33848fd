import Abacus.Code.Emit
import Abacus.CommandLine.Run
import Abacus.Console.Line
import Abacus.Console.Loop
import Abacus.Main
import Abacus.Session
import Abacus.Settings
import Abacus.Proofs.Code.Jumps
import Abacus.Proofs.Code.Layout
import Abacus.Proofs.Machine.Runs
import Abacus.Proofs.Machine.Simulation
import Abacus.Proofs.Machine.StackDepth
import Abacus.Proofs.Scope.Events
import Abacus.Proofs.Session.Batch
import Abacus.Proofs.Token.Lossless
import Abacus.Proofs.Token.Scans
import Abacus.Proofs.Tree.Grammar
import Abacus.Proofs.Tree.Reading
import Abacus.Proofs.Tree.Soundness
import Abacus.Proofs.Tree.Completeness
import Abacus.Proofs.Machine.Writes
import Abacus.Proofs.Session.Requests
import Abacus.Proofs.Session.Declared
import Abacus.Proofs.Token.Printing
import Abacus.Proofs.Tree.Progress
import Abacus.Proofs.Tree.Locality
import Abacus.Proofs.Session.Layout
import Abacus.Proofs.Tree.Language
import Abacus.Proofs.Tree.Prediction
import Abacus.Proofs.Code.Relocation
import Abacus.Proofs.Token.Longest
import Abacus.Proofs.Token.Lines
import Abacus.Proofs.Token.Sequence
import Abacus.Proofs.Machine.Portions
import Abacus.Proofs.Machine.Truncation
import Abacus.Proofs.Machine.Forward
import Abacus.Proofs.Machine.AnyCode
import Abacus.Proofs.Tree.Calls
import Abacus.Proofs.Tree.Height
import Abacus.Proofs.Number.Order
import Abacus.Proofs.Number.Digits
import Abacus.Proofs.Number.ReadBack
import Abacus.Proofs.Code.Operands
import Abacus.Proofs.Tree.Numbers
import Abacus.Proofs.Code.Listing
import Abacus.Proofs.Tree.Display
import Abacus.Proofs.Console.Brackets
import Abacus.Proofs.Console.Entries
import Abacus.Proofs.Settings.Merge
import Abacus.Proofs.Settings.Environment
import Abacus.Proofs.Console.Colours
import Abacus.Proofs.Console.Completion
import Abacus.Proofs.Console.Comments
import Abacus.Proofs.Tree.Ends
