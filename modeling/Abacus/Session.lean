import Abacus.Code.Emit
import Abacus.Machine.Basic
import Abacus.Scope
import Abacus.Token.Stream
import Abacus.Tree.Parse

/-! Sources to code to runs: what one source compiles to, and sessions in which sources share their
declarations and variables. -/

namespace Abacus

/-- Why a source has no result, by the stage that finds it. -/
inductive Error where
  | scan (cause : ScanError)
  | parse (cause : SyntaxError)
  | scope (cause : ScopeError)
  | emit (cause : EmitError)
  | run (cause : RuntimeError)
deriving DecidableEq, Repr

/-- The text of an error. -/
def Error.message : Error → String
  | scan cause => cause.message
  | parse cause => cause.message
  | scope cause => cause.message
  | emit cause => cause.message
  | run cause => cause.message

/-- The program that a source spells. -/
def Program.ofSource (source : String) : Except Error Program := do
  let tokens ← (Token.scan source).mapError .scan
  (Program.ofTokens tokens).mapError .parse

/-- The code of a source, given what is declared before it, and what is declared behind it. -/
def compileIn (scope : Scope) (source : String) : Except Error Code × Scope :=
  match Program.ofSource source with
  | .error e => (.error e, scope)
  | .ok program =>
    match scope.check program with
    | (.error e, scope) => (.error (.scope e), scope)
    | (.ok (), scope) => (program.code.mapError .emit, scope)

/-- The code of a source that stands alone. -/
def compile (source : String) : Except Error Code := (compileIn {} source).1

/-- A session: what has been declared in it, and the machine that runs its code. -/
structure Session where
  scope : Scope := {}
  machine : Machine := {}

namespace Session

/-- The code of a source in a session, and the session with the declarations of the source. -/
def compile (session : Session) (source : String) : Except Error Code × Session :=
  let (result, scope) := compileIn session.scope source
  (result, { session with scope })

/-- The session with every declaration and every value forgotten. -/
def reset (_ : Session) : Session := {}

/-- What a request to a session comes to: its result, the session after it, and what it leaves of
the input and makes of the output. -/
structure Reply (ρ σ α : Type) where
  result : Except Error α
  session : Session
  feed : ρ
  sink : σ

variable {ρ σ : Type} [Intake ρ] [Sink σ]

/-- Runs code in a session; `none` if it takes more than `fuel` steps. -/
def execute? (session : Session) (code : Code) (fuel : Nat) (feed : ρ) (sink : σ) :
    Option (Reply ρ σ Unit) :=
  (session.machine.execute? code fuel (Channels.mk feed sink)).map fun halt =>
    { result := halt.result.mapError .run
      session := { session with machine := halt.state.toMachine }
      feed := halt.state.port.feed
      sink := halt.state.port.sink }

/-- Compiles a source in a session and runs its code, if there is code. -/
def eval? (session : Session) (source : String) (fuel : Nat) (feed : ρ) (sink : σ) :
    Option (Reply ρ σ Code) :=
  match session.compile source with
  | (.error e, session) => some { result := .error e, session, feed, sink }
  | (.ok code, session) =>
    (session.execute? code fuel feed sink).map fun reply =>
      { reply with result := reply.result.map fun _ => code }

end Session

end Abacus
