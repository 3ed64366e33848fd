import Abacus.Proofs.Code.Operands
import Abacus.Proofs.Machine.Writes
import Abacus.Proofs.Session.Requests

/-! What is stored is declared.  The names in the code of a program are names in its spelling, and
once the program has passed the check all of these are declared.  Declarations stay until the
session is reset.  So a session that runs only its own code has a declaration for each of its
variables, also behind runs that failed. -/

namespace Abacus

/-- An instruction that takes a name has one with the property. -/
def Instr.Names (P : String → Prop) (i : Instr) : Prop :=
  i.op.operand = .name → ∃ name, i.name = some name ∧ P name

namespace Instr

variable {P P' : String → Prop} {i : Instr}

theorem Names.mono (h : i.Names P) (hImp : ∀ name, P name → P' name) : i.Names P' := by
  intro takes
  obtain ⟨name, hName, hP⟩ := h takes
  exact ⟨name, hName, hImp name hP⟩

theorem MadeOf.names {marks : List Mark} (h : MadeOf marks i)
    (hNames : ∀ name, .name name ∈ marks → P name) : i.Names P := by
  intro takes
  cases h with
  | zero | constant => cases takes
  | named _ used => exact ⟨_, rfl, hNames _ used⟩
  | jump other | bare other => cases other.symm.trans takes

theorem Names.of_written? (h : i.Names P) {name : String} (hWritten : i.written? = some name) :
    P name := by
  obtain ⟨op, operand, value, target⟩ := i
  have hName : op.operand = .name ∧ operand = some name := by
    cases op <;> first | exact ⟨rfl, hWritten⟩ | cases hWritten
  obtain ⟨other, hOther, hP⟩ := h hName.1
  obtain rfl : name = other := Option.some.inj (hName.2.symm.trans hOther)
  exact hP

end Instr

/-! ### The names of a tree -/

def Mark.names : Mark → List String
  | name text => [text]
  | word _ | number _ => []

def Event.name : Event → String
  | declare _ name | use name => name

theorem names_parenthesized (marks : List Mark) :
    (parenthesized marks).flatMap Mark.names = marks.flatMap Mark.names := by
  simp [parenthesized, Mark.names]

/-- The names in the spelling of an expression are those of its events, in the same order. -/
theorem Expr.names_marks (e : Expr) : e.marks.flatMap Mark.names = e.events.map Event.name := by
  induction e with
  | literal | var => rfl
  | group inner ih => exact (names_parenthesized inner.marks).trans ih
  | unary op operand ih => exact ih
  | binary op left right ihLeft ihRight =>
    simp [marks, events, Mark.names, ihLeft, ihRight]

mutual

theorem Stmt.names_marks (s : Stmt) : s.marks.flatMap Mark.names = s.events.map Event.name := by
  match s with
  | .declare _ _ | .input _ => rfl
  | .assign _ value | .print value | .discard value =>
    simp [Stmt.marks, Stmt.events, Mark.names, Event.name, value.names_marks]
  | .block body => simp [Stmt.marks, Stmt.events, Mark.names, names_marksOfAll body]
  | .ifThen test body | .loop test body =>
    simp [Stmt.marks, Stmt.events, Mark.names, names_parenthesized, test.names_marks,
      body.names_marks]
  | .ifElse test body otherwise =>
    simp [Stmt.marks, Stmt.events, Mark.names, names_parenthesized, test.names_marks,
      body.names_marks, otherwise.names_marks]

theorem names_marksOfAll (body : List Stmt) :
    (marksOfAll body).flatMap Mark.names = (eventsOfAll body).map Event.name := by
  match body with
  | [] => rfl
  | first :: rest =>
    rw [marksOfAll, List.flatMap_append, first.names_marks, names_marksOfAll rest, eventsOfAll,
      List.map_append]

end

/-- Every name in a program that passes the check is declared afterwards. -/
theorem Event.Admissible.contains {table : Store VarType} {events : List Event} {e : Event}
    (h : Admissible table events) (hMem : e ∈ events) :
    (scopeBehind table events).declared.contains e.name = true := by
  rw [contains_scopeBehind]
  cases e with
  | declare type name => exact .inr ⟨type, hMem⟩
  | use name =>
    obtain ⟨before, after, rfl⟩ := List.append_of_mem hMem
    have hKnown : Known table before name := h before (.use name) after rfl
    rcases hKnown with hTable | ⟨type, hEarlier⟩
    · exact .inl hTable
    · exact .inr ⟨type, List.mem_append_left _ hEarlier⟩

/-- Every instruction about a variable names one of the table. -/
def Code.NamesIn (code : Code) (table : Store VarType) : Prop :=
  ∀ i ∈ code.instrs, i.Names (table.contains · = true)

namespace Scope

open Event

theorem contains_of_check {scope : Scope} {p : Program} {name : String}
    (h : scope.declared.contains name = true) :
    (scope.check p).2.declared.contains name = true := by
  by_cases hEvents : Admissible scope.declared p.events
  · rw [check_of_admissible hEvents]
    exact contains_scopeBehind.mpr (.inl h)
  · obtain ⟨before, e, after, hSplit, hBefore, hFirst⟩ := exists_first_not_allowed hEvents
    rwa [check_of_not_allowed hSplit hBefore hFirst]

theorem namesIn_of_check {scope after : Scope} {p : Program} (h : scope.check p = (.ok (), after)) :
    p.assembled.NamesIn after.declared := by
  obtain ⟨hEvents, rfl⟩ := check_eq_ok_iff.mp h
  intro i hMem
  refine (p.madeOf_assembled i hMem).names fun name hName => ?_
  have hNames : name ∈ p.events.map Event.name := by
    rw [Program.events, ← names_marksOfAll]
    exact List.mem_flatMap.mpr ⟨.name name, hName, List.mem_singleton_self name⟩
  obtain ⟨e, hEvent, rfl⟩ := List.mem_map.mp hNames
  exact hEvents.contains hEvent

end Scope

/-! ### Sessions -/

namespace Session

/-- The code that a source compiles to, if it does. -/
def compiled (session : Session) (source : String) : List Code :=
  match (session.compile source).1 with
  | .ok code => [code]
  | .error _ => []

/-- The code that has been compiled since the last reset, after one more request. -/
def codeAfter (session : Session) (codes : List Code) : Request → List Code
  | .compile source => codes ++ session.compiled source
  | @Request.eval _ _ _ _ source _ _ => codes ++ session.compiled source
  | @Request.execute .. => codes
  | .reset => []

/-- The code that a request brings along. -/
def Request.code? : Request → Option Code
  | @Request.execute _ _ _ _ code _ _ => some code
  | _ => none

/-- A session that has come about by requests, with the code compiled in it since the last reset.
Only such code has been executed. -/
inductive Course : Session → List Code → Prop
  | start : Course {} []
  | request {session after : Session} {codes : List Code} {answer : Answer}
      (earlier : Course session codes) (fuel : Nat) (request : Request)
      (own : ∀ code ∈ request.code?, code ∈ codes)
      (answered : session.answer? fuel request = some (answer, after)) :
      Course after (session.codeAfter codes request)

/-- Every variable is declared, and so is every name in the code. -/
structure Covers (session : Session) (codes : List Code) : Prop where
  vars : ∀ name, session.machine.vars.contains name = true →
    session.scope.declared.contains name = true
  code : ∀ code ∈ codes, code.NamesIn session.scope.declared

variable {session : Session} {codes : List Code}

theorem contains_of_compile {source name : String}
    (h : session.scope.declared.contains name = true) :
    (session.compile source).2.scope.declared.contains name = true := by
  show (compileIn session.scope source).2.declared.contains name = true
  cases hSource : Program.ofSource source with
  | error e => rwa [compileIn, hSource]
  | ok p =>
    rw [compileIn_of_ofSource hSource]
    exact Scope.contains_of_check h

theorem namesIn_of_compile {source : String} {code : Code}
    (h : (session.compile source).1 = .ok code) :
    code.NamesIn (session.compile source).2.scope.declared := by
  obtain ⟨p, scope, hCompiles⟩ := Compiles.exists_of_compile h
  rw [hCompiles.compile_eq] at h ⊢
  cases h
  exact Scope.namesIn_of_check hCompiles.checked

theorem Covers.compile (h : session.Covers codes) (source : String) :
    (session.compile source).2.Covers (codes ++ session.compiled source) := by
  refine ⟨fun name hName => contains_of_compile (h.vars name hName), ?_⟩
  refine List.forall_mem_append.mpr ⟨fun code hCode i hMem => ?_, ?_⟩
  · exact (h.code code hCode i hMem).mono fun name => contains_of_compile
  · rw [compiled]
    cases hResult : (session.compile source).1 with
    | error e => nofun
    | ok code => exact List.forall_mem_singleton.mpr (namesIn_of_compile hResult)

variable {ρ σ : Type} [Intake ρ] [Sink σ]

/-- A run writes only variables that its code names, also if it fails. -/
theorem Covers.execute (h : session.Covers codes) {code : Code} (hCode : code ∈ codes) {fuel : Nat}
    {feed : ρ} {sink : σ} {reply : Reply ρ σ Unit}
    (hRun : session.execute? code fuel feed sink = some reply) : reply.session.Covers codes := by
  obtain ⟨halt, hHalt, rfl⟩ := Option.map_eq_some_iff.mp hRun
  refine ⟨fun name hName => ?_, h.code⟩
  rcases Machine.contains_of_execute? hHalt hName with hOld | ⟨i, hMem, hWritten⟩
  · exact h.vars name hOld
  · exact (h.code code hCode i hMem).of_written? hWritten

theorem Covers.eval (h : session.Covers codes) {source : String} {fuel : Nat} {feed : ρ} {sink : σ}
    {reply : Reply ρ σ Code} (hEval : session.eval? source fuel feed sink = some reply) :
    reply.session.Covers (codes ++ session.compiled source) := by
  have hAfter := h.compile source
  rw [eval?] at hEval
  cases hCompile : session.compile source with
  | mk result after =>
    rw [hCompile] at hEval hAfter
    cases result with
    | error e =>
      cases hEval
      exact hAfter
    | ok code =>
      obtain ⟨ran, hRun, rfl⟩ := Option.map_eq_some_iff.mp hEval
      have hCode : code ∈ codes ++ session.compiled source := by
        refine List.mem_append_right codes ?_
        rw [compiled, hCompile]
        exact List.mem_singleton_self code
      exact hAfter.execute hCode hRun

/-- What a request keeps. -/
theorem Covers.answer {after : Session} {fuel : Nat} {answer : Answer} {request : Request}
    (h : session.Covers codes) (own : ∀ code ∈ request.code?, code ∈ codes)
    (answered : session.answer? fuel request = some (answer, after)) :
    after.Covers (session.codeAfter codes request) := by
  cases request with
  | compile source =>
    cases answered
    exact h.compile source
  | eval source feed sink =>
    obtain ⟨reply, hEval, hReply⟩ := Option.map_eq_some_iff.mp answered
    cases hReply
    exact h.eval hEval
  | execute code feed sink =>
    obtain ⟨reply, hRun, hReply⟩ := Option.map_eq_some_iff.mp answered
    cases hReply
    exact h.execute (own code rfl) hRun
  | reset =>
    cases answered
    exact ⟨nofun, nofun⟩

theorem Course.covers (h : Course session codes) : session.Covers codes := by
  induction h with
  | start => exact ⟨nofun, nofun⟩
  | request _ _ _ own answered ih => exact ih.answer own answered

/-- After every request of a session that executes only code it has compiled itself since its last
reset, each variable is declared, and so is the name in each instruction about a variable in that
code. -/
theorem declared_after_requests (h : Course session codes) :
    (∀ name, session.machine.vars.contains name = true →
      session.scope.declared.contains name = true) ∧
    ∀ code ∈ codes, ∀ i ∈ code.instrs, i.op = .loadVar ∨ i.op = .storeVar ∨ i.op = .input →
      ∃ name, i.name = some name ∧ session.scope.declared.contains name = true := by
  refine ⟨h.covers.vars, fun code hCode i hMem hOp => ?_⟩
  have takes : i.op.operand = .name := by
    rcases hOp with hOp | hOp | hOp <;> rw [hOp] <;> rfl
  exact h.covers.code code hCode i hMem takes

/-- A source whose run fails when it has written one of its variables. -/
def asksInVain : String := "int x; int y; x = 4; input y;"

def noAnswer : Feed := .ofBytes []

theorem declared_after_requests_failing :
    ∃ session codes, Course session codes ∧ codes.length = 2 ∧
      session.machine.vars.contains "x" = true ∧ session.machine.vars.contains "y" = false ∧
      session.scope.declared.contains "x" = true ∧
      ∀ code ∈ codes, ∀ i ∈ code.instrs, i.op = .loadVar ∨ i.op = .storeVar ∨ i.op = .input →
        ∃ name, i.name = some name ∧ session.scope.declared.contains name = true := by
  have hRuns : (answer? {} 9 (.eval asksInVain noAnswer ({} : Tape))).any (fun failed =>
      (failed.2.compile "print x;").1.toOption.any fun code =>
        ((failed.2.compile "print x;").2.answer? 9 (.execute code noAnswer ({} : Tape))).any
          fun printed => printed.2.machine.vars.contains "x" &&
            !printed.2.machine.vars.contains "y" &&
            (codeAfter {} [] (.eval asksInVain noAnswer ({} : Tape))).length == 1) = true := by
    decide +kernel
  obtain ⟨⟨_, failed⟩, hFailed, hRuns⟩ := (Option.any_eq_true _ _).mp hRuns
  obtain ⟨code, hCode, hRuns⟩ := (Option.any_eq_true _ _).mp hRuns
  obtain ⟨⟨_, printed⟩, hPrinted, hRuns⟩ := (Option.any_eq_true _ _).mp hRuns
  simp only [Bool.and_eq_true, Bool.not_eq_true', beq_iff_eq] at hRuns
  obtain ⟨⟨hx, hy⟩, hLength⟩ := hRuns
  have hCompiled : failed.compiled "print x;" = [code] := by
    unfold compiled
    cases hResult : (failed.compile "print x;").1 with
    | error e =>
      rw [hResult] at hCode
      cases hCode
    | ok other =>
      rw [hResult] at hCode
      cases hCode
      rfl
  have hAfterEval := Course.start.request 9 (.eval asksInVain noAnswer ({} : Tape)) nofun hFailed
  have hAfterCompile := hAfterEval.request 0 (.compile "print x;") nofun rfl
  have hOwn : code ∈ failed.codeAfter (codeAfter {} [] (.eval asksInVain noAnswer ({} : Tape)))
      (.compile "print x;") := by
    simp [codeAfter, hCompiled]
  have hAfterRun := hAfterCompile.request 9 (.execute code noAnswer ({} : Tape))
    (fun _ h => Option.some.inj h ▸ hOwn) hPrinted
  obtain ⟨hVars, hNames⟩ := declared_after_requests hAfterRun
  refine ⟨printed, _, hAfterRun, ?_, hx, hy, hVars "x" hx, hNames⟩
  show (codeAfter {} [] (.eval asksInVain noAnswer ({} : Tape)) ++
    failed.compiled "print x;").length = 2
  rw [hCompiled, List.length_append, hLength]
  rfl

end Session

end Abacus
