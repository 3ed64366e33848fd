import Abacus.Proofs.Machine.Output
import Abacus.Proofs.Machine.Simulation
import Abacus.Proofs.Scope.Events
import Abacus.Proofs.Tree.Rounds
import Abacus.Proofs.Tree.Source

/-! Two sources at once.  A session that takes two sources one after the other comes to the same as
one that takes them as a single source, the second on lines of its own.  This needs an output that
never fails: between the two there is a flush, which the single source does not have. -/

namespace Abacus

namespace Machine

variable {π : Type} [Intake π] [Sink π]

/-- A run that ends well gets behind the code, where only the flush is left. -/
theorem exists_evalAll_of_execute? {p : Program} {m : Machine} {fuel : Nat} {port : π}
    {halt : Halt π} (h : m.execute? p.assembled fuel port = some halt)
    (hOk : halt.result = .ok ()) :
    ∃ rounds middle, (evalAll rounds p).outcome? ⟨m.vars, port⟩ = some (.ok (), middle) ∧
      halt.state.vars = middle.vars ∧ Sink.flush middle.port = .ok () halt.state.port := by
  obtain ⟨rounds, hEval⟩ := (execute?_halts_iff p m port _ _).mp ⟨fuel, halt, h, hOk, rfl⟩
  rw [Program.eval, Eval.outcome?_bind] at hEval
  cases hAll : (evalAll rounds p).outcome? ⟨m.vars, port⟩ with
  | none =>
    rw [hAll] at hEval
    cases hEval
  | some ended =>
    rw [hAll] at hEval
    obtain ⟨e | _, middle⟩ := ended
    · cases hEval
    · refine ⟨rounds, middle, hAll, ?_⟩
      simp only [Eval.outcome?, Eval.io, ExceptT.run_mk, StateT.run_mk] at hEval
      split at hEval
      · next hFlush =>
        obtain ⟨-, hMem⟩ := Prod.mk.inj (Option.some.inj hEval)
        obtain ⟨hVars, hPort⟩ := Memory.mk.inj hMem
        exact ⟨hVars.symm, hPort ▸ hFlush⟩
      · cases hEval

/-- Runs end in some way exactly if evaluations do. -/
theorem exists_execute?_iff_eval (p : Program) (m : Machine) (port : π)
    (P : Except RuntimeError Unit → Memory π → Prop) :
    (∃ fuel halt, m.execute? p.assembled fuel port = some halt ∧
        P halt.result halt.state.memory) ↔
      ∃ result mem, (∃ rounds, (p.eval rounds).outcome? ⟨m.vars, port⟩ = some (result, mem)) ∧
        P result mem := by
  simp only [← execute?_halts_iff]
  constructor
  · rintro ⟨fuel, halt, hRun, hP⟩
    exact ⟨_, _, ⟨fuel, halt, hRun, rfl, rfl⟩, hP⟩
  · rintro ⟨_, _, ⟨fuel, halt, hRun, rfl, rfl⟩, hP⟩
    exact ⟨fuel, halt, hRun, hP⟩

/-- Behind a program that ends well, the code of another one runs as it does alone. -/
theorem exists_execute?_append_iff {p p' : Program} {m m' : Machine} {port : π} {rounds : Nat}
    {middle : Memory π} (h : (evalAll rounds p).outcome? ⟨m.vars, port⟩ = some (.ok (), middle))
    (hVars : m'.vars = middle.vars) (P : Except RuntimeError Unit → Memory π → Prop) :
    (∃ fuel halt, m.execute? (Program.assembled (p ++ p')) fuel port = some halt ∧
        P halt.result halt.state.memory) ↔
      ∃ fuel halt, m'.execute? p'.assembled fuel middle.port = some halt ∧
        P halt.result halt.state.memory := by
  rw [exists_execute?_iff_eval, exists_execute?_iff_eval, hVars]
  simp only [Program.exists_eval_append_iff h]

end Machine

namespace Session

variable {ρ σ : Type} [Intake ρ] [Sink σ] {session : Session} {source source' : String}
  {fuel : Nat} {feed : ρ} {sink : σ}

/-! ### What a source compiles to -/

/-- A source spells a program that fits the declarations of a session and leads to others. -/
structure Compiles (session : Session) (source : String) (p : Program) (scope : Scope) : Prop where
  read : Program.ofSource source = .ok p
  checked : session.scope.check p = (.ok (), scope)

namespace Compiles

variable {p p' : Program} {scope scope' : Scope}

theorem compile_eq (h : session.Compiles source p scope) :
    session.compile source = (.ok p.assembled, { session with scope }) := by
  simp only [compile, compileIn, h.read, h.checked, Program.code_eq_assembled]
  rfl

theorem exists_of_compile {code : Code} (h : (session.compile source).1 = .ok code) :
    ∃ p scope, session.Compiles source p scope := by
  simp only [compile, compileIn] at h
  split at h
  · cases h
  · next p read =>
    split at h
    · cases h
    · next scope checked => exact ⟨p, scope, read, checked⟩

theorem exists_of_eval? {first : Reply ρ σ Code} {code : Code}
    (h : session.eval? source fuel feed sink = some first) (hOk : first.result = .ok code) :
    ∃ p scope, session.Compiles source p scope := by
  unfold eval? at h
  split at h
  · cases h
    cases hOk
  · next compiled => exact exists_of_compile (congrArg Prod.fst compiled)

/-- Two sources that compile one after the other compile as one. -/
theorem join (h : session.Compiles source p scope) {machine : Machine}
    (h' : Compiles { scope, machine } source' p' scope') :
    session.Compiles (source ++ "\n" ++ source') (p ++ p') scope' :=
  ⟨Program.ofSource_join h.read h'.read, Scope.check_append h.checked h'.checked⟩

theorem eval?_eq (h : session.Compiles source p scope) (fuel : Nat) (feed : ρ) (sink : σ) :
    session.eval? source fuel feed sink =
      (session.machine.execute? p.assembled fuel (Channels.mk feed sink)).map fun halt =>
        { result := (halt.result.mapError .run).map fun _ => p.assembled
          session := { scope, machine := halt.state.toMachine }
          feed := halt.state.port.feed
          sink := halt.state.port.sink } := by
  rw [eval?, h.compile_eq]
  simp only [execute?, Option.map_map]
  rfl

end Compiles

/-! ### What an evaluation comes to -/

/-- What can be told of an evaluation that ends: its result, what is declared and what the variables
are after it, the input that it leaves, and the bytes that it writes. -/
structure Outcome (ρ : Type) where
  result : Except Error Unit
  declared : Store VarType
  vars : Store Float
  unread : ρ
  written : List UInt8

/-- What the evaluation of a source comes to; `none` if it takes more than `fuel` steps.  The bytes
are those on the record of the same evaluation with a sink that keeps one. -/
def outcome? (session : Session) (source : String) (fuel : Nat) (feed : ρ) (sink : σ) :
    Option (Outcome ρ) := do
  let reply ← session.eval? source fuel feed sink
  let recorded ← session.eval? source fuel feed (Recorded.mk sink [])
  return {
    result := reply.result.map fun _ => ()
    declared := reply.session.scope.declared
    vars := reply.session.machine.vars
    unread := reply.feed
    written := recorded.sink.written }

/-- The same from the end of a run with a record. -/
def Outcome.ofEnd (declared : Store VarType) (result : Except RuntimeError Unit)
    (mem : Memory (Channels ρ (Recorded σ))) : Outcome ρ where
  result := result.mapError .run
  declared := declared
  vars := mem.vars
  unread := mem.port.feed
  written := mem.port.sink.written

open Machine

theorem Compiles.outcome?_eq {p : Program} {scope : Scope} (h : session.Compiles source p scope) :
    session.outcome? source fuel feed sink =
      (session.machine.execute? p.assembled fuel (Channels.mk feed (Recorded.mk sink []))).map
        fun halt => .ofEnd scope.declared halt.result halt.state.memory := by
  rw [outcome?, h.eval?_eq, h.eval?_eq]
  have hRun := session.machine.execute?_recorded p.assembled fuel feed sink
  generalize session.machine.execute? p.assembled fuel (Channels.mk feed (Recorded.mk sink [])) =
    recorded, session.machine.execute? p.assembled fuel (Channels.mk feed sink) = plain at hRun
  cases hRun with
  | none => rfl
  | @some halt halt' alike =>
    obtain ⟨hResult, hMachine, hFeed, -⟩ := alike
    have hVars : halt.state.vars = halt'.state.vars := by rw [hMachine]
    have hUnit : ((halt'.result.mapError Error.run).map fun _ => p.assembled).map (fun _ => ()) =
        halt.result.mapError .run := by
      rw [hResult]
      cases halt'.result <;> rfl
    simp only [Option.map_some, Option.bind_eq_bind, Option.bind_some, Option.pure_def, hUnit,
      Outcome.ofEnd, State.memory, hVars, hFeed]

omit [Intake ρ] in
/-- Ends of runs that are alike tell the same, but for the bytes that one has written before. -/
theorem Outcome.ofEnd_eq_iff_of_alike {before : List UInt8}
    {halt halt' : Halt (Channels ρ (Recorded σ))} (declared : Store VarType)
    (h : Halt.Alike (Channels.Beside (WrittenBefore before)) halt halt') (outcome : Outcome ρ) :
    ofEnd declared halt.result halt.state.memory = outcome ↔
      outcome = { ofEnd declared halt'.result halt'.state.memory with
        written := before ++ (ofEnd declared halt'.result halt'.state.memory).written } := by
  obtain ⟨hResult, hMachine, hFeed, hWritten⟩ := h
  have hVars : halt.state.vars = halt'.state.vars := by rw [hMachine]
  simp only [ofEnd, State.memory, hResult, hVars, hFeed, hWritten.written]
  exact eq_comm

/-! ### The seam -/

/-- An output that never fails does not after a program either. -/
theorem neverFails_of_evalAll {p : Program} {rounds : Nat} {vars : Store Float}
    {port : Channels ρ (Recorded σ)} {middle : Memory (Channels ρ (Recorded σ))}
    (h : (evalAll rounds p).outcome? ⟨vars, port⟩ = some (.ok (), middle))
    (hSink : Sink.NeverFails port.sink.port) : Sink.NeverFails middle.port.sink.port := by
  have hFollows := follows_all rounds [] ⟨vars, port⟩ p p.holds_assembled
  rw [h] at hFollows
  obtain ⟨n, hSteps⟩ := hFollows
  have hStart : State.Alike (Channels.Beside (WrittenBefore [])) (stateAt 0 [] ⟨vars, port⟩)
      (stateAt 0 [] ⟨vars, port⟩) := ⟨rfl, rfl, hSink, hSink, rfl⟩
  obtain ⟨_, -, -, -, hKept⟩ := hSteps.alike (Channels.alike_written []) hStart
  exact hKept.first

/-- Behind a source that ends well: where the run of a longer code goes on, and what the session
goes on from, differ only by a flush. -/
theorem Compiles.exists_seam {p : Program} {scope : Scope} (h : session.Compiles source p scope)
    (hSink : Sink.NeverFails sink) {first : Reply ρ σ Code} {code : Code}
    (hFirst : session.eval? source fuel feed sink = some first) (hOk : first.result = .ok code) :
    ∃ rounds middle before,
      (evalAll rounds p).outcome? ⟨session.machine.vars, Channels.mk feed (Recorded.mk sink [])⟩ =
        some (.ok (), middle) ∧
      first.session.scope = scope ∧ first.session.machine.vars = middle.vars ∧
      session.outcome? source fuel feed sink = some before ∧
      Channels.Beside (WrittenBefore before.written) middle.port
        (Channels.mk first.feed (Recorded.mk first.sink [])) := by
  rw [h.eval?_eq, Option.map_eq_some_iff] at hFirst
  obtain ⟨plain, hPlain, rfl⟩ := hFirst
  have hRun := session.machine.execute?_recorded p.assembled fuel feed sink
  rw [hPlain] at hRun
  generalize hRecorded : session.machine.execute? p.assembled fuel
    (Channels.mk feed (Recorded.mk sink [])) = recorded at hRun
  cases hRun with
  | @some halt _ alike =>
    obtain ⟨hResult, hMachine, hFeed, hPort⟩ := alike
    have hEnd : halt.result = .ok () := by
      rw [hResult]
      cases hPlainResult : plain.result with
      | ok => rfl
      | error e => simp [hPlainResult, Except.mapError, Except.map] at hOk
    obtain ⟨rounds, middle, hEval, hVars, hFlush⟩ := exists_evalAll_of_execute? hRecorded hEnd
    have hMiddle := neverFails_of_evalAll hEval hSink
    obtain ⟨after, hAfter, hFlushed⟩ := Channels.flush_of_neverFails hMiddle
    have hHalt : halt.state.port =
        ⟨middle.port.feed, ⟨after, middle.port.sink.effects ++ [.flush]⟩⟩ := by
      rw [hFlush] at hFlushed
      exact (EStateM.Result.ok.inj hFlushed).2
    refine ⟨rounds, middle, _, hEval, rfl, ?_, by rw [h.outcome?_eq, hRecorded]; rfl, ?_, ?_⟩
    · rw [← hVars, hMachine]
    · rw [← hFeed, hHalt]
    · rw [hHalt] at hPort
      obtain rfl : after = plain.state.port.sink := hPort
      refine ⟨hMiddle, hAfter, ?_⟩
      simp [Outcome.ofEnd, State.memory, hHalt, Recorded.written, Effect.bytes]

/-- Batching.  Let a source be evaluated without an error in a session whose output never fails, and
let a second one compile in the session after that.  Then the two sources as one, the second on
lines of its own, compile in the first session, to the same declarations.  Their evaluation ends
exactly if that of the second source does behind the first one, with the same result, declarations,
variables and unread input, and with what both write one after the other. -/
theorem eval?_batch (hSink : Sink.NeverFails sink) {first : Reply ρ σ Code} {code code' : Code}
    (hFirst : session.eval? source fuel feed sink = some first) (hOk : first.result = .ok code)
    (hSecond : (first.session.compile source').1 = .ok code') :
    ∃ batch before,
      session.compile (source ++ "\n" ++ source') =
        (.ok batch, { session with scope := (first.session.compile source').2.scope }) ∧
      session.outcome? source fuel feed sink = some before ∧
      ∀ outcome,
        (∃ fuel, session.outcome? (source ++ "\n" ++ source') fuel feed sink = some outcome) ↔
          ∃ fuel after, first.session.outcome? source' fuel first.feed first.sink = some after ∧
            outcome = { after with written := before.written ++ after.written } := by
  obtain ⟨p, scope, hCompiles⟩ := Compiles.exists_of_eval? hFirst hOk
  obtain ⟨p', scope', hCompiles'⟩ := Compiles.exists_of_compile hSecond
  obtain ⟨rounds, middle, before, hEval, rfl, hVars, hBefore, hSeam⟩ :=
    hCompiles.exists_seam hSink hFirst hOk
  have hBatch := hCompiles.join hCompiles'
  refine ⟨Program.assembled (p ++ p'), before, ?_, hBefore, fun outcome => ?_⟩
  · rw [hBatch.compile_eq, hCompiles'.compile_eq]
  · simp only [hBatch.outcome?_eq, hCompiles'.outcome?_eq, Option.map_eq_some_iff]
    rw [exists_execute?_append_iff hEval hVars
      fun result mem => Outcome.ofEnd scope'.declared result mem = outcome]
    rw [exists_execute?_iff_of_alike (Channels.alike_written before.written) p'.assembled
      first.session.machine hSeam
      (fun halt halt' alike => Outcome.ofEnd_eq_iff_of_alike scope'.declared alike outcome)]
    constructor
    · rintro ⟨fuel, halt, hRun, hOutcome⟩
      exact ⟨fuel, _, ⟨halt, hRun, rfl⟩, hOutcome⟩
    · rintro ⟨fuel, _, ⟨halt, hRun, rfl⟩, hOutcome⟩
      exact ⟨fuel, halt, hRun, hOutcome⟩

theorem exists_of_isOk {ε α : Type} {x : Except ε α} (h : x.isOk = true) : ∃ a, x = .ok a := by
  cases x with
  | error => cases h
  | ok a => exact ⟨a, rfl⟩

/-- A first source that ends in a comment. -/
def asking : String := "int x; input x; // once"

/-- A second one that asks again as long as the answer is 7. -/
def askingAgain : String := "while (x == 7) input x;"

def answers : Feed := .ofBytes "7 8".toUTF8.data.toList

theorem eval?_batch_asking :
    ∃ (first : Reply Feed Tape Code) (code code' : Code),
      Sink.NeverFails ({} : Tape) ∧ eval? {} asking 9 answers ({} : Tape) = some first ∧
      first.result = .ok code ∧ (first.session.compile askingAgain).1 = .ok code' ∧
      ∃ fuel outcome,
        outcome? {} (asking ++ "\n" ++ askingAgain) fuel answers ({} : Tape) = some outcome ∧
        outcome.unread = ⟨[]⟩ ∧ outcome.written = "x = x = ".toUTF8.data.toList := by
  have hTape : Sink.NeverFails ({} : Tape) := Tape.neverFails rfl rfl
  have hBefore : (outcome? {} asking 9 answers ({} : Tape)).map (·.written) =
      some "x = ".toUTF8.data.toList := by decide +kernel
  have hRuns : (eval? {} asking 9 answers ({} : Tape)).any (fun first =>
      first.result.isOk && (first.session.compile askingAgain).1.isOk &&
        (first.session.outcome? askingAgain 20 first.feed first.sink).any fun after =>
          after.unread = ⟨[]⟩ && after.written = "x = ".toUTF8.data.toList) = true := by
    decide +kernel
  obtain ⟨first, hFirst, hRuns⟩ := (Option.any_eq_true _ _).mp hRuns
  simp only [Bool.and_eq_true, Option.any_eq_true, decide_eq_true_eq] at hRuns
  obtain ⟨⟨hOk, hSecond⟩, after, hAfter, hUnread, hWritten⟩ := hRuns
  obtain ⟨code, hCode⟩ := exists_of_isOk hOk
  obtain ⟨code', hCode'⟩ := exists_of_isOk hSecond
  obtain ⟨batch, before, -, hOutcome, hBatch⟩ := eval?_batch hTape hFirst hCode hCode'
  obtain ⟨fuel, hEnds⟩ := (hBatch _).mpr ⟨20, after, hAfter, rfl⟩
  rw [hOutcome, Option.map_some, Option.some.injEq] at hBefore
  refine ⟨first, code, code', hTape, hFirst, hCode, hCode', fuel, _, hEnds, hUnread, ?_⟩
  show before.written ++ after.written = _
  rw [hBefore, hWritten]
  decide +kernel

end Session

end Abacus
