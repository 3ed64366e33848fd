import Abacus.Proofs.Machine.Ports
import Abacus.Proofs.Session.Batch

/-! Requests to a session, and what can be told of it by them.  A request whose source does not
compile changes neither the declarations nor the variables, and touches neither input nor output.
The rest of a session cannot be seen at all: what a run that failed has left on the stack, where it
stopped, and what a check has declared so far.  Sessions with the same declarations and the same
variables answer all further requests alike. -/

theorem Option.Rel.bind {α β γ δ : Type*} {R : α → β → Prop} {S : γ → δ → Prop} {x : Option α}
    {y : Option β} {f : α → Option γ} {g : β → Option δ} (h : Option.Rel R x y)
    (hNext : ∀ a b, R a b → Option.Rel S (f a) (g b)) : Option.Rel S (x.bind f) (y.bind g) := by
  cases h with
  | none => exact .none
  | some related => exact hNext _ _ related

theorem Option.Rel.map {α β γ δ : Type*} {R : α → β → Prop} {S : γ → δ → Prop} {x : Option α}
    {y : Option β} {f : α → γ} {g : β → δ} (h : Option.Rel R x y)
    (hMap : ∀ a b, R a b → S (f a) (g b)) : Option.Rel S (x.map f) (y.map g) := by
  cases h with
  | none => exact .none
  | some related => exact .some (hMap _ _ related)

namespace Abacus

/-- Whether an error is one of the source, found before anything runs. -/
def Error.isOfSource : Error → Bool
  | scan _ | parse _ | scope _ => true
  | emit _ | run _ => false

/-! ### Declarations -/

namespace Event

variable {table table' : Store VarType}

theorem Allowed.of_same (h : table.Same table') {earlier : List Event} {e : Event} :
    e.Allowed table earlier ↔ e.Allowed table' earlier := by
  have hKnown (name : String) : Known table earlier name ↔ Known table' earlier name := by
    rw [Known, Known, h.contains_eq]
  cases e with
  | declare type name => exact not_congr (hKnown name)
  | use name => exact hKnown name

theorem Admissible.of_same (h : table.Same table') {events : List Event} :
    Admissible table events ↔ Admissible table' events := by
  unfold Admissible
  simp only [Allowed.of_same h]

theorem same_scopeBehind (h : table.Same table') {events : List Event}
    (hEvents : Admissible table events) :
    (scopeBehind table events).declared.Same (scopeBehind table' events).declared := by
  have hEvents' := (Admissible.of_same h).mp hEvents
  intro name
  refine Option.ext fun type => ?_
  rw [get?_scopeBehind hEvents, get?_scopeBehind hEvents', h name]

end Event

namespace Scope

open Event

/-- Scopes with the same declarations accept the same programs, or refuse them for the same
reason, and have the same declarations afterwards. -/
theorem check_same {scope scope' : Scope} (h : scope.declared.Same scope'.declared)
    (p : Program) : (scope.check p).1 = (scope'.check p).1 ∧
      (scope.check p).2.declared.Same (scope'.check p).2.declared := by
  by_cases hEvents : Admissible scope.declared p.events
  · have hEvents' := (Admissible.of_same h).mp hEvents
    rw [check_of_admissible hEvents, check_of_admissible hEvents']
    exact ⟨rfl, same_scopeBehind h hEvents⟩
  · obtain ⟨before, e, after, hSplit, hBefore, hFirst⟩ := exists_first_not_allowed hEvents
    have hBefore' := (Admissible.of_same h).mp hBefore
    have hFirst' := mt (Allowed.of_same h).mpr hFirst
    rw [check_of_not_allowed hSplit hBefore hFirst, check_of_not_allowed hSplit hBefore' hFirst']
    exact ⟨rfl, h⟩

theorem declared_of_check_error {scope : Scope} {p : Program} {error : ScopeError}
    (h : (scope.check p).1 = .error error) : (scope.check p).2.declared = scope.declared := by
  by_cases hEvents : Admissible scope.declared p.events
  · rw [check_of_admissible hEvents] at h
    cases h
  · obtain ⟨before, e, after, hSplit, hBefore, hFirst⟩ := exists_first_not_allowed hEvents
    rw [check_of_not_allowed hSplit hBefore hFirst]

end Scope

/-- A source that is read as a program compiles exactly if the program passes the check. -/
theorem compileIn_of_ofSource {source : String} {p : Program} (h : Program.ofSource source = .ok p)
    (scope : Scope) : compileIn scope source =
      (((scope.check p).1.mapError Error.scope).map fun _ => p.assembled, (scope.check p).2) := by
  rw [compileIn, h]
  dsimp only
  cases hCheck : scope.check p with
  | mk result after =>
    cases result with
    | error e => rfl
    | ok => rw [Program.code_eq_assembled]; rfl

theorem isOfSource_of_ofSource {source : String} {e : Error}
    (h : Program.ofSource source = .error e) : e.isOfSource = true := by
  rw [Program.ofSource] at h
  cases hScan : Token.scan source with
  | error cause =>
    rw [hScan] at h
    cases h
    rfl
  | ok tokens =>
    rw [hScan] at h
    have hParse : (Program.ofTokens tokens).mapError Error.parse = .error e := h
    cases hTokens : Program.ofTokens tokens with
    | error cause =>
      rw [hTokens] at hParse
      cases hParse
      rfl
    | ok p =>
      rw [hTokens] at hParse
      cases hParse

theorem compileIn_same {scope scope' : Scope} (h : scope.declared.Same scope'.declared)
    (source : String) : (compileIn scope source).1 = (compileIn scope' source).1 ∧
      (compileIn scope source).2.declared.Same (compileIn scope' source).2.declared := by
  cases hSource : Program.ofSource source with
  | error e =>
    rw [compileIn, compileIn, hSource]
    exact ⟨rfl, h⟩
  | ok p =>
    obtain ⟨hResult, hDeclared⟩ := Scope.check_same h p
    rw [compileIn_of_ofSource hSource, compileIn_of_ofSource hSource, hResult]
    exact ⟨rfl, hDeclared⟩

/-- Compiling fails for the source only, and then it declares nothing. -/
theorem declared_of_compileIn_error {scope : Scope} {source : String} {e : Error}
    (h : (compileIn scope source).1 = .error e) :
    e.isOfSource = true ∧ (compileIn scope source).2.declared = scope.declared := by
  cases hSource : Program.ofSource source with
  | error cause =>
    rw [compileIn, hSource] at h ⊢
    cases h
    exact ⟨isOfSource_of_ofSource hSource, rfl⟩
  | ok p =>
    rw [compileIn_of_ofSource hSource] at h ⊢
    cases hCheck : (scope.check p).1 with
    | error cause =>
      rw [hCheck] at h
      cases h
      exact ⟨rfl, Scope.declared_of_check_error hCheck⟩
    | ok =>
      rw [hCheck] at h
      cases h

/-! ### Runs -/

namespace Machine

/-- Two states that differ at most in the order in which their variables came. -/
structure State.Same {π : Type} (s s' : State π) : Prop where
  pc_eq : s.pc = s'.pc
  stack_eq : s.stack = s'.stack
  vars : s.vars.Same s'.vars
  port_eq : s.port = s'.port

variable {π : Type}

theorem related_io_same {α : Type} (act : EStateM String π α) :
    Related State.Same (io act) (io act) := by
  rintro ⟨⟨pc, stack, vars⟩, port⟩ ⟨⟨_, _, vars'⟩, _⟩ ⟨rfl, rfl, hVars, rfl⟩
  cases h : act port with
  | ok a after =>
    exact .inl ⟨a, ⟨⟨pc, stack, vars⟩, after⟩, ⟨⟨pc, stack, vars'⟩, after⟩, by simp only [io, h],
      by simp only [io, h], rfl, rfl, hVars, rfl⟩
  | error message after =>
    exact .inr ⟨.io message, ⟨⟨pc, stack, vars⟩, after⟩, ⟨⟨pc, stack, vars'⟩, after⟩,
      by simp only [io, h], by simp only [io, h], rfl, rfl, hVars, rfl⟩

theorem related_pop_same (op : Opcode) (index : Nat) :
    Related (State.Same (π := π)) (pop op index) (pop op index) := by
  rintro ⟨⟨pc, stack, vars⟩, port⟩ ⟨⟨_, _, vars'⟩, _⟩ ⟨rfl, rfl, hVars, rfl⟩
  cases stack with
  | nil => exact .inr ⟨_, _, _, rfl, rfl, rfl, rfl, hVars, rfl⟩
  | cons value rest => exact .inl ⟨_, _, _, rfl, rfl, rfl, rfl, hVars, rfl⟩

variable [Intake π] [Sink π]

theorem coupled_same : Coupled (State.Same (π := π)) where
  pc_eq h := h.pc_eq
  get?_eq name h := h.vars name
  goto _ h := ⟨rfl, h.stack_eq, h.vars, h.port_eq⟩
  push value h := ⟨h.pc_eq, congrArg (value :: ·) h.stack_eq, h.vars, h.port_eq⟩
  store name value h := ⟨h.pc_eq, h.stack_eq, h.vars.set name value, h.port_eq⟩
  pop := related_pop_same
  write _ := related_io_same _
  flush := related_io_same _
  readWord := related_io_same _

/-- A run depends on the variables of the machine only: neither on the stack nor on the index that
an earlier run has left. -/
theorem execute?_same {m m' : Machine} (h : m.vars.Same m'.vars) (code : Code) (fuel : Nat)
    (port : π) :
    Option.Rel (fun halt halt' => halt.result = halt'.result ∧ halt.state.Same halt'.state)
      (m.execute? code fuel port) (m'.execute? code fuel port) :=
  run?_coupled coupled_same code fuel ⟨rfl, rfl, h, rfl⟩

end Machine

/-! ### Requests -/

namespace Session

/-- What a session can be asked to do.  Every run has an input and an output of its own. -/
inductive Request : Type 1
  | compile (source : String)
  | eval {ρ σ : Type} [Intake ρ] [Sink σ] (source : String) (feed : ρ) (sink : σ)
  | execute {ρ σ : Type} [Intake ρ] [Sink σ] (code : Code) (feed : ρ) (sink : σ)
  | reset

/-- What a request gives back: its result, and behind a run what is left of the input and what has
become of the output. -/
inductive Answer : Type 1
  | compiled (result : Except Error Code)
  | evaluated {ρ σ : Type} (result : Except Error Code) (feed : ρ) (sink : σ)
  | executed {ρ σ : Type} (result : Except Error Unit) (feed : ρ) (sink : σ)
  | forgotten

/-- The answer to a request, and the session after it; `none` if a run takes more than `fuel`
steps. -/
def answer? (session : Session) (fuel : Nat) : Request → Option (Answer × Session)
  | .compile source => some (.compiled (session.compile source).1, (session.compile source).2)
  | @Request.eval _ _ _ _ source feed sink =>
    (session.eval? source fuel feed sink).map fun reply =>
      (.evaluated reply.result reply.feed reply.sink, reply.session)
  | @Request.execute _ _ _ _ code feed sink =>
    (session.execute? code fuel feed sink).map fun reply =>
      (.executed reply.result reply.feed reply.sink, reply.session)
  | .reset => some (.forgotten, session.reset)

/-- The answers to requests one after the other, and the session after them. -/
def answers? (session : Session) (fuel : Nat) : List Request → Option (List Answer × Session)
  | [] => some ([], session)
  | request :: requests =>
    (session.answer? fuel request).bind fun (answer, after) =>
      (after.answers? fuel requests).map fun (answers, last) => (answer :: answers, last)

/-- Two sessions with the same declarations and the same variables. -/
structure Same (session session' : Session) : Prop where
  declared : session.scope.declared.Same session'.scope.declared
  vars : session.machine.vars.Same session'.machine.vars

variable {ρ σ : Type} [Intake ρ] [Sink σ] {session session' : Session}

theorem Same.compile (h : session.Same session') (source : String) :
    (session.compile source).1 = (session'.compile source).1 ∧
      (session.compile source).2.Same (session'.compile source).2 := by
  obtain ⟨hResult, hDeclared⟩ := compileIn_same h.declared source
  exact ⟨hResult, hDeclared, h.vars⟩

/-- Two replies with the same result, input and output, and sessions that are the same. -/
structure Reply.Same {α : Type} (reply reply' : Reply ρ σ α) : Prop where
  result : reply.result = reply'.result
  feed : reply.feed = reply'.feed
  sink : reply.sink = reply'.sink
  session : reply.session.Same reply'.session

theorem Same.execute? (h : session.Same session') (code : Code) (fuel : Nat) (feed : ρ) (sink : σ) :
    Option.Rel Reply.Same (session.execute? code fuel feed sink)
      (session'.execute? code fuel feed sink) := by
  have hRun := Machine.execute?_same h.vars code fuel (Channels.mk feed sink)
  refine hRun.map fun halt halt' same => ?_
  obtain ⟨hResult, hState⟩ := same
  have hFeed := congrArg Channels.feed hState.port_eq
  have hSink := congrArg Channels.sink hState.port_eq
  exact ⟨congrArg (Except.mapError Error.run) hResult, hFeed, hSink, h.declared, hState.vars⟩

theorem Same.eval? (h : session.Same session') (source : String) (fuel : Nat) (feed : ρ)
    (sink : σ) :
    Option.Rel Reply.Same (session.eval? source fuel feed sink)
      (session'.eval? source fuel feed sink) := by
  obtain ⟨hResult, hSame⟩ := h.compile source
  unfold Session.eval?
  generalize session.compile source = compiled, session'.compile source = compiled'
    at hResult hSame
  obtain ⟨result, after⟩ := compiled
  obtain ⟨result', after'⟩ := compiled'
  obtain rfl : result = result' := hResult
  cases result with
  | error e => exact .some ⟨rfl, rfl, rfl, hSame⟩
  | ok code =>
    have hRun := Same.execute? hSame code fuel feed sink
    refine hRun.map fun reply reply' same => ?_
    exact ⟨congrArg (Except.map fun _ => code) same.result, same.feed, same.sink, same.session⟩

theorem Same.answer? (h : session.Same session') (fuel : Nat) (request : Request) :
    Option.Rel (fun x y => x.1 = y.1 ∧ x.2.Same y.2) (session.answer? fuel request)
      (session'.answer? fuel request) := by
  cases request with
  | compile source =>
    obtain ⟨hResult, hSame⟩ := h.compile source
    exact .some ⟨congrArg Answer.compiled hResult, hSame⟩
  | eval source feed sink =>
    refine (h.eval? source fuel feed sink).map fun reply reply' same => ⟨?_, same.session⟩
    simp only [same.result, same.feed, same.sink]
  | execute code feed sink =>
    refine (h.execute? code fuel feed sink).map fun reply reply' same => ⟨?_, same.session⟩
    simp only [same.result, same.feed, same.sink]
  | reset => exact .some ⟨rfl, fun _ => rfl, fun _ => rfl⟩

theorem Same.answers? (h : session.Same session') (fuel : Nat) (requests : List Request) :
    Option.Rel (fun x y => x.1 = y.1 ∧ x.2.Same y.2) (session.answers? fuel requests)
      (session'.answers? fuel requests) := by
  induction requests generalizing session session' with
  | nil => exact .some ⟨rfl, h⟩
  | cons request requests ih =>
    refine (h.answer? fuel request).bind fun first first' same => ?_
    refine (ih same.2).map fun rest rest' sameRest => ⟨?_, sameRest.2⟩
    simp only [same.1, sameRest.1]

/-- An evaluation fails for its source exactly if the source does not compile, and then before
anything else. -/
theorem eval?_of_compile_error {source : String} {e : Error}
    (h : (session.compile source).1 = .error e) (fuel : Nat) (feed : ρ) (sink : σ) :
    session.eval? source fuel feed sink =
      some { result := .error e, session := (session.compile source).2, feed, sink } := by
  rw [eval?]
  cases hCompile : session.compile source with
  | mk result after =>
    rw [hCompile] at h
    obtain rfl : result = .error e := h
    rfl

theorem compile_error_of_eval? {source : String} {fuel : Nat} {feed : ρ} {sink : σ} {e : Error}
    {reply : Reply ρ σ Code} (h : session.eval? source fuel feed sink = some reply)
    (hResult : reply.result = .error e) (hSource : e.isOfSource = true) :
    (session.compile source).1 = .error e := by
  cases hCompile : (session.compile source).1 with
  | error cause =>
    rw [eval?_of_compile_error hCompile] at h
    cases h
    exact hResult
  | ok code =>
    -- A source that compiles fails by its run, and such an error is none of the source.
    obtain ⟨p, scope, hCompiles⟩ := Compiles.exists_of_compile hCompile
    rw [hCompiles.eval?_eq] at h
    obtain ⟨halt, -, rfl⟩ := Option.map_eq_some_iff.mp h
    cases hHalt : halt.result with
    | ok =>
      simp only [hHalt] at hResult
      cases hResult
    | error cause =>
      simp only [hHalt] at hResult
      cases hResult
      cases hSource

/-- Failed requests leave no trace, in every session, whatever it has been through.  A source that
does not compile, or whose evaluation fails before its code runs, leaves the declarations and the
variables as they were.  Nothing is done with the input and the output, of any kind, be it one that
keeps a record.  And sessions with the same declarations and the same variables give the same
answers to all further requests, and have the same declarations and variables behind them. -/
theorem failed_requests_leave_no_trace (session : Session) :
    (∀ source e, (session.compile source).1 = .error e →
      e.isOfSource = true ∧
      (session.compile source).2.scope.declared = session.scope.declared ∧
      (session.compile source).2.machine.vars = session.machine.vars) ∧
    (∀ (ρ σ : Type) [Intake ρ] [Sink σ] (source : String) (fuel : Nat) (feed : ρ) (sink : σ)
        (reply : Reply ρ σ Code) (e : Error),
      session.eval? source fuel feed sink = some reply → reply.result = .error e →
      e.isOfSource = true →
      reply.session.scope.declared = session.scope.declared ∧
      reply.session.machine.vars = session.machine.vars ∧ reply.feed = feed ∧ reply.sink = sink) ∧
    ∀ session', session.Same session' → ∀ fuel requests,
      Option.Rel (fun x y => x.1 = y.1 ∧ x.2.Same y.2) (session.answers? fuel requests)
        (session'.answers? fuel requests) := by
  refine ⟨?_, ?_, ?_⟩
  · intro source e hCompile
    obtain ⟨hSource, hDeclared⟩ := declared_of_compileIn_error hCompile
    exact ⟨hSource, hDeclared, rfl⟩
  · intro ρ σ _ _ source fuel feed sink reply e hEval hResult hSource
    have hCompile := compile_error_of_eval? hEval hResult hSource
    rw [eval?_of_compile_error hCompile] at hEval
    cases hEval
    exact ⟨(declared_of_compileIn_error hCompile).2, rfl, rfl, rfl⟩
  · intro session' hSame fuel requests
    exact hSame.answers? fuel requests

end Session

end Abacus
