import Abacus.Proofs.Machine.Runs

/-! Runs side by side.  If a relation between two states is kept by everything that a machine does,
and both give the same answers, then runs from the two go the same way.  So do runs of one machine
on two ports, if a relation between the ports is kept by everything done with a port.  A port that
records what is done with it is an example: it is like the port inside. -/

namespace Abacus

/-- Two actions that on related states give the same answer or the same error, and leave related
states. -/
def Related {ε α S S' : Type} (R : S → S' → Prop) (act : EStateM ε S α) (act' : EStateM ε S' α) :
    Prop :=
  ∀ s s', R s s' →
    (∃ a t t', act s = .ok a t ∧ act' s' = .ok a t' ∧ R t t') ∨
    (∃ e t t', act s = .error e t ∧ act' s' = .error e t' ∧ R t t')

namespace Related

variable {ε α β S S' : Type} {R : S → S' → Prop}

theorem pure (a : α) : Related R (pure a : EStateM ε S α) (pure a : EStateM ε S' α) :=
  fun s s' h => .inl ⟨a, s, s', rfl, rfl, h⟩

theorem throw (e : ε) : Related R (throw e : EStateM ε S α) (throw e : EStateM ε S' α) :=
  fun s s' h => .inr ⟨e, s, s', rfl, rfl, h⟩

theorem modify {f : S → S} {f' : S' → S'} (h : ∀ s s', R s s' → R (f s) (f' s')) :
    Related R (modify f : EStateM ε S Unit) (modify f' : EStateM ε S' Unit) :=
  fun s s' hs => .inl ⟨(), f s, f' s', rfl, rfl, h s s' hs⟩

theorem same (act : EStateM ε S α) : Related Eq act act := by
  rintro s _ rfl
  cases h : act s with
  | ok a t => exact .inl ⟨a, t, t, rfl, rfl, rfl⟩
  | error e t => exact .inr ⟨e, t, t, rfl, rfl, rfl⟩

theorem bind {act : EStateM ε S α} {act' : EStateM ε S' α} {next : α → EStateM ε S β}
    {next' : α → EStateM ε S' β} (hFirst : Related R act act')
    (hNext : ∀ a, Related R (next a) (next' a)) : Related R (act >>= next) (act' >>= next') := by
  intro s s' hs
  obtain ⟨a, t, t', h, h', ht⟩ | ⟨e, t, t', h, h', ht⟩ := hFirst s s' hs
  · simp only [Bind.bind, EStateM.bind, h, h']
    exact hNext a t t' ht
  · refine .inr ⟨e, t, t', ?_, ?_, ht⟩
    · simp only [Bind.bind, EStateM.bind, h]
    · simp only [Bind.bind, EStateM.bind, h']

end Related

/-- A relation between ports that everything done with a port keeps, with the same answers. -/
structure Alike {π π' : Type} [Intake π] [Sink π] [Intake π'] [Sink π'] (R : π → π' → Prop) :
    Prop where
  write : ∀ text, Related R (Sink.write text) (Sink.write text)
  flush : Related R Sink.flush Sink.flush
  readWord : Related R Intake.readWord Intake.readWord

namespace Machine

/-- Reads a number into a variable, without asking for it. -/
def readNumber {π : Type} [Intake π] (name : String) : Action π Unit := do
  match ← io Intake.readWord with
  | none => throw (.inputExhausted name)
  | some text =>
    match Number.read? text with
    | none => throw (.invalidInput name text)
    | some value => store name value

variable {π π' α : Type} [Intake π] [Sink π] [Intake π'] [Sink π']

/-- A relation between states that everything a machine does keeps, with the same answers, so that
runs from related states go the same way. -/
structure Coupled (Q : State π → State π' → Prop) : Prop where
  pc_eq : ∀ {s s'}, Q s s' → s.pc = s'.pc
  get?_eq : ∀ {s s'} name, Q s s' → s.vars.get? name = s'.vars.get? name
  goto : ∀ {s s'} target, Q s s' → Q { s with pc := target } { s' with pc := target }
  push : ∀ {s s'} value, Q s s' →
    Q { s with stack := value :: s.stack } { s' with stack := value :: s'.stack }
  store : ∀ {s s'} name value, Q s s' →
    Q { s with vars := s.vars.set name value } { s' with vars := s'.vars.set name value }
  pop : ∀ op index, Related Q (pop op index) (pop op index)
  write : ∀ text, Related Q (io (Sink.write text)) (io (Sink.write text))
  flush : Related Q (io Sink.flush) (io Sink.flush)
  readWord : Related Q (io Intake.readWord) (io Intake.readWord)

section Coupled

variable {Q : State π → State π' → Prop}

omit [Intake π] [Sink π] [Intake π'] [Sink π'] in
theorem related_operand (op : Opcode) (index : Nat) :
    (value : Option α) → Related Q (operand op index value) (operand op index value)
  | some a => .pure a
  | none => .throw _

theorem related_push (hQ : Coupled Q) (value : Float) : Related Q (push value) (push value) :=
  .modify fun _ _ => hQ.push value

theorem related_store (hQ : Coupled Q) (name : String) (value : Float) :
    Related Q (store name value) (store name value) :=
  .modify fun _ _ => hQ.store name value

theorem related_goto (hQ : Coupled Q) (target : Nat) : Related Q (goto target) (goto target) :=
  .modify fun _ _ => hQ.goto target

theorem related_binary (hQ : Coupled Q) (op : Opcode) (index : Nat) (f : Float → Float → Float) :
    Related Q (binary op index f) (binary op index f) :=
  (hQ.pop op index).bind fun _ => (hQ.pop op index).bind fun _ => related_push hQ _

omit [Intake π] [Sink π] [Intake π'] [Sink π'] in
theorem related_jumpTarget (i : Instr) (index size : Nat) :
    Related Q (jumpTarget i index size) (jumpTarget i index size) := by
  refine (related_operand _ _ _).bind fun target => ?_
  by_cases h : size < target
  · simp only [h, if_true]
    exact (Related.throw _).bind fun _ => .pure target
  · simp only [h, if_false]
    exact .pure target

theorem related_load (hQ : Coupled Q) (name : String) :
    Related Q (do push (((← get).vars.get? name).getD zero))
      (do push (((← get).vars.get? name).getD zero)) := by
  intro s s' h
  refine .inl ⟨(), _, _, rfl, rfl, ?_⟩
  rw [hQ.get?_eq name h]
  exact hQ.push _ h

theorem related_printNumber (hQ : Coupled Q) (value : Float) :
    Related Q (printNumber value) (printNumber value) :=
  (hQ.write _).bind fun _ => hQ.write _

theorem related_readNumber (hQ : Coupled Q) (name : String) :
    Related Q (readNumber name) (readNumber name) := by
  refine hQ.readWord.bind fun word => ?_
  cases word with
  | none => exact .throw _
  | some text =>
    cases h : Number.read? text with
    | none =>
      simp only [h]
      exact .throw _
    | some value =>
      simp only [h]
      exact related_store hQ name value

theorem related_inputNumber (hQ : Coupled Q) (name : String) :
    Related Q (inputNumber name) (inputNumber name) :=
  (hQ.write _).bind fun _ => (hQ.write _).bind fun _ => hQ.flush.bind fun _ =>
    related_readNumber hQ name

/-- An instruction does the same from related states. -/
theorem related_exec (hQ : Coupled Q) (i : Instr) (index size : Nat) :
    Related Q (exec i index size) (exec i index size) := by
  unfold exec
  cases i.op with
  | pushConst => exact (related_operand _ _ _).bind (related_push hQ)
  | loadVar => exact (related_operand _ _ _).bind (related_load hQ)
  | storeVar =>
    exact (related_operand _ _ _).bind fun name => (hQ.pop _ _).bind (related_store hQ name)
  | pop => exact (hQ.pop _ _).bind fun _ => .pure ()
  | print => exact (hQ.pop _ _).bind (related_printNumber hQ)
  | input => exact (related_operand _ _ _).bind (related_inputNumber hQ)
  | jump => exact (related_jumpTarget _ _ _).bind (related_goto hQ)
  | jumpIfFalse =>
    refine (related_jumpTarget _ _ _).bind fun target => (hQ.pop _ _).bind fun value => ?_
    cases value == zero
    · exact .pure ()
    · exact related_goto hQ target
  | _ => exact related_binary hQ _ _ _

/-- Where a step leads from related states. -/
inductive Step.Coupled (Q : State π → State π' → Prop) : Step π → Step π' → Prop
  | next {s : State π} {s' : State π'} (coupled : Q s s') : Coupled Q (.next s) (.next s')
  | halt {h : Halt π} {h' : Halt π'} (result : h.result = h'.result)
      (coupled : Q h.state h'.state) : Coupled Q (.halt h) (.halt h')

omit [Intake π] [Sink π] [Intake π'] [Sink π'] in
theorem Step.coupled_halt {act : Action π Unit} {act' : Action π' Unit} (hAct : Related Q act act')
    {s : State π} {s' : State π'} (h : Q s s') :
    Step.Coupled Q (.halt (Halt.of act s)) (.halt (Halt.of act' s')) := by
  simp only [Halt.of]
  obtain ⟨_, t, t', ht, ht', hAfter⟩ | ⟨e, t, t', ht, ht', hAfter⟩ := hAct s s' h
  · simp only [ht, ht']
    exact .halt rfl hAfter
  · simp only [ht, ht']
    exact .halt rfl hAfter

theorem step_coupled (hQ : Machine.Coupled Q) (code : Code) {s : State π} {s' : State π'}
    (h : Q s s') : Step.Coupled Q (step code s) (step code s') := by
  simp only [step, ← hQ.pc_eq h]
  cases code.instrs[s.pc]? with
  | none => exact Step.coupled_halt hQ.flush h
  | some i =>
    obtain ⟨_, t, t', ht, ht', hAfter⟩ | ⟨e, t, t', ht, ht', hAfter⟩ :=
      related_exec hQ i s.pc code.size _ _ (hQ.goto (s.pc + 1) h)
    · simp only [ht, ht']
      exact .next hAfter
    · simp only [ht, ht']
      exact .halt rfl hAfter

/-- Runs from related states take the same time, and have the same result and related ends. -/
theorem run?_coupled (hQ : Machine.Coupled Q) (code : Code) (fuel : Nat) {s : State π}
    {s' : State π'} (h : Q s s') :
    Option.Rel (fun halt halt' => halt.result = halt'.result ∧ Q halt.state halt'.state)
      (run? code fuel s) (run? code fuel s') := by
  induction fuel generalizing s s' with
  | zero => exact .none
  | succ fuel ih =>
    rw [run?, run?]
    have hStep := step_coupled hQ code h
    generalize step code s = first, step code s' = first' at hStep ⊢
    cases hStep with
    | next coupled => exact ih coupled
    | halt result coupled => exact .some ⟨result, coupled⟩

end Coupled

/-! ### The same machine on related ports -/

variable {R : π → π' → Prop}

/-- The same machine on related ports. -/
def State.Alike (R : π → π' → Prop) (s : State π) (s' : State π') : Prop :=
  s.toMachine = s'.toMachine ∧ R s.port s'.port

omit [Intake π] [Sink π] [Intake π'] [Sink π'] in
theorem related_pop (op : Opcode) (index : Nat) :
    Related (State.Alike R) (pop op index) (pop op index) := by
  rintro ⟨⟨pc, stack, vars⟩, port⟩ ⟨_, port'⟩ ⟨rfl, h⟩
  cases stack with
  | nil => exact .inr ⟨_, _, _, rfl, rfl, rfl, h⟩
  | cons value rest => exact .inl ⟨_, _, _, rfl, rfl, rfl, h⟩

omit [Intake π] [Sink π] [Intake π'] [Sink π'] in
theorem related_io {act : EStateM String π α} {act' : EStateM String π' α}
    (hAct : Related R act act') : Related (State.Alike R) (io act) (io act') := by
  rintro ⟨machine, port⟩ ⟨_, port'⟩ ⟨rfl, h⟩
  obtain ⟨a, q, q', hq, hq', hR⟩ | ⟨e, q, q', hq, hq', hR⟩ := hAct port port' h
  · exact .inl ⟨a, ⟨machine, q⟩, ⟨machine, q'⟩, by simp only [io, hq],
      by simp only [io, hq'], rfl, hR⟩
  · exact .inr ⟨.io e, ⟨machine, q⟩, ⟨machine, q'⟩, by simp only [io, hq],
      by simp only [io, hq'], rfl, hR⟩

theorem coupled_alike (hR : Abacus.Alike R) : Coupled (State.Alike R) where
  pc_eq h := by rw [h.1]
  get?_eq name h := by rw [h.1]
  goto target h := ⟨by simp only [h.1], h.2⟩
  push value h := ⟨by simp only [h.1], h.2⟩
  store name value h := ⟨by simp only [h.1], h.2⟩
  pop := related_pop
  write text := related_io (hR.write text)
  flush := related_io hR.flush
  readWord := related_io hR.readWord

/-- Two ends of runs with the same result and the same machine, on related ports. -/
def Halt.Alike (R : π → π' → Prop) (h : Halt π) (h' : Halt π') : Prop :=
  h.result = h'.result ∧ State.Alike R h.state h'.state

/-- Steps on a port can be taken on a related one. -/
theorem Steps.alike (hR : Abacus.Alike R) {code : Code} {n : Nat} {s t : State π}
    (h : Steps code n s t) {s' : State π'} (hs : State.Alike R s s') :
    ∃ t', Steps code n s' t' ∧ State.Alike R t t' := by
  induction h generalizing s' with
  | refl => exact ⟨s', .refl s', hs⟩
  | step first _ ih =>
    have hStep := step_coupled (coupled_alike hR) code hs
    rw [first] at hStep
    generalize hFirst : Machine.step code s' = first' at hStep
    cases hStep with
    | next coupled =>
      obtain ⟨t', hSteps, ht⟩ := ih coupled
      exact ⟨t', .step hFirst hSteps, ht⟩

/-- Runs on related ports take the same time and come to the same end. -/
theorem run?_alike (hR : Abacus.Alike R) (code : Code) (fuel : Nat) {s : State π} {s' : State π'}
    (h : State.Alike R s s') :
    Option.Rel (Halt.Alike R) (run? code fuel s) (run? code fuel s') :=
  run?_coupled (coupled_alike hR) code fuel h

/-- What can be told of the end of a run from either of two related ports is reached on both or on
none. -/
theorem exists_execute?_iff_of_alike (hR : Abacus.Alike R) (code : Code) (m : Machine) {port : π}
    {port' : π'} (h : R port port') {P : Halt π → Prop} {P' : Halt π' → Prop}
    (hP : ∀ halt halt', Halt.Alike R halt halt' → (P halt ↔ P' halt')) :
    (∃ fuel halt, m.execute? code fuel port = some halt ∧ P halt) ↔
      ∃ fuel halt, m.execute? code fuel port' = some halt ∧ P' halt := by
  refine exists_congr fun fuel => ?_
  have hRun : Option.Rel (Halt.Alike R) (m.execute? code fuel port) (m.execute? code fuel port') :=
    run?_alike hR code fuel ⟨rfl, h⟩
  generalize m.execute? code fuel port = outcome, m.execute? code fuel port' = outcome' at hRun
  cases hRun with
  | none => simp
  | some alike => simp [hP _ _ alike]

end Machine

/-- What is done with a port. -/
inductive Effect where
  | write (text : String)
  | flush
  | read
deriving DecidableEq, Repr

/-- A port together with what has been done with it so far, first things first. -/
structure Recorded (π : Type) where
  port : π
  effects : List Effect := []

namespace Recorded

variable {π α : Type}

/-- Does something with the port and puts it on record, also if it fails. -/
def record (effect : Effect) (act : EStateM String π α) : EStateM String (Recorded π) α := fun r =>
  match act r.port with
  | .ok a port => .ok a ⟨port, r.effects ++ [effect]⟩
  | .error message port => .error message ⟨port, r.effects ++ [effect]⟩

instance [Intake π] : Intake (Recorded π) := ⟨record .read Intake.readWord⟩

instance [Sink π] : Sink (Recorded π) :=
  ⟨fun text => record (.write text) (Sink.write text), record .flush Sink.flush⟩

theorem related_record (effect : Effect) (act : EStateM String π α) :
    Related (fun r port => r.port = port) (record effect act) act := by
  rintro r _ rfl
  cases h : act r.port with
  | ok a port =>
    exact .inl ⟨a, ⟨port, r.effects ++ [effect]⟩, port, by simp only [record, h], rfl, rfl⟩
  | error message port =>
    exact .inr ⟨message, ⟨port, r.effects ++ [effect]⟩, port, by simp only [record, h], rfl, rfl⟩

theorem alike [Intake π] [Sink π] : Alike fun (r : Recorded π) port => r.port = port :=
  ⟨fun _ => related_record _ _, related_record _ _, related_record _ _⟩

end Recorded

end Abacus
