import Abacus.Proofs.Machine.Output

/-! Output that comes to an end.  A tape with room for a number of bytes is like a sink that never
fails, up to the write that does not fit.  An instruction does all its writing before it reads or
stores anything, so a run on the tape ends there with the variables and the input that it had before
the instruction, and with as many bytes of the output as there was room for. -/

namespace Abacus

/-! ### Output only grows -/

/-- The same sink, where the first record has some more at its start. -/
def Recorded.Onward {σ : Type} (before : List Effect) (r r' : Recorded σ) : Prop :=
  r.port = r'.port ∧ r.effects = before ++ r'.effects

theorem Recorded.related_onward {σ α : Type} (before : List Effect) (effect : Effect)
    (act : EStateM String σ α) :
    Related (Onward before) (record effect act) (record effect act) := by
  rintro ⟨port, _⟩ ⟨_, effects⟩ ⟨port_eq, effects_eq⟩
  dsimp only at port_eq effects_eq
  subst port_eq effects_eq
  cases h : act port with
  | ok a after =>
    refine .inl ⟨a, ⟨after, before ++ effects ++ [effect]⟩, ⟨after, effects ++ [effect]⟩, ?_, ?_,
      rfl, List.append_assoc _ _ _⟩ <;> simp only [record, h]
  | error message after =>
    refine .inr ⟨message, ⟨after, before ++ effects ++ [effect]⟩, ⟨after, effects ++ [effect]⟩, ?_,
      ?_, rfl, List.append_assoc _ _ _⟩ <;> simp only [record, h]

/-- An input, and an output with a record. -/
abbrev Logged (ρ σ : Type) := Channels ρ (Recorded σ)

namespace Machine

/-- The state in which an action ends. -/
def ending {π α : Type} : EStateM.Result RuntimeError (State π) α → State π
  | .ok _ s | .error _ s => s

/-- The state that a step leads to, also if the run ends there. -/
def Step.state {π : Type} : Step π → State π
  | .next s => s
  | .halt h => h.state

variable {ρ σ α β : Type}

section Grows

variable [Intake ρ] [Sink σ]

theorem coupled_onward (before : List Effect) :
    Coupled (State.Alike (Channels.Beside (ρ := ρ) (Recorded.Onward (σ := σ) before))) :=
  coupled_alike (Channels.alike_beside (fun _ => Recorded.related_onward _ _ _)
    (Recorded.related_onward _ _ _))

omit [Intake ρ] [Sink σ] in
theorem written_prefix_of_onward {s t t' : State (Logged ρ σ)}
    (h : State.Alike (Channels.Beside (Recorded.Onward s.port.sink.effects)) t t') :
    s.port.sink.written <+: t.port.sink.written := by
  obtain ⟨-, -, -, effects_eq⟩ := h
  rw [Recorded.written, Recorded.written, effects_eq, List.flatMap_append]
  exact List.prefix_append _ _

/-- The state with nothing on its record yet. -/
def State.unrecorded (s : State (Logged ρ σ)) : State (Logged ρ σ) :=
  { s with port := ⟨s.port.feed, ⟨s.port.sink.port, []⟩⟩ }

omit [Intake ρ] [Sink σ] in
theorem State.onward_unrecorded (s : State (Logged ρ σ)) :
    State.Alike (Channels.Beside (Recorded.Onward s.port.sink.effects)) s s.unrecorded :=
  ⟨rfl, rfl, rfl, (List.append_nil _).symm⟩

omit [Intake ρ] [Sink σ] in
/-- An action that does the same whatever is on record only adds to the output. -/
theorem written_prefix_ending {act : Action (Logged ρ σ) α}
    (h : ∀ before, Related (State.Alike (Channels.Beside (Recorded.Onward before))) act act)
    (s : State (Logged ρ σ)) :
    s.port.sink.written <+: (ending (act s)).port.sink.written := by
  obtain ⟨_, t, t', ht, -, onward⟩ | ⟨_, t, t', ht, -, onward⟩ :=
    h s.port.sink.effects s s.unrecorded s.onward_unrecorded
  · rw [ht]
    exact written_prefix_of_onward onward
  · rw [ht]
    exact written_prefix_of_onward onward

theorem written_prefix_step (code : Code) (s : State (Logged ρ σ)) :
    s.port.sink.written <+: (step code s).state.port.sink.written := by
  have hStep := step_coupled (coupled_onward s.port.sink.effects) code s.onward_unrecorded
  generalize step code s = next, step code s.unrecorded = next' at hStep ⊢
  cases hStep with
  | next onward => exact written_prefix_of_onward onward
  | halt _ onward => exact written_prefix_of_onward onward

theorem written_prefix_steps {code : Code} {n : Nat} {s t : State (Logged ρ σ)}
    (h : Steps code n s t) : s.port.sink.written <+: t.port.sink.written := by
  induction h with
  | refl => exact List.prefix_rfl
  | @step _ s _ _ first _ ih =>
    have hFirst := written_prefix_step code s
    rw [first] at hFirst
    exact hFirst.trans ih

theorem written_prefix_run? {code : Code} {fuel : Nat} {s : State (Logged ρ σ)}
    {halt : Halt (Logged ρ σ)} (h : run? code fuel s = some halt) :
    (step code s).state.port.sink.written <+: halt.state.port.sink.written := by
  cases fuel with
  | zero => cases h
  | succ fuel =>
    rw [run?] at h
    cases hStep : step code s with
    | halt last =>
      rw [hStep] at h
      cases h
      exact List.prefix_rfl
    | next after =>
      rw [hStep] at h
      obtain ⟨n, last, hSteps, hHalt⟩ := exists_steps_of_run? h
      have hLast := written_prefix_step code last
      rw [hHalt] at hLast
      exact (written_prefix_steps hSteps).trans hLast

end Grows

end Machine

/-! ### Writing where there is room -/

/-- The tape with as much of a text as there is room for. -/
def Tape.filled (tape : Tape) (room : Nat) (text : String) : Tape :=
  { tape with
    written := tape.written ++ text.toUTF8.data.take room
    room := some (room - text.toUTF8.data.size) }

theorem Tape.write_eq {tape : Tape} {room : Nat} (h : tape.room = some room) (text : String) :
    Sink.write text tape = if text.toUTF8.data.size ≤ room then .ok () (tape.filled room text)
      else .error tape.fullMessage (tape.filled room text) := by
  show Tape.write text tape = _
  simp only [Tape.write, h]
  rfl

theorem Tape.toList_filled (tape : Tape) (room : Nat) (text : String) :
    (tape.filled room text).written.toList =
      tape.written.toList ++ text.toUTF8.data.toList.take room := by
  simp [filled]

/-- A sink that never fails, and a tape that has taken the same bytes and has room for as many more
as are left of `limit`. -/
structure Within {σ : Type} [Sink σ] (limit : Nat) (message : String) (r : Recorded σ)
    (tape : Tape) : Prop where
  never : Sink.NeverFails r.port
  written_eq : tape.written.toList = r.written
  length_le : r.written.length ≤ limit
  room_eq : tape.room = some (limit - r.written.length)
  message_eq : tape.fullMessage = message
  flush_eq : tape.failingFlush = none

namespace Within

variable {σ : Type} [Sink σ] {limit : Nat} {message : String} {r : Recorded σ} {tape : Tape}

theorem start {sink : σ} (never : Sink.NeverFails sink) (limit : Nat) (message : String) :
    Within limit message ⟨sink, []⟩ { room := some limit, fullMessage := message } :=
  ⟨never, rfl, Nat.zero_le limit, rfl, rfl, rfl⟩

theorem flush (h : Within limit message r tape) :
    ∃ r' tape', Sink.flush r = .ok () r' ∧ Sink.flush tape = .ok () tape' ∧
      Within limit message r' tape' := by
  obtain ⟨after, hFlush, never⟩ := h.never.flush
  have written_eq : (Recorded.mk after (r.effects ++ [.flush])).written = r.written := by
    simp [Recorded.written, Effect.bytes]
  refine ⟨_, { tape with flushes := tape.flushes + 1 }, Recorded.record_of_ok hFlush, ?_, never, ?_,
    ?_, ?_, h.message_eq, h.flush_eq⟩
  · show Tape.flush tape = _
    simp [Tape.flush, h.flush_eq]
  · rw [written_eq, ← h.written_eq]
  · rw [written_eq]
    exact h.length_le
  · rw [written_eq, ← h.room_eq]

/-- A write fits on the tape, or else fills it with the bytes that there is room for. -/
theorem write (h : Within limit message r tape) (text : String) :
    ∃ r', Sink.write text r = .ok () r' ∧
      ((∃ tape', Sink.write text tape = .ok () tape' ∧ Within limit message r' tape') ∨
        ∃ tape', Sink.write text tape = .error message tape' ∧ limit < r'.written.length ∧
          tape'.written.toList = r'.written.take limit) := by
  obtain ⟨after, hWrite, never⟩ := h.never.write text
  refine ⟨_, Recorded.record_of_ok hWrite, ?_⟩
  have written_eq : (Recorded.mk after (r.effects ++ [.write text])).written =
      r.written ++ text.toUTF8.data.toList := by
    simp [Recorded.written, Effect.bytes]
  have length_le := h.length_le
  have length_eq : text.toUTF8.data.toList.length = text.toUTF8.data.size := Array.length_toList
  have tape_eq := Tape.write_eq h.room_eq text
  by_cases fits : text.toUTF8.data.size ≤ limit - r.written.length
  · rw [if_pos fits] at tape_eq
    refine .inl ⟨_, tape_eq, never, ?_, ?_, ?_, h.message_eq, h.flush_eq⟩
    · rw [Tape.toList_filled, List.take_of_length_le (by omega), h.written_eq, written_eq]
    · rw [written_eq, List.length_append]
      omega
    · rw [written_eq, List.length_append, Tape.filled, length_eq, Nat.sub_sub]
  · rw [if_neg fits, h.message_eq] at tape_eq
    refine .inr ⟨_, tape_eq, ?_, ?_⟩
    · rw [written_eq, List.length_append]
      omega
    · rw [Tape.toList_filled, h.written_eq, written_eq, List.take_append,
        List.take_of_length_le length_le]

end Within

/-- A sink that takes no notice of what is done with it. -/
abbrev Sink.mute (σ : Type) : Sink σ := ⟨fun _ => pure (), pure ()⟩

/-! ### Actions up to the end of the room -/

namespace Machine

variable {ρ σ α β : Type} [Sink σ] {limit : Nat} {message : String}

/-- The same machine with the same input, on a sink that never fails and on a tape with room. -/
abbrev State.Abreast (limit : Nat) (message : String) :
    State (Logged ρ σ) → State (Channels ρ Tape) → Prop :=
  State.Alike (Channels.Beside (Within limit message))

/-- What is left at the end of the room, at `t'`, of an action that leads from `s` to `t` where
there is no such end: the first bytes of the output, and the variables and the input from before. -/
structure CutOff (limit : Nat) (s t : State (Logged ρ σ)) (t' : State (Channels ρ Tape)) :
    Prop where
  excess : limit < t.port.sink.written.length
  written_eq : t'.port.sink.written.toList = t.port.sink.written.take limit
  vars_eq : t'.vars = s.vars
  feed_eq : t'.port.feed = s.port.feed

omit [Sink σ] in
theorem CutOff.onward {s t u : State (Logged ρ σ)} {t' : State (Channels ρ Tape)}
    (h : CutOff limit s t t') (onward : t.port.sink.written <+: u.port.sink.written) :
    CutOff limit s u t' := by
  obtain ⟨more, written_eq⟩ := onward
  refine ⟨?_, ?_, h.vars_eq, h.feed_eq⟩
  · rw [← written_eq, List.length_append]
    exact Nat.lt_add_right _ h.excess
  · rw [← written_eq, List.take_append_of_le_length (Nat.le_of_lt h.excess), h.written_eq]

/-- How an action ends on a tape, beside how it ends on a sink that never fails. -/
inductive Truncated (limit : Nat) (message : String) (s : State (Logged ρ σ)) :
    EStateM.Result RuntimeError (State (Logged ρ σ)) α →
      EStateM.Result RuntimeError (State (Channels ρ Tape)) α → Prop
  | ok {a : α} {t : State (Logged ρ σ)} {t' : State (Channels ρ Tape)}
      (abreast : State.Abreast limit message t t') : Truncated limit message s (.ok a t) (.ok a t')
  | error {e : RuntimeError} {t : State (Logged ρ σ)} {t' : State (Channels ρ Tape)}
      (abreast : State.Abreast limit message t t') :
      Truncated limit message s (.error e t) (.error e t')
  | cut {result : EStateM.Result RuntimeError (State (Logged ρ σ)) α}
      {t' : State (Channels ρ Tape)} (cutOff : CutOff limit s (ending result) t') :
      Truncated limit message s result (.error (.io message) t')

/-- An action that on a tape goes the same way or is cut off at the end of the room. -/
def Truncates (limit : Nat) (message : String) (act : Action (Logged ρ σ) α)
    (act' : Action (Channels ρ Tape) α) : Prop :=
  ∀ s s', State.Abreast limit message s s' → Truncated limit message s (act s) (act' s')

/-- An action that leaves the variables and the input alone when it completes. -/
def Preparing (act : Action (Logged ρ σ) α) : Prop :=
  ∀ s a t, act s = .ok a t → t.vars = s.vars ∧ t.port.feed = s.port.feed

theorem Truncates.of_related {act : Action (Logged ρ σ) α} {act' : Action (Channels ρ Tape) α}
    (h : Related (State.Abreast limit message) act act') :
    Truncates limit message act act' := by
  intro s s' abreast
  obtain ⟨a, t, t', ht, ht', after⟩ | ⟨e, t, t', ht, ht', after⟩ := h s s' abreast
  · rw [ht, ht']
    exact .ok after
  · rw [ht, ht']
    exact .error after

theorem Truncates.bind {act : Action (Logged ρ σ) α} {act' : Action (Channels ρ Tape) α}
    {next : α → Action (Logged ρ σ) β} {next' : α → Action (Channels ρ Tape) β}
    (hAct : Truncates limit message act act')
    (hPrepares : Preparing act) (hNext : ∀ a, Truncates limit message (next a) (next' a))
    (hGrows : ∀ a t, t.port.sink.written <+: (ending (next a t)).port.sink.written) :
    Truncates limit message (act >>= next) (act' >>= next') := by
  intro s s' abreast
  have hFirst := hAct s s' abreast
  simp only [Bind.bind, EStateM.bind]
  generalize hs : act s = result, act' s' = result' at hFirst
  cases hFirst with
  | @ok a t t' after =>
    obtain ⟨vars_eq, feed_eq⟩ := hPrepares s a t hs
    have hSecond := hNext a t t' after
    dsimp only
    generalize next a t = result, next' a t' = result' at hSecond
    cases hSecond with
    | ok last => exact .ok last
    | error last => exact .error last
    | cut cutOff =>
      exact .cut ⟨cutOff.excess, cutOff.written_eq, cutOff.vars_eq.trans vars_eq,
        cutOff.feed_eq.trans feed_eq⟩
  | error after => exact .error after
  | cut cutOff =>
    -- On the sink that never fails the action goes on, and its output grows.
    cases result with
    | ok a t => exact .cut (cutOff.onward (hGrows a t))
    | error e t => exact .cut cutOff

omit [Sink σ] in
theorem preparing_pop (op : Opcode) (index : Nat) :
    Preparing (pop op index : Action (Logged ρ σ) Float) := by
  rintro ⟨⟨pc, stack, vars⟩, port⟩ a t h
  cases stack with
  | nil => cases h
  | cons value rest =>
    cases h
    exact ⟨rfl, rfl⟩

theorem preparing_write (text : String) :
    Preparing (io (Sink.write text) : Action (Logged ρ σ) Unit) := by
  rintro ⟨machine, feed, sink⟩ a t h
  change io (Channels.onSink (Sink.write text)) _ = _ at h
  simp only [io, Channels.onSink] at h
  cases hWrite : Sink.write text sink with
  | ok _ after =>
    rw [hWrite] at h
    cases h
    exact ⟨rfl, rfl⟩
  | error _ after =>
    rw [hWrite] at h
    cases h

theorem truncates_write (text : String) :
    Truncates limit message (io (Sink.write text) : Action (Logged ρ σ) Unit)
      (io (Sink.write text)) := by
  rintro ⟨machine, feed, r⟩ ⟨_, _, tape⟩ ⟨rfl, rfl, within⟩
  change Truncated _ _ _ (io (Channels.onSink (Sink.write text)) _)
    (io (Channels.onSink (Sink.write text)) _)
  obtain ⟨r', hr, ⟨tape', hTape, within'⟩ | ⟨tape', hTape, excess, written_eq⟩⟩ := within.write text
  · simp only [io, Channels.onSink, hr, hTape]
    exact .ok ⟨rfl, rfl, within'⟩
  · simp only [io, Channels.onSink, hr, hTape]
    exact .cut ⟨excess, written_eq, rfl, rfl⟩

theorem related_flush :
    Related (State.Abreast (ρ := ρ) (σ := σ) limit message) (io Sink.flush) (io Sink.flush) := by
  refine related_io (Channels.related_onSink ?_)
  intro r tape within
  obtain ⟨r', tape', hr, hTape, within'⟩ := within.flush
  exact .inl ⟨(), r', tape', hr, hTape, within'⟩

/-! ### Instructions and runs up to the end of the room -/

variable [Intake ρ]

/-- Where nothing is written, whatever stands between two sinks is kept. -/
theorem coupled_mute {τ τ' : Type} (S : τ → τ' → Prop) :
    @Coupled (Channels ρ τ) (Channels ρ τ') _ (.mute _) _ (.mute _)
      (State.Alike (Channels.Beside S)) :=
  @coupled_alike _ _ _ (.mute _) _ (.mute _) _ (@Alike.mk _ _ _ (.mute _) _ (.mute _) _
    (fun _ => .pure ()) (.pure ()) (Channels.related_onFeed (.same _)))

/-- An instruction that is neither a print nor an input does the same on any sink. -/
theorem exec_eq_mute {π : Type} [Intake π] [Sink π] {i : Instr} (hPrint : i.op ≠ .print)
    (hInput : i.op ≠ .input) (index size : Nat) :
    (exec i index size : Action π Unit) = @exec π _ (.mute π) i index size := by
  unfold exec
  cases hOp : i.op with
  | print => exact absurd hOp hPrint
  | input => exact absurd hOp hInput
  | _ => rfl

theorem truncates_printNumber (value : Float) :
    Truncates limit message (printNumber value : Action (Logged ρ σ) Unit) (printNumber value) :=
  (truncates_write _).bind (preparing_write _) (fun _ => truncates_write _) fun _ =>
    written_prefix_ending fun before => (coupled_onward before).write _

theorem truncates_inputNumber (name : String) :
    Truncates limit message (inputNumber name : Action (Logged ρ σ) Unit) (inputNumber name) := by
  have hRead : Related (State.Abreast limit message)
      (do io Sink.flush; readNumber name : Action (Logged ρ σ) Unit)
      (do io Sink.flush; readNumber name) :=
    related_flush.bind fun _ =>
      @related_readNumber _ _ _ (.mute _) _ (.mute _) _ (coupled_mute _) name
  have hGrows (before : List Effect) : Related
      (State.Alike (Channels.Beside (Recorded.Onward before)))
      (do io Sink.flush; readNumber name : Action (Logged ρ σ) Unit)
      (do io Sink.flush; readNumber name) :=
    (coupled_onward before).flush.bind fun _ => related_readNumber (coupled_onward before) name
  refine (truncates_write _).bind (preparing_write _) (fun _ => ?_) fun _ =>
    written_prefix_ending fun before => ((coupled_onward before).write _).bind fun _ =>
      hGrows before
  exact (truncates_write _).bind (preparing_write _) (fun _ => .of_related hRead) fun _ =>
    written_prefix_ending hGrows

theorem truncates_exec (i : Instr) (index size : Nat) :
    Truncates limit message (exec i index size : Action (Logged ρ σ) Unit)
      (exec i index size) := by
  by_cases hPrint : i.op = .print
  · have hGrows (value : Float) (before : List Effect) :=
      related_printNumber (coupled_onward (ρ := ρ) (σ := σ) before) value
    rw [exec, hPrint, exec, hPrint]
    exact (Truncates.of_related (related_pop _ _)).bind (preparing_pop _ _)
      truncates_printNumber fun value => written_prefix_ending (hGrows value)
  · by_cases hInput : i.op = .input
    · rw [exec, hInput, exec, hInput]
      cases i.name with
      | none => exact .of_related (.throw _)
      | some name => exact truncates_inputNumber name
    · have hQuiet : Related (State.Abreast limit message)
          (@exec (Logged ρ σ) _ (.mute _) i index size)
          (@exec (Channels ρ Tape) _ (.mute _) i index size) :=
        @related_exec _ _ _ (.mute _) _ (.mute _) _ (coupled_mute _) i index size
      rw [← exec_eq_mute hPrint hInput, ← exec_eq_mute hPrint hInput] at hQuiet
      exact .of_related hQuiet

section Runs

variable {code : Code} {s : State (Logged ρ σ)} {s' : State (Channels ρ Tape)}

/-- A step on the tape goes the same way or is cut off. -/
theorem step_truncated (code : Code) (h : State.Abreast limit message s s') :
    Step.Coupled (State.Abreast limit message) (step code s) (step code s') ∨
      ∃ t', step code s' = .halt ⟨.error (.io message), t'⟩ ∧
        CutOff limit s (step code s).state t' := by
  have pc_eq : s.pc = s'.pc := by rw [h.1]
  simp only [step, ← pc_eq]
  cases code.instrs[s.pc]? with
  | none => exact .inl (Step.coupled_halt related_flush h)
  | some i =>
    have hExec := truncates_exec i s.pc code.size { s with pc := s.pc + 1 }
      { s' with pc := s.pc + 1 } ⟨by simp only [h.1], h.2⟩
    simp only
    generalize exec i s.pc code.size { s with pc := s.pc + 1 } = result,
      exec i s.pc code.size { s' with pc := s.pc + 1 } = result' at hExec
    cases hExec with
    | ok after => exact .inl (.next after)
    | error after => exact .inl (.halt rfl after)
    | cut cutOff =>
      refine .inr ⟨_, rfl, ?_⟩
      cases result with
      | ok _ t => exact ⟨cutOff.excess, cutOff.written_eq, cutOff.vars_eq, cutOff.feed_eq⟩
      | error _ t => exact ⟨cutOff.excess, cutOff.written_eq, cutOff.vars_eq, cutOff.feed_eq⟩

/-- A run whose output fits goes the same way on the tape. -/
theorem run?_of_fits {fuel : Nat} {halt : Halt (Logged ρ σ)}
    (h : State.Abreast limit message s s') (hRun : run? code fuel s = some halt)
    (fits : halt.state.port.sink.written.length ≤ limit) :
    ∃ halt', run? code fuel s' = some halt' ∧ halt'.result = halt.result ∧
      State.Abreast limit message halt.state halt'.state := by
  induction fuel generalizing s s' with
  | zero => cases hRun
  | succ fuel ih =>
    rcases step_truncated code h with hStep | ⟨t', -, cutOff⟩
    · rw [run?] at hRun ⊢
      generalize step code s = first, step code s' = first' at hStep hRun ⊢
      cases hStep with
      | next after => exact ih after hRun
      | halt result after =>
        cases hRun
        exact ⟨_, rfl, result.symm, after⟩
    · have := (written_prefix_run? hRun).length_le
      have := cutOff.excess
      omega

/-- A run whose output does not fit is cut off on the tape, at the first instruction whose output
does not fit. -/
theorem exists_cutOff_of_steps {n : Nat} {t : State (Logged ρ σ)}
    (hSteps : Steps code n s t) (h : State.Abreast limit message s s')
    (excess : limit < (step code t).state.port.sink.written.length) :
    ∃ k before fuel last, Steps code k s before ∧
      before.port.sink.written.length ≤ limit ∧
      run? code fuel s' = some ⟨.error (.io message), last⟩ ∧
      CutOff limit before (step code before).state last ∧
      (step code before).state.port.sink.written <+: (step code t).state.port.sink.written := by
  induction hSteps generalizing s' with
  | refl s =>
    rcases step_truncated code h with hStep | ⟨last, hLast, cutOff⟩
    · have fits : (step code s).state.port.sink.written.length ≤ limit := by
        generalize step code s = first, step code s' = first' at hStep
        cases hStep with
        | next after => exact after.2.2.length_le
        | halt _ after => exact after.2.2.length_le
      omega
    · exact ⟨0, s, 1, last, .refl s, h.2.2.length_le, run?_of_halt hLast 0, cutOff,
        List.prefix_rfl⟩
  | @step n s middle t first rest ih =>
    rcases step_truncated code h with hStep | ⟨last, hLast, cutOff⟩
    · rw [first] at hStep
      generalize hFirst : step code s' = first' at hStep
      cases hStep with
      | @next _ middle' after =>
        obtain ⟨k, before, fuel, last, hBefore, fits, hRun, cutOff, onward⟩ := ih after excess
        refine ⟨k + 1, before, fuel + 1, last, .step first hBefore, fits, ?_, cutOff, onward⟩
        rw [run?, hFirst]
        exact hRun
    · have onward := (written_prefix_steps rest).trans (written_prefix_step code t)
      refine ⟨0, s, 1, last, .refl s, h.2.2.length_le, run?_of_halt hLast 0, cutOff, ?_⟩
      rw [first]
      exact onward

end Runs

/-- Runs on a sink that never fails, and on a tape with room for `limit` bytes whose flushes do not
fail.  If the first run ends with no more output than that, then the second ends in the same way.
If the first run comes to more output, then the second ends with the tape's failure and with the
first `limit` bytes on the tape, and with the variables and the input that the first run has before
the instruction whose output is too much. -/
theorem tape_truncates {sink : σ} (never : Sink.NeverFails sink) (m : Machine) (code : Code)
    (feed : ρ) (limit : Nat) (message : String) :
    let free := Channels.mk feed (Recorded.mk sink [])
    let tape := Channels.mk feed { room := some limit, fullMessage := message : Tape }
    (∀ fuel halt, m.execute? code fuel free = some halt →
      halt.state.port.sink.written.length ≤ limit →
      ∃ halt', m.execute? code fuel tape = some halt' ∧ halt'.result = halt.result ∧
        halt'.state.port.sink.written.toList = halt.state.port.sink.written ∧
        halt'.state.vars = halt.state.vars ∧ halt'.state.port.feed = halt.state.port.feed) ∧
    (∀ n s, Steps code n (m.start free) s →
      limit < (step code s).state.port.sink.written.length →
      ∃ k before, Steps code k (m.start free) before ∧
        before.port.sink.written.length ≤ limit ∧
        limit < (step code before).state.port.sink.written.length ∧
        ∃ fuel halt', m.execute? code fuel tape = some halt' ∧
          halt'.result = .error (.io message) ∧
          halt'.state.port.sink.written.toList =
            (step code s).state.port.sink.written.take limit ∧
          halt'.state.vars = before.vars ∧ halt'.state.port.feed = before.port.feed) := by
  intro free tape
  have start : State.Abreast limit message (m.start free) (m.start tape) :=
    ⟨rfl, rfl, .start never limit message⟩
  constructor
  · intro fuel halt hRun fits
    obtain ⟨halt', hRun', result, machine, feed_eq, within⟩ := run?_of_fits start hRun fits
    exact ⟨halt', hRun', result, within.written_eq, (congrArg Machine.vars machine).symm,
      feed_eq.symm⟩
  · intro n s hSteps excess
    obtain ⟨k, before, fuel, last, hBefore, fits, hRun, cutOff, onward⟩ :=
      exists_cutOff_of_steps hSteps start excess
    exact ⟨k, before, hBefore, fits, cutOff.excess, fuel, _, hRun, rfl,
      (cutOff.onward onward).written_eq, cutOff.vars_eq, cutOff.feed_eq⟩

/-- There is room for a number and not for the line feed behind it. -/
theorem tape_truncates_lineFeed :
    Sink.NeverFails ({} : Tape) ∧ ∃ fuel halt,
      Machine.execute? {} ⟨#[.pushConst one, .simple .print]⟩ fuel
        (Channels.mk (Feed.ofBytes []) { room := some 3, fullMessage := "full" : Tape }) =
          some halt ∧
      halt.result = .error (.io "full") ∧
      halt.state.port.sink.written.toList = Text.encode "1.0" := by
  have never : Sink.NeverFails ({} : Tape) := Tape.neverFails rfl rfl
  obtain ⟨-, -, -, -, -, fuel, halt, hRun, result, written_eq, -, -⟩ :=
    (tape_truncates never {} ⟨#[.pushConst one, .simple .print]⟩ (Feed.ofBytes []) 3 "full").2 1 _
      (.one rfl) (by decide +kernel)
  exact ⟨never, fuel, halt, hRun, result, written_eq.trans (by decide +kernel)⟩

end Machine

end Abacus
