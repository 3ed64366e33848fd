import Abacus.Proofs.Machine.Ports

/-! Output as bytes.  A sink that never fails takes whatever is written to it, and on its record it
keeps the bytes.  Runs on two such sinks go alike if the one has written some bytes more before,
however often each of them has been flushed. -/

namespace Abacus

/-- No write and no flush fails, now or later: something holds of the sink that rules failures out
and is kept by writes and flushes. -/
def Sink.NeverFails {σ : Type} [Sink σ] (sink : σ) : Prop :=
  ∃ Good : σ → Prop, Good sink ∧ ∀ s, Good s →
    (∀ text, ∃ s', Sink.write text s = .ok () s' ∧ Good s') ∧
    ∃ s', Sink.flush s = .ok () s' ∧ Good s'

namespace Sink.NeverFails

variable {σ : Type} [Sink σ] {sink : σ}

theorem write (h : NeverFails sink) (text : String) :
    ∃ after, Sink.write text sink = .ok () after ∧ NeverFails after := by
  obtain ⟨Good, holds, keeps⟩ := h
  obtain ⟨after, step, kept⟩ := (keeps sink holds).1 text
  exact ⟨after, step, Good, kept, keeps⟩

theorem flush (h : NeverFails sink) :
    ∃ after, Sink.flush sink = .ok () after ∧ NeverFails after := by
  obtain ⟨Good, holds, keeps⟩ := h
  obtain ⟨after, step, kept⟩ := (keeps sink holds).2
  exact ⟨after, step, Good, kept, keeps⟩

end Sink.NeverFails

theorem Tape.neverFails {tape : Tape} (hRoom : tape.room = none)
    (hFlush : tape.failingFlush = none) : Sink.NeverFails tape := by
  refine ⟨fun tape => tape.room = none ∧ tape.failingFlush = none, ⟨hRoom, hFlush⟩, ?_⟩
  rintro s ⟨hRoom, hFlush⟩
  refine ⟨fun text => ⟨{ s with written := s.written ++ text.toUTF8.data }, ?_, hRoom, hFlush⟩,
    { s with flushes := s.flushes + 1 }, ?_, hRoom, hFlush⟩
  · show Tape.write text s = _
    simp only [Tape.write, hRoom]
  · show Tape.flush s = _
    simp [Tape.flush, hFlush]

/-- The bytes that something done with a port puts out. -/
def Effect.bytes : Effect → List UInt8
  | write text => text.toUTF8.data.toList
  | flush | read => []

/-- The bytes written so far. -/
def Recorded.written {σ : Type} (r : Recorded σ) : List UInt8 := r.effects.flatMap Effect.bytes

theorem Recorded.record_of_ok {σ α : Type} {r : Recorded σ} {effect : Effect}
    {act : EStateM String σ α} {a : α} {after : σ} (h : act r.port = .ok a after) :
    record effect act r = .ok a ⟨after, r.effects ++ [effect]⟩ := by
  simp only [record, h]

namespace Channels

variable {ρ ρ' σ σ' α : Type} {F : ρ → ρ' → Prop} {S : σ → σ' → Prop}

/-- Inputs that stand in a relation, and outputs that stand in a relation. -/
def Pairwise (F : ρ → ρ' → Prop) (S : σ → σ' → Prop) (c : Channels ρ σ) (c' : Channels ρ' σ') :
    Prop :=
  F c.feed c'.feed ∧ S c.sink c'.sink

/-- The same input, and outputs that stand in a relation. -/
def Beside (S : σ → σ' → Prop) (c : Channels ρ σ) (c' : Channels ρ σ') : Prop :=
  c.feed = c'.feed ∧ S c.sink c'.sink

theorem related_onFeed {act : EStateM String ρ α} {act' : EStateM String ρ' α}
    (hAct : Related F act act') : Related (Pairwise F S) (onFeed act) (onFeed act') := by
  rintro ⟨feed, sink⟩ ⟨feed', sink'⟩ ⟨hF, hS⟩
  obtain ⟨a, t, t', ht, ht', hF⟩ | ⟨e, t, t', ht, ht', hF⟩ := hAct feed feed' hF
  · exact .inl ⟨a, ⟨t, sink⟩, ⟨t', sink'⟩, by simp only [onFeed, ht], by simp only [onFeed, ht'],
      hF, hS⟩
  · exact .inr ⟨e, ⟨t, sink⟩, ⟨t', sink'⟩, by simp only [onFeed, ht], by simp only [onFeed, ht'],
      hF, hS⟩

theorem related_onSink {act : EStateM String σ α} {act' : EStateM String σ' α}
    (hAct : Related S act act') : Related (Pairwise F S) (onSink act) (onSink act') := by
  rintro ⟨feed, sink⟩ ⟨feed', sink'⟩ ⟨hF, hS⟩
  obtain ⟨a, t, t', ht, ht', hS⟩ | ⟨e, t, t', ht, ht', hS⟩ := hAct sink sink' hS
  · exact .inl ⟨a, ⟨feed, t⟩, ⟨feed', t'⟩, by simp only [onSink, ht], by simp only [onSink, ht'],
      hF, hS⟩
  · exact .inr ⟨e, ⟨feed, t⟩, ⟨feed', t'⟩, by simp only [onSink, ht], by simp only [onSink, ht'],
      hF, hS⟩

variable [Intake ρ] [Intake ρ'] [Sink σ] [Sink σ']

theorem alike_pairwise (hRead : Related F Intake.readWord Intake.readWord)
    (hWrite : ∀ text, Related S (Sink.write text) (Sink.write text))
    (hFlush : Related S Sink.flush Sink.flush) : Alike (Pairwise F S) :=
  ⟨fun text => related_onSink (hWrite text), related_onSink hFlush, related_onFeed hRead⟩

theorem alike_beside (hWrite : ∀ text, Related S (Sink.write text) (Sink.write text))
    (hFlush : Related S Sink.flush Sink.flush) : Alike (Beside (ρ := ρ) S) :=
  alike_pairwise (Related.same _) hWrite hFlush

/-- A record of the output goes unnoticed. -/
theorem alike_recorded : Alike (Beside (ρ := ρ) fun (r : Recorded σ) sink => r.port = sink) :=
  alike_beside (fun _ => Recorded.related_record _ _) (Recorded.related_record _ _)

end Channels

theorem Machine.execute?_recorded {ρ σ : Type} [Intake ρ] [Sink σ] (m : Machine) (code : Code)
    (fuel : Nat) (feed : ρ) (sink : σ) :
    Option.Rel (Halt.Alike (Channels.Beside fun recorded plain => recorded.port = plain))
      (m.execute? code fuel (Channels.mk feed (Recorded.mk sink [])))
      (m.execute? code fuel (Channels.mk feed sink)) :=
  run?_alike Channels.alike_recorded code fuel ⟨rfl, rfl, rfl⟩

theorem Channels.flush_of_neverFails {ρ σ : Type} [Sink σ] {port : Channels ρ (Recorded σ)}
    (h : Sink.NeverFails port.sink.port) :
    ∃ after, Sink.NeverFails after ∧
      Sink.flush port = .ok () ⟨port.feed, ⟨after, port.sink.effects ++ [.flush]⟩⟩ := by
  obtain ⟨after, hFlush, hAfter⟩ := h.flush
  refine ⟨after, hAfter, ?_⟩
  show onSink (Recorded.record .flush Sink.flush) port = _
  simp only [onSink, Recorded.record_of_ok hFlush]

/-- Two sinks that never fail, of which the first has written some bytes and then what the second
has. -/
structure WrittenBefore {σ : Type} [Sink σ] (before : List UInt8) (r r' : Recorded σ) : Prop where
  first : Sink.NeverFails r.port
  second : Sink.NeverFails r'.port
  written : r.written = before ++ r'.written

theorem Channels.alike_written {ρ σ : Type} [Intake ρ] [Sink σ] (before : List UInt8) :
    Alike (Beside (ρ := ρ) (WrittenBefore (σ := σ) before)) := by
  refine alike_beside (fun text => ?_) ?_
  · rintro r r' ⟨first, second, written⟩
    obtain ⟨t, ht, first⟩ := first.write text
    obtain ⟨t', ht', second⟩ := second.write text
    refine .inl ⟨(), _, _, Recorded.record_of_ok ht, Recorded.record_of_ok ht', first, second, ?_⟩
    rw [Recorded.written] at written
    simp only [Recorded.written, List.flatMap_append, written, List.append_assoc]
  · rintro r r' ⟨first, second, written⟩
    obtain ⟨t, ht, first⟩ := first.flush
    obtain ⟨t', ht', second⟩ := second.flush
    refine .inl ⟨(), _, _, Recorded.record_of_ok ht, Recorded.record_of_ok ht', first, second, ?_⟩
    rw [Recorded.written] at written
    simp only [Recorded.written, List.flatMap_append, written, List.append_assoc]

end Abacus
