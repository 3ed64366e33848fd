import Abacus.Proofs.Machine.Output

/-! Input in portions.  How bytes are cut into portions, and how often asking for them is
interrupted, makes no difference: reading takes a word from the portions as it would from all the
bytes at once.  So words are the maximal runs of bytes that are no separators, and a machine cannot
tell one cut of its input from another. -/

namespace Abacus

namespace Feed

/-- The fills bring the bytes in portions, none of them empty, with interruptions in between. -/
inductive Delivers : List Fill → List UInt8 → Prop
  | nil : Delivers [] []
  | interrupted {fills : List Fill} {bytes : List UInt8} (others : Delivers fills bytes) :
      Delivers (.interrupted :: fills) bytes
  | bytes {portion bytes : List UInt8} {fills : List Fill} (filled : portion ≠ [])
      (others : Delivers fills bytes) : Delivers (.bytes portion :: fills) (portion ++ bytes)

theorem Delivers.unread_eq {feed : Feed} {bytes : List UInt8} (h : Delivers feed.fills bytes) :
    feed.unread = bytes := by
  unfold unread
  generalize feed.fills = fills at h
  induction h with
  | nil => rfl
  | interrupted _ ih => exact ih
  | bytes _ _ ih => rw [List.flatMap_cons, ih]

theorem Delivers.putBack {fills : List Fill} {bytes : List UInt8} (h : Delivers fills bytes)
    (left : List UInt8) : Delivers (putBack left fills) (left ++ bytes) := by
  unfold Feed.putBack
  cases left with
  | nil => exact h
  | cons b left => exact .bytes (List.cons_ne_nil b left) h

/-! ### One word, byte by byte -/

section TakeWord

variable {b : UInt8} {word : List UInt8}

theorem takeWord_nil (word : List UInt8) : takeWord word [] = (word, none) := by
  simp [takeWord]

theorem takeWord_skip (h : isSeparator b = true) (rest : List UInt8) :
    takeWord [] (b :: rest) = takeWord [] rest := by
  simp [takeWord, h]

theorem takeWord_stop (h : isSeparator b = true) (filled : word ≠ []) (rest : List UInt8) :
    takeWord word (b :: rest) = (word, some rest) := by
  simp [takeWord, h, filled]

theorem takeWord_take (h : isSeparator b = false) (word rest : List UInt8) :
    takeWord word (b :: rest) = takeWord (word ++ [b]) rest := by
  simp [takeWord, h]

/-- A word that has ended is not changed by more bytes, and one that has not goes on in them. -/
theorem takeWord_append (word portion more : List UInt8) :
    takeWord word (portion ++ more) =
      match takeWord word portion with
      | (word, some left) => (word, some (left ++ more))
      | (word, none) => takeWord word more := by
  induction portion generalizing word with
  | nil => rw [List.nil_append, takeWord_nil]
  | cons b rest ih =>
    rw [List.cons_append]
    cases hb : isSeparator b with
    | false => rw [takeWord_take hb, takeWord_take hb, ih]
    | true =>
      by_cases filled : word = []
      · subst filled
        rw [takeWord_skip hb, takeWord_skip hb, ih]
      · rw [takeWord_stop hb filled, takeWord_stop hb filled]

theorem takeWord_gap {gap : List UInt8} (blank : ∀ b ∈ gap, isSeparator b = true)
    (text : List UInt8) : takeWord [] (gap ++ text) = takeWord [] text := by
  induction gap with
  | nil => rfl
  | cons b gap ih =>
    obtain ⟨hb, blank⟩ := List.forall_mem_cons.mp blank
    rw [List.cons_append, takeWord_skip hb, ih blank]

theorem takeWord_solid {solid : List UInt8} (h : ∀ b ∈ solid, isSeparator b = false)
    (word text : List UInt8) : takeWord word (solid ++ text) = takeWord (word ++ solid) text := by
  induction solid generalizing word with
  | nil => rw [List.nil_append, List.append_nil]
  | cons b solid ih =>
    obtain ⟨hb, h⟩ := List.forall_mem_cons.mp h
    rw [List.cons_append, takeWord_take hb, ih h, List.append_assoc, List.singleton_append]

end TakeWord

/-! ### Words from portions -/

section Delivers

variable {fills : List Fill} {bytes : List UInt8}

/-- From portions a word is taken as from all the bytes at once. -/
theorem wordFrom_of_delivers (h : Delivers fills bytes) (word : List UInt8) :
    ∃ after, wordFrom word fills = (.ok (takeWord word bytes).1, after) ∧
      Delivers after ((takeWord word bytes).2.getD []) := by
  induction h generalizing word with
  | nil =>
    rw [takeWord_nil]
    exact ⟨[], rfl, .nil⟩
  | interrupted _ ih => exact ih word
  | @bytes portion bytes fills filled others ih =>
    have notEmpty : portion.isEmpty = false := by simpa using filled
    simp only [wordFrom, notEmpty, Bool.false_eq_true, if_false, takeWord_append]
    rcases takeWord word portion with ⟨word, _ | left⟩
    · exact ih word
    · exact ⟨_, rfl, others.putBack left⟩

theorem readWord_of_delivers {feed : Feed} (h : Delivers feed.fills bytes) :
    ∃ after, readWord feed = .ok (if (takeWord [] bytes).1.isEmpty then none
        else some (Text.decodeLossy (takeWord [] bytes).1)) after ∧
      Delivers after.fills ((takeWord [] bytes).2.getD []) := by
  obtain ⟨after, found, delivers⟩ := wordFrom_of_delivers h []
  refine ⟨⟨after⟩, ?_, delivers⟩
  simp only [readWord, found]

end Delivers

/-! ### Maximal runs -/

/-- A run of bytes in a text, with what stands behind it. -/
structure Run where
  word : List UInt8
  behind : List UInt8

/-- The maximal runs of bytes that are no separators, in their order.  In front of a run there are
only separators, back to the start of the text or to the run before; behind it there is a separator
or the end of the text. -/
inductive Runs : List UInt8 → List Run → Prop
  | done {gap : List UInt8} (blank : ∀ b ∈ gap, isSeparator b = true) : Runs gap []
  | more {gap word behind : List UInt8} {runs : List Run}
      (blank : ∀ b ∈ gap, isSeparator b = true) (filled : word ≠ [])
      (solid : ∀ b ∈ word, isSeparator b = false)
      (parted : ∀ b ∈ behind.head?, isSeparator b = true) (others : Runs behind runs) :
      Runs (gap ++ (word ++ behind)) (⟨word, behind⟩ :: runs)

namespace Runs

variable {b : UInt8} {bytes : List UInt8} {runs : List Run}

theorem blank_cons (h : Runs bytes runs) (hb : isSeparator b = true) : Runs (b :: bytes) runs := by
  cases h with
  | done blank => exact .done (List.forall_mem_cons.mpr ⟨hb, blank⟩)
  | more blank filled solid parted others =>
    exact .more (List.forall_mem_cons.mpr ⟨hb, blank⟩) filled solid parted others

theorem solid_cons (h : Runs bytes runs) (hb : isSeparator b = false) :
    ∃ runs', Runs (b :: bytes) runs' := by
  have alone : ∀ c ∈ [b], isSeparator c = false := by
    intro c hc
    rwa [List.mem_singleton.mp hc]
  by_cases parted : ∀ c ∈ bytes.head?, isSeparator c = true
  · exact ⟨_, Runs.more (List.forall_mem_nil _) (List.cons_ne_nil b []) alone parted h⟩
  · -- The byte stands right before the first run and belongs to it.
    cases h with
    | done blank => exact absurd (fun c hc => blank c (List.mem_of_mem_head? hc)) parted
    | @more gap word behind runs blank filled solid parted' others =>
      cases gap with
      | nil =>
        exact ⟨_, Runs.more (List.forall_mem_nil _) (List.cons_ne_nil b word)
          (List.forall_mem_cons.mpr ⟨hb, solid⟩) parted' others⟩
      | cons c gap =>
        refine absurd (fun d hd => ?_) parted
        cases hd
        exact blank c List.mem_cons_self

/-- Every text has its runs. -/
theorem exists_runs (bytes : List UInt8) : ∃ runs, Runs bytes runs := by
  induction bytes with
  | nil => exact ⟨[], .done (List.forall_mem_nil _)⟩
  | cons b bytes ih =>
    obtain ⟨runs, h⟩ := ih
    cases hb : isSeparator b with
    | true => exact ⟨runs, h.blank_cons hb⟩
    | false => exact h.solid_cons hb

/-- A separator at the start is in no run. -/
theorem drop_one (h : Runs bytes runs) (parted : ∀ b ∈ bytes.head?, isSeparator b = true) :
    Runs (bytes.drop 1) runs := by
  cases h with
  | done blank => exact .done fun b hb => blank b (List.mem_of_mem_drop hb)
  | @more gap word behind runs blank filled solid parted' others =>
    cases gap with
    | nil =>
      obtain ⟨b, word, rfl⟩ := List.exists_cons_of_ne_nil filled
      have hb := solid b List.mem_cons_self
      rw [parted b rfl] at hb
      cases hb
    | cons b gap =>
      exact .more (fun c hc => blank c (List.mem_cons_of_mem b hc)) filled solid parted' others

theorem takeWord_of_done (blank : ∀ b ∈ bytes, isSeparator b = true) :
    takeWord [] bytes = ([], none) := by
  have gap := takeWord_gap blank []
  rwa [List.append_nil, takeWord_nil] at gap

theorem takeWord_of_more {gap word behind : List UInt8}
    (blank : ∀ b ∈ gap, isSeparator b = true) (filled : word ≠ [])
    (solid : ∀ b ∈ word, isSeparator b = false)
    (parted : ∀ b ∈ behind.head?, isSeparator b = true) :
    (takeWord [] (gap ++ (word ++ behind))).1 = word ∧
      (takeWord [] (gap ++ (word ++ behind))).2.getD [] = behind.drop 1 := by
  rw [takeWord_gap blank, takeWord_solid solid, List.nil_append]
  cases behind with
  | nil =>
    rw [takeWord_nil]
    exact ⟨rfl, rfl⟩
  | cons b behind =>
    rw [takeWord_stop (parted b rfl) filled]
    exact ⟨rfl, rfl⟩

/-- Reading gives the first run, and leaves what stands behind it without the one separator. -/
theorem readWord_eq (h : Runs bytes runs) {feed : Feed} (delivers : Delivers feed.fills bytes) :
    ∃ after left, readWord feed = .ok (runs.head?.map fun run => Text.decodeLossy run.word) after ∧
      Delivers after.fills left ∧ Runs left runs.tail ∧
      ∀ run ∈ runs.head?, left = run.behind.drop 1 := by
  obtain ⟨after, found, rest⟩ := readWord_of_delivers delivers
  cases h with
  | done blank =>
    rw [takeWord_of_done blank] at found rest
    exact ⟨after, [], found, rest, .done (List.forall_mem_nil _), nofun⟩
  | @more gap word behind runs blank filled solid parted others =>
    obtain ⟨word_eq, left_eq⟩ := takeWord_of_more blank filled solid parted
    have notEmpty : word.isEmpty = false := by simpa using filled
    rw [word_eq, notEmpty, if_neg Bool.false_ne_true] at found
    rw [left_eq] at rest
    refine ⟨after, _, found, rest, others.drop_one parted, ?_⟩
    rintro _ ⟨⟩
    rfl

end Runs

/-- Reads the given number of words, as many as there are of them. -/
def readWords : Nat → EStateM String Feed (List (Option String))
  | 0 => pure []
  | count + 1 => do
    let word ← readWord
    return word :: (← readWords count)

theorem readWords_succ {feed middle after : Feed} {word : Option String}
    {words : List (Option String)} {count : Nat} (first : readWord feed = .ok word middle)
    (others : readWords count middle = .ok words after) :
    readWords (count + 1) feed = .ok (word :: words) after := by
  simp only [readWords, bind, EStateM.bind, first, others]
  rfl

theorem Runs.readWord_behind {bytes : List UInt8} {runs : List Run} (h : Runs bytes runs)
    {feed : Feed} (delivers : Delivers feed.fills bytes) (count : Nat) :
    ∃ words before after, readWords count feed = .ok words before ∧
      readWord before = .ok (runs[count]?.map fun run => Text.decodeLossy run.word) after ∧
      ∀ run ∈ runs[count]?, after.unread = run.behind.drop 1 := by
  induction count generalizing bytes runs feed with
  | zero =>
    obtain ⟨after, left, found, rest, -, left_eq⟩ := h.readWord_eq delivers
    rw [← List.head?_eq_getElem?]
    refine ⟨[], feed, after, rfl, found, ?_⟩
    intro run hRun
    rw [rest.unread_eq, left_eq run hRun]
  | succ count ih =>
    obtain ⟨middle, left, found, rest, runsLeft, -⟩ := h.readWord_eq delivers
    obtain ⟨words, before, after, reads, last, unread_eq⟩ := ih runsLeft rest
    rw [List.getElem?_tail] at last unread_eq
    exact ⟨_, before, after, readWords_succ found reads, last, unread_eq⟩

/-! ### Machines on portions -/

/-- Two inputs that deliver the same bytes. -/
def SameBytes (feed feed' : Feed) : Prop :=
  ∃ bytes, Delivers feed.fills bytes ∧ Delivers feed'.fills bytes

theorem related_readWord : Related SameBytes readWord readWord := by
  rintro feed feed' ⟨bytes, delivers, delivers'⟩
  obtain ⟨after, found, rest⟩ := readWord_of_delivers delivers
  obtain ⟨after', found', rest'⟩ := readWord_of_delivers delivers'
  exact .inl ⟨_, after, after', found, found', _, rest, rest'⟩

theorem alike_sameBytes {σ : Type} [Sink σ] :
    Alike (Channels.Pairwise SameBytes (Eq : σ → σ → Prop)) :=
  Channels.alike_pairwise related_readWord (fun _ => .same _) (.same _)

/-- However bytes are cut into portions, the words read from them one after the other are the
maximal runs of bytes that are no separators, and there is none behind the last.  What is left
behind a word is what follows its run and one separator.  So runs of any code on two cuts of the
same bytes have the same result, output, variables and input left. -/
theorem portions_make_no_difference (bytes : List UInt8) :
    (∃ runs, Runs bytes runs ∧
      ∀ feed : Feed, Delivers feed.fills bytes → ∀ count, ∃ words before after,
        readWords count feed = .ok words before ∧
        readWord before = .ok (runs[count]?.map fun run => Text.decodeLossy run.word) after ∧
        ∀ run ∈ runs[count]?, after.unread = run.behind.drop 1) ∧
      ∀ {σ : Type} [Sink σ] (m : Machine) (code : Code) (fuel : Nat) (sink : σ)
        (feed feed' : Feed), Delivers feed.fills bytes → Delivers feed'.fills bytes →
        Option.Rel
          (fun halt halt' => halt.result = halt'.result ∧
            halt.state.port.sink = halt'.state.port.sink ∧ halt.state.vars = halt'.state.vars ∧
            halt.state.port.feed.unread = halt'.state.port.feed.unread)
          (m.execute? code fuel (Channels.mk feed sink))
          (m.execute? code fuel (Channels.mk feed' sink)) := by
  constructor
  · obtain ⟨runs, h⟩ := Runs.exists_runs bytes
    exact ⟨runs, h, fun feed delivers count => h.readWord_behind delivers count⟩
  · intro σ _ m code fuel sink feed feed' delivers delivers'
    have alike : Option.Rel _ (m.execute? code fuel (Channels.mk feed sink))
        (m.execute? code fuel (Channels.mk feed' sink)) :=
      Machine.run?_alike alike_sameBytes code fuel ⟨rfl, ⟨bytes, delivers, delivers'⟩, rfl⟩
    generalize m.execute? code fuel (Channels.mk feed sink) = outcome,
      m.execute? code fuel (Channels.mk feed' sink) = outcome' at alike ⊢
    cases alike with
    | none => exact .none
    | some alike =>
      obtain ⟨result, machine, ⟨left, rest, rest'⟩, sink⟩ := alike
      have unread_eq := rest.unread_eq.trans rest'.unread_eq.symm
      exact .some ⟨result, sink, congrArg Machine.vars machine, unread_eq⟩

end Feed

end Abacus
