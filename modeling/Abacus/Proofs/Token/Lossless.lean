import Abacus.Token.Stream

/-! Scanning loses nothing.  Asked for one token after the other, also past its errors, a stream
cuts the source into items and the layout around them.  An item is a token or a character that
begins none. -/

namespace Abacus

open Text

namespace ScanError

def char : ScanError → Char
  | unexpectedChar c _ | malformedOperator c _ => c

def position : ScanError → Nat
  | unexpectedChar _ position | malformedOperator _ position => position

end ScanError

namespace Token

/-! ### Layout -/

/-- Layout in front of the text `after`: white space and comments.  A comment runs up to a line
feed or up to the end of the source. -/
inductive IsLayout (after : List Char) : List Char → Prop
  | nil : IsLayout after []
  | blank {c : Char} {rest : List Char} (isBlank : isBlank c = true)
      (others : IsLayout after rest) : IsLayout after (c :: rest)
  | comment {body rest : List Char} (inLine : '\n' ∉ body)
      (ended : ∀ c ∈ (rest ++ after).head?, c = '\n')
      (others : IsLayout after rest) : IsLayout after ('/' :: '/' :: (body ++ rest))

/-- What is left of a comment in front of the text `after`, and the layout behind it. -/
def EndsComment (after layout : List Char) : Prop :=
  ∃ body rest, layout = body ++ rest ∧ '\n' ∉ body ∧
    (∀ c ∈ (rest ++ after).head?, c = '\n') ∧ IsLayout after rest

theorem EndsComment.cons {after layout : List Char} {c : Char} (h : EndsComment after layout)
    (hc : c ≠ '\n') : EndsComment after (c :: layout) := by
  obtain ⟨body, rest, rfl, inLine, ended, others⟩ := h
  exact ⟨c :: body, rest, rfl, by simp [inLine, hc.symm], ended, others⟩

theorem EndsComment.slash {after layout : List Char} (h : EndsComment after ('/' :: layout)) :
    IsLayout after ('/' :: '/' :: layout) := by
  obtain ⟨body, rest, cut, inLine, ended, others⟩ := h
  cases body with
  | nil =>
    -- The rest of a comment is not empty here: it would begin with a line feed, not with a slash.
    obtain rfl : '/' :: layout = rest := cut
    exact absurd (ended '/' (by simp)) (by decide)
  | cons c body =>
    obtain ⟨rfl, rfl⟩ := List.cons.inj cut
    exact .comment (fun h => inLine (List.mem_cons_of_mem _ h)) ended others

theorem cutLayout_true_cons (c : Char) (rest : List Char) :
    cutLayout true (c :: rest) =
      (c :: (cutLayout (c != '\n') rest).1, (cutLayout (c != '\n') rest).2) := rfl

/-- What `cutLayout` takes away is layout, or the end of a comment and then layout. -/
theorem isLayout_cutLayout_and (text : List Char) :
    IsLayout (cutLayout false text).2 (cutLayout false text).1 ∧
      EndsComment (cutLayout true text).2 (cutLayout true text).1 := by
  induction text with
  | nil => exact ⟨.nil, [], [], rfl, by simp, by simp [cutLayout], .nil⟩
  | cons c rest ih =>
    obtain ⟨ihLayout, ihComment⟩ := ih
    constructor
    · simp only [cutLayout, Bool.false_eq_true, if_false]
      split
      · next isBlank => exact .blank isBlank ihLayout
      · split
        · next slashes =>
          simp only [Bool.and_eq_true, beq_iff_eq, List.head?_eq_some_iff] at slashes
          obtain ⟨rfl, tail, rfl⟩ := slashes
          rw [cutLayout_true_cons] at ihComment ⊢
          exact ihComment.slash
        · exact .nil
    · rw [cutLayout_true_cons]
      by_cases hc : c = '\n'
      · subst hc
        exact ⟨[], _, rfl, by simp, by simp, .blank (by decide) ihLayout⟩
      · rw [show (c != '\n') = true by simpa using hc]
        exact ihComment.cons hc

theorem isLayout_cutLayout (text : List Char) :
    IsLayout (cutLayout false text).2 (cutLayout false text).1 :=
  (isLayout_cutLayout_and text).1

/-! ### One call -/

theorem Lexeme.symbol?_ne_eof (c : Char) : Lexeme.symbol? c ≠ some .eof := by
  unfold Lexeme.symbol?
  split <;> decide

theorem Lexeme.comparison?_ne_eof {c : Char} {double : Kind} {alone : Option Kind}
    (h : Lexeme.comparison? c = some (double, alone)) : double ≠ .eof ∧ alone ≠ some .eof := by
  unfold Lexeme.comparison? at h
  split at h <;> cases h <;> decide

theorem Lexeme.orEqual?_kind_ne_eof {double : Kind} {alone : Option Kind} {c : Char}
    {rest : List Char} {l : Lexeme} (h : Lexeme.orEqual? double alone c rest = some l)
    (hDouble : double ≠ .eof) (hAlone : alone ≠ some .eof) : l.kind ≠ .eof := by
  unfold Lexeme.orEqual? at h
  split at h
  · cases h; exact hDouble
  · obtain ⟨kind, rfl, rfl⟩ := Option.map_eq_some_iff.mp h
    exact fun eq => hAlone (congrArg some eq)

theorem Lexeme.word_kind_ne_eof (text : List Char) : (Lexeme.word text).kind ≠ .eof := by
  intro h
  unfold Lexeme.word at h
  cases found : Kind.keyword? (String.ofList (text.takeWhile isNameChar)) with
  | none => simp [found] at h
  | some kind =>
    have isKeyword := (Kind.keyword?_eq_some_iff.mp found).1
    simp only [found, Option.getD_some] at h
    rw [h] at isKeyword
    cases isKeyword

theorem Lexeme.read?_kind_ne_eof {text : List Char} {l : Lexeme} (h : Lexeme.read? text = some l) :
    l.kind ≠ .eof := by
  unfold Lexeme.read? at h
  split at h
  · cases h
  · next c rest =>
    split at h
    · next kind hSymbol =>
      cases h
      intro eq
      exact Lexeme.symbol?_ne_eof c (hSymbol.trans (congrArg some eq))
    · next hComparison =>
      obtain ⟨hDouble, hAlone⟩ := Lexeme.comparison?_ne_eof hComparison
      exact Lexeme.orEqual?_kind_ne_eof h hDouble hAlone
    · split at h
      · cases h
        unfold Lexeme.number
        split <;> simp
      · split at h
        · cases h; exact Lexeme.word_kind_ne_eof _
        · cases h

/-- What one call gives: a token or an error. -/
abbrev Item := Except ScanError Token

namespace Item

/-- Where an item stands.  An error takes one character. -/
def span : Item → Span
  | .ok token => token.span
  | .error e => ⟨e.position, e.position + e.char.utf8Size⟩

def text : Item → List Char
  | .ok token => token.lexeme.toList
  | .error e => [e.char]

def isEof : Item → Bool
  | .ok token => token.isEof
  | .error _ => false

end Item

/-- An item stands in front of `rest`, behind the layout `gap` that begins at `offset`. -/
structure Follows (offset : Nat) (gap : List Char) (item : Item) (rest : List Char) : Prop where
  layout : IsLayout (item.text ++ rest) gap
  filled : item.text ≠ []
  start_eq : item.span.start = offset + byteLength gap
  stop_eq : item.span.stop = offset + byteLength gap + byteLength item.text

namespace Stream

@[simp] theorem char_refusal (c : Char) (position : Nat) : (refusal c position).char = c := by
  unfold refusal
  split <;> rfl

@[simp] theorem position_refusal (c : Char) (position : Nat) :
    (refusal c position).position = position := by
  unfold refusal
  split <;> rfl

/-- A call with nothing but layout ahead gives the end token, and any other takes the layout and
one item. -/
theorem next_cases (s : Stream) :
    (∃ after, s.next =
        (.ok ⟨.eof, "", ⟨s.offset + byteLength s.rest, s.offset + byteLength s.rest⟩⟩, after) ∧
        IsLayout [] s.rest) ∨
      ∃ (gap : List Char) (item : Item) (after : Stream), s.next = (item, after) ∧
        item.isEof = false ∧ s.rest = gap ++ (item.text ++ after.rest) ∧
        Follows s.offset gap item after.rest ∧ after.offset = item.span.stop := by
  have cut := cutLayout_append false s.rest
  have layout := isLayout_cutLayout s.rest
  unfold next
  generalize cutLayout false s.rest = pieces at cut layout
  obtain ⟨gap, ahead⟩ := pieces
  cases ahead with
  | nil =>
    simp only [List.append_nil] at cut
    subst cut
    exact .inl ⟨_, rfl, layout⟩
  | cons c tail =>
    right
    dsimp only at cut layout ⊢
    split
    · next lexeme found =>
      have whole := Lexeme.read?_append found
      refine ⟨gap, _, _, rfl, ?_, ?_, ⟨?_, ?_, rfl, ?_⟩, rfl⟩
      · simpa [Item.isEof, isEof] using Lexeme.read?_kind_ne_eof found
      · simpa [Item.text, whole] using cut.symm
      · simpa [Item.text, whole] using layout
      · simpa [Item.text] using Lexeme.read?_chars_ne_nil found
      · simp [Item.span, Item.text]
    · refine ⟨gap, _, _, rfl, rfl, ?_, ⟨?_, by simp [Item.text], ?_, ?_⟩, ?_⟩
      · simpa [Item.text] using cut.symm
      · simpa [Item.text] using layout
      · simp [Item.span]
      · simp [Item.span, Item.text, byteLength]
      · simp [Item.span]

/-! ### All calls -/

/-- The calls up to the first end token: what they give before it, and the end token. -/
inductive Calls : Stream → List Item → Token → Prop
  | done {s after : Stream} {token : Token} (step : s.next = (.ok token, after))
      (isEof : token.isEof = true) : Calls s [] token
  | more {s after : Stream} {item : Item} {items : List Item} {eof : Token}
      (step : s.next = (item, after)) (inside : item.isEof = false)
      (others : Calls after items eof) : Calls s (item :: items) eof

/-- The end token comes after finitely many calls. -/
theorem exists_calls (s : Stream) : ∃ items eof, s.Calls items eof := by
  induction size : s.rest.length using Nat.strongRecOn generalizing s with
  | _ n ih =>
    rcases s.next_cases with ⟨after, step, -⟩ | ⟨gap, item, after, step, inside, cut, follows, -⟩
    · exact ⟨[], _, .done step rfl⟩
    · have filled := List.length_pos_iff.mpr follows.filled
      have shorter : after.rest.length < n := by
        rw [← size, cut]
        simp only [List.length_append]
        omega
      obtain ⟨items, eof, others⟩ := ih _ shorter after rfl
      exact ⟨item :: items, eof, .more step inside others⟩

/-- All tokens at once are the tokens of the calls, if none of them gives an error. -/
theorem Calls.tokens_eq {s : Stream} {items : List Item} {eof : Token} (h : s.Calls items eof) :
    s.tokens = (items.mapM id).map (· ++ [eof]) := by
  induction h with
  | done step isEof =>
    unfold tokens
    split
    · next step' => rw [step] at step'; cases step'
    · next step' =>
      rw [step] at step'
      cases step'
      simp [isEof, Except.map, pure, Except.pure]
  | @more s after item items eof step inside others ih =>
    unfold tokens
    split
    · next step' =>
      rw [step] at step'
      cases step'
      simp [List.mapM_cons, bind, Except.bind, Except.map]
    · next step' =>
      rw [step] at step'
      cases step'
      have notEof : isEof _ = false := inside
      simp only [notEof, Bool.false_eq_true, dite_false, ih, List.mapM_cons, id]
      cases items.mapM id <;> rfl

end Stream

/-- The text from `offset` on is made up of the items, of layout in front of each, and of layout at
its end. -/
inductive Covers : (offset : Nat) → (text : List Char) → List Item → Token → Prop
  | eof {offset : Nat} {gap : List Char} (layout : IsLayout [] gap) :
      Covers offset gap [] ⟨.eof, "", ⟨offset + byteLength gap, offset + byteLength gap⟩⟩
  | item {offset : Nat} {gap rest : List Char} {item : Item} {items : List Item} {eof : Token}
      (follows : Follows offset gap item rest) (others : Covers item.span.stop rest items eof) :
      Covers offset (gap ++ (item.text ++ rest)) (item :: items) eof

theorem Stream.Calls.covers {s : Stream} {items : List Item} {eof : Token}
    (h : s.Calls items eof) : Covers s.offset s.rest items eof := by
  induction h with
  | @done s after token step isEof =>
    rcases s.next_cases with ⟨_, step', layout⟩ | ⟨_, _, _, step', inside, -⟩
    · rw [step] at step'
      cases step'
      exact .eof layout
    · rw [step] at step'
      cases step'
      cases isEof.symm.trans inside
  | @more s after item items eof step inside others ih =>
    rcases s.next_cases with ⟨_, step', layout⟩ | ⟨gap, _, _, step', -, cut, follows, offset_eq⟩
    · rw [step] at step'
      cases step'
      cases inside
    · rw [step] at step'
      cases step'
      rw [cut]
      rw [offset_eq] at ih
      exact .item follows ih

/-- The text stands in the source at the span, in front of `after`. -/
def StandsAt (source : List Char) (span : Span) (text after : List Char) : Prop :=
  ∃ before, source = before ++ (text ++ after) ∧
    span = ⟨byteLength before, byteLength before + byteLength text⟩

/-- What spans leave open between `start` and `stop`: in front of the first, between two that
follow each other, and behind the last. -/
def gaps (start stop : Nat) : List Span → List Span
  | [] => [⟨start, stop⟩]
  | span :: spans => ⟨start, span.start⟩ :: gaps span.stop stop spans

namespace Covers

variable {offset : Nat} {text : List Char} {items : List Item} {eof : Token}

theorem eof_eq (h : Covers offset text items eof) :
    eof = ⟨.eof, "", ⟨offset + byteLength text, offset + byteLength text⟩⟩ := by
  induction h with
  | eof => rfl
  | item follows _ ih => simp only [ih, follows.stop_eq, byteLength_append, Nat.add_assoc]

theorem offset_le_start (h : Covers offset text items eof) :
    ∀ item ∈ items, offset ≤ item.span.start := by
  induction h with
  | eof => simp
  | item follows _ ih =>
    intro item member
    have start_eq := follows.start_eq
    have stop_eq := follows.stop_eq
    rcases List.mem_cons.mp member with rfl | member
    · omega
    · have := ih item member
      omega

theorem ordered (h : Covers offset text items eof) :
    items.Pairwise (fun item later => item.span.stop ≤ later.span.start) := by
  induction h with
  | eof => exact .nil
  | item _ others ih => exact .cons others.offset_le_start ih

theorem standsAt (h : Covers offset text items eof) (before : List Char)
    (hBefore : byteLength before = offset) :
    ∀ item ∈ items, item.span.start < item.span.stop ∧
      ∃ after, StandsAt (before ++ text) item.span item.text after := by
  induction h generalizing before with
  | eof => simp
  | @item offset gap rest first items eof follows others ih =>
    intro item member
    rcases List.mem_cons.mp member with rfl | member
    · have start_eq := follows.start_eq
      have stop_eq := follows.stop_eq
      have filled := byteLength_pos follows.filled
      refine ⟨by omega, rest, before ++ gap, by simp, ?_⟩
      rw [byteLength_append, hBefore, ← stop_eq, ← start_eq]
    · have := ih (before ++ (gap ++ first.text)) (by simp [follows.stop_eq, hBefore]; omega)
        item member
      simpa using this

theorem gaps_layout (h : Covers offset text items eof) (before : List Char)
    (hBefore : byteLength before = offset) :
    ∀ gap ∈ gaps offset (offset + byteLength text) (items.map Item.span),
      ∃ layout after, StandsAt (before ++ text) gap layout after ∧ IsLayout after layout := by
  induction h generalizing before with
  | @eof offset gap layout =>
    intro span member
    obtain rfl := List.mem_singleton.mp member
    exact ⟨gap, [], ⟨before, by simp, by rw [hBefore]⟩, layout⟩
  | @item offset gap rest first items eof follows others ih =>
    intro span member
    rcases List.mem_cons.mp member with rfl | member
    · exact ⟨gap, first.text ++ rest, ⟨before, rfl, by rw [hBefore, follows.start_eq]⟩,
        follows.layout⟩
    · have stop_eq : first.span.stop + byteLength rest =
          offset + byteLength (gap ++ (first.text ++ rest)) := by
        simp only [follows.stop_eq, byteLength_append]
        omega
      rw [← stop_eq] at member
      have := ih (before ++ (gap ++ first.text)) (by simp [follows.stop_eq, hBefore]; omega)
        span member
      simpa using this

end Covers

/-- The calls on a source come to the end token, which is empty and stands at the end of the
source.  Before it they give items that follow each other without overlap, each with the text that
stands at its span.  Between them, and before and behind them, there is only layout.  All tokens at
once are the tokens of these calls and the end token, or the first of their errors. -/
theorem scan_lossless (source : String) :
    ∃ items eof, (Stream.ofSource source).Calls items eof ∧
      eof = ⟨.eof, "", ⟨source.utf8ByteSize, source.utf8ByteSize⟩⟩ ∧
      items.Pairwise (fun item later => item.span.stop ≤ later.span.start) ∧
      (∀ item ∈ items, item.span.start < item.span.stop ∧
        ∃ after, StandsAt source.toList item.span item.text after) ∧
      (∀ gap ∈ gaps 0 source.utf8ByteSize (items.map Item.span),
        ∃ layout after, StandsAt source.toList gap layout after ∧ IsLayout after layout) ∧
      scan source = (items.mapM id).map (· ++ [eof]) := by
  obtain ⟨items, eof, calls⟩ := (Stream.ofSource source).exists_calls
  have covers : Covers 0 source.toList items eof := calls.covers
  have eof_eq := covers.eof_eq
  have gaps_layout := covers.gaps_layout [] rfl
  rw [Nat.zero_add, byteLength_toList] at eof_eq gaps_layout
  exact ⟨items, eof, calls, eof_eq, covers.ordered, covers.standsAt [] rfl, gaps_layout,
    calls.tokens_eq⟩

end Token

end Abacus
