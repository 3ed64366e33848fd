import Abacus.Proofs.Token.Printing
import Abacus.Proofs.Tree.Locality
import Abacus.Proofs.Tree.Source

/-! Layout is not seen.  Words printed with whatever layout are scanned back, and sources with the
same words have the same code or the same error, up to the places that errors name. -/

namespace Abacus

open Token (word Scans Printing)

/-! ### The end token -/

namespace Token

theorem Covers.word_eof {offset : Nat} {text : List Char} {items : List Item} {eof : Token}
    (h : Covers offset text items eof) : eof.word = (.eof, "") := by
  induction h with
  | eof => rfl
  | item _ _ ih => exact ih

theorem word_eof_of_scan {source : String} {front : List Token} {eof : Token}
    (h : scan source = .ok (front ++ [eof])) : eof.word = (.eof, "") := by
  obtain ⟨items, eof', calls⟩ := (Stream.ofSource source).exists_calls
  obtain ⟨_, -, whole⟩ := calls.of_tokens_ok h
  obtain rfl : eof = eof' := List.cons.inj (List.append_inj' whole rfl).2 |>.1
  exact calls.covers.word_eof

/-- The words of a text come before the end token. -/
theorem Scans.kind_ne_eof {text : List Char} {words : List (Kind × String)}
    (h : Scans text words) : ∀ w ∈ words, w.1 ≠ .eof := by
  induction h with
  | done => nofun
  | more found _ ih => exact List.forall_mem_cons.mpr ⟨Lexeme.read?_kind_ne_eof found, ih⟩

theorem isEof_eq_false_of_words {tokens : List Token} {words : List (Kind × String)}
    (hWords : tokens.map word = words) (h : ∀ w ∈ words, w.1 ≠ .eof) :
    ∀ t ∈ tokens, t.isEof = false := by
  intro t hMem
  exact beq_false_of_ne (h t.word (hWords ▸ List.mem_map_of_mem hMem))

def unplaced (t : Token) : Token := { t with span := ⟨0, 0⟩ }

theorem unplaced_of_word_eq {t t' : Token} (h : t.word = t'.word) : t.unplaced = t'.unplaced := by
  obtain ⟨hKind, hLexeme⟩ := Prod.mk.inj h
  rw [unplaced, unplaced, hKind, hLexeme]

end Token

/-! ### Errors without places -/

def SyntaxError.unplaced : SyntaxError → SyntaxError
  | unexpected found expected => unexpected found.unplaced expected
  | invalidNumber lexeme => invalidNumber lexeme
  | tooDeep found limit => tooDeep found.unplaced limit

/-- The error without the place of the token it names. -/
def Error.unplaced : Error → Error
  | parse cause => parse cause.unplaced
  | e => e

/-! ### Tokens with the same words -/

/-- Where tokens before the end tokens have the same words, the frontier is at the end tokens. -/
def Frontier.ofEnds {e e' : Token} (hWord : e.word = e'.word) (hEnd : e.isEof = true) :
    Frontier where
  Same t t' := t.word = t'.word
  left := ⟨[], e⟩
  right := ⟨[], e'⟩
  kind_eq h := (Prod.mk.inj h).1
  lexeme_eq h _ := (Prod.mk.inj h).2
  current := hWord
  nil_iff := Iff.rfl
  ended_left := beq_iff_eq.mp hEnd
  ended_right := (Prod.mk.inj hWord).1 ▸ beq_iff_eq.mp hEnd

theorem Frontier.abreast_of_words_eq {e e' : Token} (hWord : e.word = e'.word)
    (hEnd : e.isEof = true) {tokens tokens' : List Token}
    (h : tokens.map word = tokens'.map word) :
    (ofEnds hWord hEnd).Abreast ⟨tokens, e⟩ ⟨tokens', e'⟩ := by
  induction tokens generalizing tokens' with
  | nil =>
    obtain rfl := List.map_eq_nil_iff.mp h.symm
    exact .edge
  | cons t tokens ih =>
    obtain ⟨t', tokens', rfl, hFirst, hOthers⟩ := List.map_eq_cons_iff.mp h.symm
    exact .before hFirst.symm (ih hOthers.symm)

theorem Frontier.SameError.unplaced_eq {e e' : Token} {hWord : e.word = e'.word}
    {hEnd : e.isEof = true} {cause cause' : SyntaxError}
    (h : (Frontier.ofEnds hWord hEnd).SameError cause cause') :
    cause.unplaced = cause'.unplaced := by
  cases h with
  | unexpected same expected =>
    exact congrArg (SyntaxError.unexpected · expected) (Token.unplaced_of_word_eq same)
  | invalidNumber lexeme => rfl
  | tooDeep same limit =>
    exact congrArg (SyntaxError.tooDeep · limit) (Token.unplaced_of_word_eq same)

namespace Program

variable {words : List (Token.Kind × String)}

theorem ofTokens_of_words_eq {tokens tokens' : List Token} {e e' : Token}
    (hInside : ∀ w ∈ words, w.1 ≠ .eof) (hWords : tokens.map word = words)
    (hWords' : tokens'.map word = words) (hWord : e.word = e'.word) (hEnd : e.isEof = true) :
    (ofTokens (tokens ++ [e])).mapError SyntaxError.unplaced =
      (ofTokens (tokens' ++ [e'])).mapError SyntaxError.unplaced := by
  have hEnd' : e'.isEof = true := by
    rw [Token.isEof, ← (Prod.mk.inj hWord).1]
    exact hEnd
  have hCursor : Cursor.ofTokens (tokens ++ [e]) = ⟨tokens, e⟩ :=
    Cursor.ofTokens_append (Token.isEof_eq_false_of_words hWords hInside) hEnd
  have hCursor' : Cursor.ofTokens (tokens' ++ [e']) = ⟨tokens', e'⟩ :=
    Cursor.ofTokens_append (Token.isEof_eq_false_of_words hWords' hInside) hEnd'
  have hAbreast := Frontier.abreast_of_words_eq hWord hEnd (hWords.trans hWords'.symm)
  have hAgree := Parse.local_program.agrees hAbreast
  rw [ofTokens, ofTokens, hCursor, hCursor']
  generalize Parse.program ⟨tokens, e⟩ = r at hAgree ⊢
  generalize Parse.program ⟨tokens', e'⟩ = r' at hAgree ⊢
  cases hAgree with
  | ok abreast => rfl
  | error same abreast => exact congrArg Except.error same.unplaced_eq
  | past h => exact absurd h (Nat.not_lt_zero _)

theorem ofSource_of_scans {source source' : String} (h : Scans source.toList words)
    (h' : Scans source'.toList words) :
    (ofSource source).mapError Error.unplaced = (ofSource source').mapError Error.unplaced := by
  obtain ⟨front, e, hScan, hEnd, hWords⟩ := Token.scan_of_scans h
  obtain ⟨front', e', hScan', -, hWords'⟩ := Token.scan_of_scans h'
  have hWord : e.word = e'.word :=
    (Token.word_eof_of_scan hScan).trans (Token.word_eof_of_scan hScan').symm
  have hParse := ofTokens_of_words_eq h.kind_ne_eof hWords hWords' hWord hEnd
  have hSource {source : String} {tokens : List Token} (hScan : Token.scan source = .ok tokens) :
      (ofSource source).mapError Error.unplaced =
        ((ofTokens tokens).mapError SyntaxError.unplaced).mapError Error.parse := by
    rw [ofSource, hScan]
    show ((ofTokens tokens).mapError Error.parse).mapError _ = _
    cases ofTokens tokens <;> rfl
  rw [hSource hScan, hSource hScan', hParse]

end Program

/-- Sources that are read alike have the same code, or fail alike, and declare the same. -/
theorem compileIn_of_ofSource_eq {source source' : String}
    (h : (Program.ofSource source).mapError Error.unplaced =
      (Program.ofSource source').mapError Error.unplaced) (scope : Scope) :
    (compileIn scope source).map (·.mapError Error.unplaced) id =
      (compileIn scope source').map (·.mapError Error.unplaced) id := by
  cases hSource : Program.ofSource source with
  | ok program =>
    cases hSource' : Program.ofSource source' with
    | ok program' =>
      rw [hSource, hSource'] at h
      obtain rfl : program = program' := Except.ok.inj h
      rw [compileIn, compileIn, hSource, hSource']
    | error e =>
      rw [hSource, hSource'] at h
      cases h
  | error e =>
    cases hSource' : Program.ofSource source' with
    | ok program =>
      rw [hSource, hSource'] at h
      cases h
    | error e' =>
      rw [hSource, hSource'] at h
      have hCause : e.unplaced = e'.unplaced := Except.error.inj h
      rw [compileIn, compileIn, hSource, hSource']
      exact congrArg (Except.error ·, scope) hCause

/-- Words printed with whatever layout scan back.  So of two printings of the same words, compiled
in the same scope, both have the same code or both have the same error, up to places. -/
theorem printed_words_scan_back (p : Printing) :
    (∃ tokens eof, Token.scan p.text = .ok (tokens ++ [eof]) ∧ tokens.map word = p.words ∧
      eof.word = (.eof, "")) ∧
    ∀ (p' : Printing) (scope : Scope), p'.words = p.words →
      (compileIn scope p.text).map (·.mapError Error.unplaced) id =
        (compileIn scope p'.text).map (·.mapError Error.unplaced) id := by
  constructor
  · obtain ⟨tokens, eof, hScan, -, hWords⟩ := Token.scan_of_scans p.scans
    exact ⟨tokens, eof, hScan, hWords, Token.word_eof_of_scan hScan⟩
  · intro p' scope hWords
    exact compileIn_of_ofSource_eq (Program.ofSource_of_scans p.scans (hWords ▸ p'.scans)) scope

/-! A statement on one line, and the same words among comments. -/

theorem isLexeme_x : Token.IsLexeme .identifier ['x'] :=
  .name (by decide +kernel) nofun fun kind => by cases kind <;> decide +kernel

def printedPlainly : Printing where
  pieces :=
    [⟨[], .printWord, _, .fixed rfl, .nil⟩,
      ⟨[' '], .identifier, _, isLexeme_x, .blank (by decide) .nil⟩,
      ⟨[' '], .semicolon, _, .fixed rfl, .blank (by decide) .nil⟩]
  last := []
  layout := .nil
  gaps_parted := by simp [Token.Parted, show Text.isBlank ' ' = true by decide]
  last_parted := nofun

def printedWithComments : Printing where
  pieces :=
    [⟨'/' :: '/' :: ("first".toList ++ ['\n']), .printWord, _, .fixed rfl,
        .comment (by decide +kernel) (by simp) (.blank (by decide) .nil)⟩,
      ⟨'\t' :: '/' :: '/' :: ("a name".toList ++ ['\n', ' ']), .identifier, _, isLexeme_x,
        .blank (by decide) (.comment (by decide +kernel) (by simp)
          (.blank (by decide) (.blank (by decide) .nil)))⟩,
      ⟨['\n'], .semicolon, _, .fixed rfl, .blank (by decide) .nil⟩]
  last := ' ' :: '/' :: '/' :: ("no line feed".toList ++ [])
  layout := .blank (by decide) (.comment (by decide +kernel) (by simp) .nil)
  gaps_parted := by
    simp [Token.Parted, show Text.isBlank '\t' = true by decide,
      show Text.isBlank '\n' = true by decide]
  last_parted := by simp [Token.Parted, show Text.isBlank ' ' = true by decide]

theorem printed_words_scan_back_comments :
    printedWithComments.words = printedPlainly.words ∧
      (∃ tokens eof, Token.scan printedWithComments.text = .ok (tokens ++ [eof]) ∧
        tokens.map word = printedWithComments.words ∧ eof.word = (.eof, "")) ∧
      (compileIn {} printedPlainly.text).map (·.mapError Error.unplaced) id =
        (compileIn {} printedWithComments.text).map (·.mapError Error.unplaced) id :=
  ⟨rfl, (printed_words_scan_back printedWithComments).1,
    (printed_words_scan_back printedPlainly).2 printedWithComments {} rfl⟩

end Abacus
