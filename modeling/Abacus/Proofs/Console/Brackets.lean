import Abacus.Proofs.Console.Code
import Abacus.Proofs.Tree.Prediction
import Abacus.Proofs.Tree.Soundness

/-! The brackets of an entry.  The console looks for brackets in the code of a text, and what it
finds is what the tokens of the text open and close: a bracket is a token of its own.  A program of
the grammar closes every bracket that it opens, so no program waits for one. -/

namespace Abacus

open Token

/-! ### Brackets of tokens -/

/-- The two kinds of brackets. -/
inductive Bracket where
  | paren | brace
deriving DecidableEq, Repr

namespace Bracket

/-- The brackets that are open behind one that is closed, which has to be the innermost one. -/
def closed? (bracket : Bracket) : List Bracket → Option (List Bracket)
  | first :: outer => if first = bracket then some outer else none
  | [] => none

/-- The brackets that are open behind a token, the innermost first. -/
def behind? (opened : List Bracket) : Token.Kind → Option (List Bracket)
  | .leftParen => some (paren :: opened)
  | .leftBrace => some (brace :: opened)
  | .rightParen => closed? paren opened
  | .rightBrace => closed? brace opened
  | _ => some opened

/-- The brackets that tokens leave open, if they close no other bracket than the innermost one. -/
def left? (kinds : List Token.Kind) : Option (List Bracket) := kinds.foldlM behind? []

/-- Whether tokens of a kind open or close a bracket. -/
def isKind : Token.Kind → Bool
  | .leftParen | .leftBrace | .rightParen | .rightBrace => true
  | _ => false

theorem behind?_of_plain {kind : Token.Kind} (h : isKind kind = false) (opened : List Bracket) :
    behind? opened kind = some opened := by
  cases kind <;> first | rfl | cases h

/-- The kind of token that opens a bracket. -/
def opener : Bracket → Token.Kind
  | paren => .leftParen
  | brace => .leftBrace

/-- The kind of token that closes a bracket. -/
def closer : Bracket → Token.Kind
  | paren => .rightParen
  | brace => .rightBrace

theorem behind?_opener (bracket : Bracket) (opened : List Bracket) :
    behind? opened bracket.opener = some (bracket :: opened) := by
  cases bracket <;> rfl

theorem behind?_closer (bracket : Bracket) (opened : List Bracket) :
    behind? (bracket :: opened) bracket.closer = some opened := by
  cases bracket <;> rfl

/-- The character that closes a bracket. -/
def closing : Bracket → Char
  | paren => ')'
  | brace => '\x7d'

end Bracket

namespace Console

open Abacus.Bracket

/-- The brackets that have to be closed after one more character. -/
def closersBehind? (expected : List Char) (c : Char) : Option (List Char) :=
  if c = '(' then some (')' :: expected)
  else if c = '\x7b' then some ('\x7d' :: expected)
  else if c = ')' ∨ c = '\x7d' then
    match expected with
    | [] => none
    | closer :: expected => if closer = c then some expected else none
  else some expected

theorem closers?_eq_foldlM (expected text : List Char) :
    closers? expected text = text.foldlM closersBehind? expected := by
  induction text generalizing expected with
  | nil => rfl
  | cons c rest ih =>
    rw [List.foldlM_cons, closers?.eq_def, closersBehind?.eq_def]
    dsimp only
    by_cases hParen : c = '('
    · simp only [if_pos hParen]
      exact ih _
    by_cases hBrace : c = '\x7b'
    · simp only [if_neg hParen, if_pos hBrace]
      exact ih _
    by_cases hCloser : c = ')' ∨ c = '\x7d'
    · simp only [if_neg hParen, if_neg hBrace, if_pos hCloser]
      cases expected with
      | nil => rfl
      | cons closer expected =>
        by_cases hSame : closer = c
        · simp only [if_pos hSame]
          exact ih _
        · simp only [if_neg hSame]
          rfl
    · simp only [if_neg hParen, if_neg hBrace, if_neg hCloser]
      exact ih _

/-- The characters that are brackets. -/
def brackets : List Char := ['(', '\x7b', ')', '\x7d']

theorem closersBehind?_of_plain {c : Char} (h : c ∉ brackets) (expected : List Char) :
    closersBehind? expected c = some expected := by
  simp only [brackets, List.mem_cons, List.not_mem_nil, or_false, not_or] at h
  obtain ⟨hParen, hBrace, hCloser⟩ := h
  rw [closersBehind?.eq_def, if_neg hParen, if_neg hBrace, if_neg (not_or.mpr hCloser)]

theorem foldlM_closersBehind?_of_plain {text : List Char} (h : ∀ c ∈ text, c ∉ brackets)
    (expected : List Char) : text.foldlM closersBehind? expected = some expected := by
  induction text with
  | nil => rfl
  | cons c rest ih =>
    obtain ⟨hFirst, hOthers⟩ := List.forall_mem_cons.mp h
    rw [List.foldlM_cons, closersBehind?_of_plain hFirst]
    exact ih hOthers

/-- White space opens and closes nothing. -/
theorem foldlM_closersBehind?_solid (text expected : List Char) :
    (solid text).foldlM closersBehind? expected = text.foldlM closersBehind? expected := by
  induction text generalizing expected with
  | nil => rfl
  | cons c rest ih =>
    by_cases hBlank : Text.isBlank c = true
    · have hPlain : c ∉ brackets := by
        intro hBracket
        have hSolid : brackets.all (!Text.isBlank ·) = true := by decide +kernel
        have hNotBlank := List.all_eq_true.mp hSolid c hBracket
        rw [hBlank] at hNotBlank
        cases hNotBlank
      rw [solid_cons_of_isBlank hBlank, List.foldlM_cons, closersBehind?_of_plain hPlain]
      exact ih expected
    · rw [solid, List.filter_cons_of_pos (by simp [hBlank]), List.foldlM_cons, List.foldlM_cons]
      exact congrArg _ (funext ih)

/-- No bracket is a part of a longer lexeme. -/
theorem brackets_not_mem {kind : Token.Kind} {chars : List Char} (h : IsLexeme kind chars)
    (plain : Bracket.isKind kind = false) : ∀ c ∈ chars, c ∉ brackets := by
  rcases h.fixed_or_wordlike with ⟨one, rfl⟩ | ⟨-, wordlike⟩
  · have hAll : kind.name.toList.all (· ∉ brackets) = true := by
      revert one plain
      cases kind <;> decide
    simpa using hAll
  · intro c hc
    exact not_mem_of_wordlike (by decide +kernel) (wordlike c hc)

theorem foldlM_closersBehind?_closing (bracket : Bracket) (opened : List Bracket) :
    [bracket.closing].foldlM closersBehind? (opened.map closing) =
      (closed? bracket opened).map (·.map closing) := by
  cases opened with
  | nil => cases bracket <;> rfl
  | cons first outer => cases bracket <;> cases first <;> rfl

/-- A lexeme opens and closes what its kind does. -/
theorem foldlM_closersBehind?_lexeme {kind : Token.Kind} {chars : List Char}
    (h : IsLexeme kind chars) (opened : List Bracket) :
    chars.foldlM closersBehind? (opened.map closing) =
      (behind? opened kind).map (·.map closing) := by
  cases hKind : Bracket.isKind kind with
  | false =>
    rw [foldlM_closersBehind?_of_plain (brackets_not_mem h hKind), behind?_of_plain hKind]
    rfl
  | true =>
    have hOne : kind.hasOneLexeme = true := by
      revert hKind
      cases kind <;> decide
    obtain ⟨-, rfl⟩ | ⟨free, -⟩ := h.fixed_or_wordlike
    · cases kind with
      | leftParen | leftBrace => rfl
      | rightParen => exact foldlM_closersBehind?_closing .paren opened
      | rightBrace => exact foldlM_closersBehind?_closing .brace opened
      | _ => cases hKind
    · rw [hOne] at free
      cases free

/-- The lexemes of tokens open and close what their kinds do. -/
theorem foldlM_closersBehind?_lexemes {words : List (Token.Kind × String)}
    (h : ∀ word ∈ words, IsLexeme word.1 word.2.toList) (opened : List Bracket) :
    (words.flatMap (·.2.toList)).foldlM closersBehind? (opened.map closing) =
      ((words.map Prod.fst).foldlM behind? opened).map (·.map closing) := by
  induction words generalizing opened with
  | nil => rfl
  | cons word words ih =>
    obtain ⟨hFirst, hOthers⟩ := List.forall_mem_cons.mp h
    rw [List.flatMap_cons, List.foldlM_append, foldlM_closersBehind?_lexeme hFirst, List.map_cons,
      List.foldlM_cons]
    cases behind? opened word.1 with
    | none => rfl
    | some opened => exact ih hOthers opened

/-- The console finds the brackets of the tokens. -/
theorem closers?_of_scans {text : List Char} {words : List (Token.Kind × String)}
    (h : Scans text words) :
    closers? [] ((Text.splitLines text).flatMap uncommented) =
      (left? (words.map Prod.fst)).map (·.map closing) := by
  rw [flatMap_uncommented, closers?_eq_foldlM, ← foldlM_closersBehind?_solid,
    solid_codeFrom_of_scans h]
  exact foldlM_closersBehind?_lexemes h.isLexeme []

theorem isBalanced_of_scans {text : List Char} {words : List (Token.Kind × String)}
    (h : Scans text words) :
    isBalanced text = false ↔ ∃ bracket outer, left? (words.map Prod.fst) = some (bracket :: outer) := by
  rw [isBalanced, closers?_of_scans h]
  cases left? (words.map Prod.fst) with
  | none => simp
  | some opened => cases opened <;> simp

end Console

/-! ### Brackets of programs -/

/-- Every bracket is closed, and nothing is closed but the innermost bracket. -/
inductive Balanced : List Token.Kind → Prop
  | nil : Balanced []
  | plain {kind : Token.Kind} {behind : List Token.Kind} (h : Bracket.isKind kind = false)
      (hBehind : Balanced behind) : Balanced (kind :: behind)
  | enclosed (bracket : Bracket) {inner behind : List Token.Kind} (hInner : Balanced inner)
      (hBehind : Balanced behind) :
      Balanced (bracket.opener :: (inner ++ bracket.closer :: behind))

namespace Balanced

variable {kinds kinds' : List Token.Kind}

theorem append (h : Balanced kinds) (h' : Balanced kinds') : Balanced (kinds ++ kinds') := by
  induction h with
  | nil => exact h'
  | plain hKind _ ih => exact .plain hKind ih
  | enclosed bracket hInner _ _ ih =>
    rw [List.cons_append, List.append_assoc, List.cons_append]
    exact .enclosed bracket hInner ih

theorem concat (h : Balanced kinds) {kind : Token.Kind} (hKind : Bracket.isKind kind = false) :
    Balanced (kinds ++ [kind]) := h.append (.plain hKind .nil)

/-- Behind balanced tokens the same brackets are open as before them. -/
theorem foldlM_behind? (h : Balanced kinds) (opened : List Bracket) :
    kinds.foldlM Bracket.behind? opened = some opened := by
  induction h generalizing opened with
  | nil => rfl
  | plain hKind _ ih =>
    rw [List.foldlM_cons, Bracket.behind?_of_plain hKind]
    exact ih opened
  | enclosed bracket _ _ ihInner ihBehind =>
    rw [List.foldlM_cons, Bracket.behind?_opener, Option.bind_eq_bind, Option.bind_some,
      List.foldlM_append, ihInner, Option.bind_eq_bind, Option.bind_some, List.foldlM_cons,
      Bracket.behind?_closer]
    exact ihBehind opened

end Balanced

/-- Whatever the grammar derives is balanced. -/
theorem Derives.balanced {phrase : Phrase} {kinds : List Token.Kind} (h : Derives phrase kinds) :
    Balanced kinds := by
  induction h with
  | empty => exact .nil
  | more _ _ ihFirst ihOthers => exact ihFirst.append ihOthers
  | declaration type => cases type <;> exact .plain rfl (.plain rfl (.plain rfl .nil))
  | statement _ ih | closer _ ih => exact ih
  | print _ ih => exact .plain rfl (ih.concat rfl)
  | input => exact .plain rfl (.plain rfl (.plain rfl .nil))
  | ifThen _ _ ihTest ihBody | loop _ _ ihTest ihBody =>
    exact .plain rfl (.enclosed .paren ihTest ihBody)
  | ifElse _ _ _ ihTest ihBody ihOtherwise =>
    exact .plain rfl (.enclosed .paren ihTest (ihBody.append (.plain rfl ihOtherwise)))
  | block _ ih => exact .enclosed .brace ih .nil
  | assign _ ih => exact .plain rfl (.plain rfl (ih.concat rfl))
  | discard _ ih => exact ih.concat rfl
  | binary op _ _ ihLeft ihRight => exact ihLeft.append (.plain (by cases op <;> rfl) ihRight)
  | minus _ ih => exact .plain rfl ih
  | number | name => exact .plain rfl .nil
  | group _ ih => exact .enclosed .paren ih .nil

namespace Program

/-- The tokens of a program that is read are a program of the grammar. -/
theorem derives_of_ofTokens {tokens : List Token} {e : Token} {p : Program}
    (hTokens : ∀ t ∈ tokens, t.isEof = false) (hEnd : e.isEof = true)
    (h : ofTokens (tokens ++ [e]) = .ok p) : Derives .program (tokens.map Token.kind) := by
  have hCursor : Cursor.ofTokens (tokens ++ [e]) = ⟨tokens, e⟩ :=
    Cursor.ofTokens_append hTokens hEnd
  have hFits := Parse.predicts_program.fits (c := ⟨tokens, e⟩) (eq_of_beq hEnd)
  rw [ofTokens, hCursor] at h
  split at h
  next program c hProgram =>
    cases h
    obtain ⟨-, -, -, hRead⟩ :=
      Parse.takes_itemsUpTo (Parse.sound_statement Parse.nestingLimit) hProgram
        (eq_of_beq hEnd) (Nat.le_refl _)
    rw [hProgram] at hFits
    obtain ⟨kinds, hDerives, taken, hRest, -, rfl⟩ := hFits
    have hNil : c.rest = [] := by
      rcases hRead with hCloses | hNil
      · exact Cursor.rest_eq_nil (hCursor ▸ hRest) (eq_of_beq hCloses)
      · exact hNil
    rw [hNil, List.append_nil] at hRest
    obtain rfl : tokens = taken := hRest
    exact hDerives
  next => cases h

end Program

namespace Console

/-- The end token opens and closes nothing. -/
theorem left?_append_eof {kinds : List Token.Kind} {e : Token} (hEnd : e.isEof = true) :
    Bracket.left? (kinds ++ [e.kind]) = Bracket.left? kinds := by
  rw [Bracket.left?, List.foldlM_append, eq_of_beq hEnd, ← Bracket.left?]
  cases Bracket.left? kinds <;> rfl

section Scanned

variable {source : String} {tokens : List Token} {p : Program}

theorem isBalanced_eq_false_iff (h : scan source = .ok tokens) :
    isBalanced source.toList = false ↔
      ∃ bracket outer, Bracket.left? (tokens.map Token.kind) = some (bracket :: outer) := by
  obtain ⟨front, e, rfl, hEnd, -, hScans⟩ := scans_of_scan h
  have hWaits := isBalanced_of_scans hScans
  rw [List.map_map] at hWaits
  rw [List.map_append, List.map_singleton, left?_append_eof hEnd]
  exact hWaits

/-- A program closes every bracket that it opens. -/
theorem left?_of_program (h : scan source = .ok tokens) (hp : Program.ofTokens tokens = .ok p) :
    Bracket.left? (tokens.map Token.kind) = some [] := by
  obtain ⟨front, e, rfl, hEnd, hFront, -⟩ := scans_of_scan h
  rw [List.map_append, List.map_singleton, left?_append_eof hEnd]
  exact (Program.derives_of_ofTokens hFront hEnd hp).balanced.foldlM_behind? []

theorem isBalanced_of_program (h : scan source = .ok tokens) (hp : Program.ofTokens tokens = .ok p) :
    isBalanced source.toList = true := by
  apply Bool.of_not_eq_false
  intro hFalse
  obtain ⟨bracket, outer, hLeft⟩ := (isBalanced_eq_false_iff h).mp hFalse
  rw [left?_of_program h hp] at hLeft
  cases hLeft

/-- A text that can be scanned waits for a bracket exactly if its tokens leave one open.  No
program waits for one. -/
theorem waits_for_brackets_of_tokens (h : scan source = .ok tokens) :
    (isBalanced source.toList = false ↔
      ∃ bracket outer, Bracket.left? (tokens.map Token.kind) = some (bracket :: outer)) ∧
    (∀ p, Program.ofTokens tokens = .ok p → isBalanced source.toList = true) ∧
    (isBalanced source.toList = false → ∀ p, Program.ofTokens tokens ≠ .ok p) := by
  refine ⟨isBalanced_eq_false_iff h, fun p hp => isBalanced_of_program h hp, ?_⟩
  intro hFalse p hp
  rw [isBalanced_of_program h hp] at hFalse
  cases hFalse

end Scanned

theorem exists_of_scan_map {α : Type} {source : String} {f : List Token → α} {value : α}
    (h : (scan source).map f = .ok value) : ∃ tokens, scan source = .ok tokens ∧ f tokens = value := by
  cases hScan : scan source with
  | error e =>
    rw [hScan] at h
    cases h
  | ok tokens =>
    rw [hScan] at h
    exact ⟨tokens, rfl, Except.ok.inj h⟩

/-- A loop whose body is not closed, with brackets in its comments. -/
def opensLoop : String := "while (x < (1 + 2)) \x7b // (\n  x = x / 2; // \x7d\n"

theorem waits_for_brackets_of_tokens_opensLoop :
    ∃ tokens, scan opensLoop = .ok tokens ∧
      Bracket.left? (tokens.map Token.kind) = some [.brace] ∧
      isBalanced opensLoop.toList = false ∧ ∀ p, Program.ofTokens tokens ≠ .ok p := by
  have hRead : (scan opensLoop).map (fun tokens => Bracket.left? (tokens.map Token.kind)) =
      .ok (some [.brace]) := by decide +kernel
  obtain ⟨tokens, hScan, hLeft⟩ := exists_of_scan_map hRead
  obtain ⟨hWaits, -, hNone⟩ := waits_for_brackets_of_tokens hScan
  have hFalse := hWaits.mpr ⟨.brace, [], hLeft⟩
  exact ⟨tokens, hScan, hLeft, hFalse, hNone hFalse⟩

end Console

end Abacus
