import Abacus.Proofs.Console.Brackets

/-! When an entry is complete.  Besides open brackets, the console looks at the last character of an
entry, without white space at its end and without the comment in its last line.  Where that
character stands in no comment, it is the last one of the last token, and it tells whether an
operand is missing.  But it may also be the end of a comment above lines that are blank. -/

namespace Abacus

open Text Token

/-! ### Tokens at the end -/

/-- Whether something has to follow a token of this kind: an operand, or what is in brackets. -/
def Token.Kind.wantsMore : Token.Kind → Bool
  | plus | minus | star | slash | equal | equalEqual | notEqual => true
  | greater | greaterEqual | less | lessEqual | leftParen | leftBrace => true
  | _ => false

/-- The tokens end in one that nothing has to follow. -/
def Finished (kinds : List Token.Kind) : Prop :=
  ∃ front last, kinds = front ++ [last] ∧ last.wantsMore = false

namespace Finished

theorem behind {kinds : List Token.Kind} (h : Finished kinds) (front : List Token.Kind) :
    Finished (front ++ kinds) := by
  obtain ⟨others, last, rfl, hLast⟩ := h
  exact ⟨front ++ others, last, (List.append_assoc ..).symm, hLast⟩

theorem cons {kinds : List Token.Kind} (h : Finished kinds) (first : Token.Kind) :
    Finished (first :: kinds) := h.behind [first]

theorem concat (front : List Token.Kind) {last : Token.Kind} (h : last.wantsMore = false) :
    Finished (front ++ [last]) := ⟨front, last, rfl, h⟩

end Finished

/-- Every phrase is finished, but a program may also be empty. -/
theorem Derives.finished {phrase : Phrase} {kinds : List Token.Kind} (h : Derives phrase kinds) :
    (phrase = .program ∧ kinds = []) ∨ Finished kinds := by
  induction h with
  | empty => exact .inl ⟨rfl, rfl⟩
  | @more first others _ _ ihFirst ihOthers =>
    rcases ihOthers with ⟨-, rfl⟩ | hOthers
    · rw [List.append_nil]
      exact .inr (ihFirst.resolve_left (by simp))
    · exact .inr (hOthers.behind first)
  | declaration type => exact .inr (Finished.concat [type.token, .identifier] rfl)
  | statement _ ih => exact .inr (ih.resolve_left (by simp))
  | print => exact .inr (Finished.concat (.printWord :: _) rfl)
  | input => exact .inr (Finished.concat [.inputWord, .identifier] rfl)
  | ifThen _ _ _ ihBody | loop _ _ _ ihBody =>
    have hBody := ihBody.resolve_left (by simp)
    exact .inr ((((hBody.cons _).behind _).cons _).cons _)
  | ifElse _ _ _ _ _ ihOtherwise =>
    have hOtherwise := ihOtherwise.resolve_left (by simp)
    exact .inr ((((((hOtherwise.cons _).behind _).cons _).behind _).cons _).cons _)
  | block => exact .inr (Finished.concat (.leftBrace :: _) rfl)
  | assign => exact .inr (Finished.concat (.identifier :: .equal :: _) rfl)
  | discard => exact .inr (Finished.concat _ rfl)
  | binary op _ _ _ ihRight =>
    have hRight := ihRight.resolve_left (by simp)
    exact .inr ((hRight.cons _).behind _)
  | closer _ ih => exact .inr (ih.resolve_left (by simp))
  | minus _ ih =>
    have hOperand := ih.resolve_left (by simp)
    exact .inr (hOperand.cons _)
  | number => exact .inr (Finished.concat [] rfl)
  | name => exact .inr (Finished.concat [] rfl)
  | group => exact .inr (Finished.concat (.leftParen :: _) rfl)

namespace Console

/-- The characters that an entry does not end in. -/
def asksForMore (c : Char) : Bool := c ∈ ['+', '-', '*', '/', '=', '<', '>', '(', '\x7b']

theorem endsOpen_eq (text : List Char) :
    endsOpen text = (trimEnd (withoutComment text)).getLast?.any asksForMore := rfl

/-- The last character of a lexeme tells whether something has to follow. -/
theorem asksForMore_of_isLexeme {kind : Token.Kind} {chars : List Char} (h : IsLexeme kind chars) :
    ∃ front last, chars = front ++ [last] ∧ asksForMore last = kind.wantsMore := by
  rcases h.fixed_or_wordlike with ⟨one, rfl⟩ | ⟨many, wordlike⟩
  · refine ⟨kind.name.toList.dropLast, kind.name.toList.getLast?.getD ' ', ?_⟩
    revert one
    cases kind <;> decide +kernel
  · rcases List.eq_nil_or_concat' chars with rfl | ⟨front, last, rfl⟩
    · cases Lexeme.read?_of_isLexeme h
    · refine ⟨front, last, rfl, ?_⟩
      have hKind : kind.wantsMore = false := by
        revert many
        cases kind <;> decide
      have hLast := wordlike last (List.mem_append_right front (List.mem_singleton_self last))
      rw [hKind]
      exact decide_eq_false (not_mem_of_wordlike (by decide +kernel) hLast)

/-! ### Lines -/

/-- The last line of a text. -/
def lastLine (text : List Char) : List Char := (text.reverse.takeWhile (· != '\n')).reverse

/-- The text in front of its last line. -/
def frontLines (text : List Char) : List Char := (text.reverse.dropWhile (· != '\n')).reverse

theorem withoutComment_eq (text : List Char) :
    withoutComment text = frontLines text ++ uncommented (lastLine text) := rfl

theorem frontLines_append_lastLine (text : List Char) : frontLines text ++ lastLine text = text := by
  rw [frontLines, lastLine, ← List.reverse_append, List.takeWhile_append_dropWhile,
    List.reverse_reverse]

theorem lineFeed_not_mem_lastLine (text : List Char) : '\n' ∉ lastLine text := by
  intro hMem
  have hTaken := List.mem_takeWhile_imp (List.mem_reverse.mp hMem)
  simp at hTaken

theorem lastLine_concat (front : List Char) {c : Char} (h : c ≠ '\n') :
    lastLine (front ++ [c]) = lastLine front ++ [c] := by
  simp [lastLine, h]

theorem frontLines_cases (text : List Char) :
    frontLines text = [] ∨ ∃ above, frontLines text = above ++ ['\n'] := by
  rcases reverse_dropWhile_cases (· != '\n') text with hNil | ⟨above, c, hFront, hFeed⟩
  · exact .inl hNil
  · obtain rfl : c = '\n' := by simpa using hFeed
    exact .inr ⟨above, hFront⟩

theorem exists_uncommented (line : List Char) : ∃ comment, line = uncommented line ++ comment := by
  induction line with
  | nil => exact ⟨[], rfl⟩
  | cons c rest ih =>
    rw [uncommented]
    split
    · exact ⟨c :: rest, rfl⟩
    · obtain ⟨comment, hRest⟩ := ih
      exact ⟨comment, congrArg (c :: ·) hRest⟩

theorem lineFeed_not_mem_uncommented (text : List Char) : '\n' ∉ uncommented (lastLine text) := by
  obtain ⟨comment, hWhole⟩ := exists_uncommented (lastLine text)
  intro hMem
  apply lineFeed_not_mem_lastLine text
  rw [hWhole]
  exact List.mem_append_left comment hMem

theorem alone_uncommented {c : Char} {rest : List Char}
    (h : ¬ (c == '/' && rest.head? == some '/') = true) :
    ¬ (c == '/' && (uncommented rest).head? == some '/') = true := by
  obtain ⟨comment, hRest⟩ := exists_uncommented rest
  intro hSlashes
  apply h
  rw [hRest]
  cases hKept : uncommented rest with
  | nil =>
    rw [hKept] at hSlashes
    simp at hSlashes
  | cons d kept => rwa [hKept] at hSlashes

theorem uncommented_uncommented (line : List Char) :
    uncommented (uncommented line) = uncommented line := by
  induction line with
  | nil => rfl
  | cons c rest ih =>
    rw [uncommented]
    split
    · rfl
    · next noComment => rw [uncommented, if_neg (alone_uncommented noComment), ih]

theorem codeFrom_frontLines_append (text : List Char) {line : List Char} (h : '\n' ∉ line) :
    codeFrom false (frontLines text ++ line) =
      codeFrom false (frontLines text) ++ uncommented line := by
  rw [← codeFrom_of_not_mem h]
  rcases frontLines_cases text with hFront | ⟨above, hFront⟩
  · rw [hFront]
    rfl
  · have hFeed : codeFrom false (above ++ ['\n']) = codeFrom false above :=
      (codeFrom_append_lineFeed above []).trans (List.append_nil _)
    rw [hFront, hFeed, List.append_assoc]
    exact codeFrom_append_lineFeed above line

theorem codeFrom_withoutComment (text : List Char) :
    codeFrom false (withoutComment text) = codeFrom false text := by
  rw [withoutComment_eq, codeFrom_frontLines_append text (lineFeed_not_mem_uncommented text),
    uncommented_uncommented, ← codeFrom_frontLines_append text (lineFeed_not_mem_lastLine text),
    frontLines_append_lastLine]

/-! ### White space at the end -/

theorem exists_trimEnd (text : List Char) :
    ∃ blanks, text = trimEnd text ++ blanks ∧ ∀ c ∈ blanks, isBlank c = true := by
  refine ⟨(text.reverse.takeWhile isBlank).reverse, ?_, ?_⟩
  · rw [trimEnd, trimStart, ← List.reverse_append, List.takeWhile_append_dropWhile,
      List.reverse_reverse]
  · intro c hc
    exact List.mem_takeWhile_imp (List.mem_reverse.mp hc)

theorem isBlank_getLast_trimEnd {text front : List Char} {c : Char}
    (h : trimEnd text = front ++ [c]) : isBlank c = false := by
  have hCases := reverse_dropWhile_cases isBlank text
  rw [← trimStart, ← trimEnd, h] at hCases
  rcases hCases with hNil | ⟨front', c', hConcat, hBlank⟩
  · simp at hNil
  · obtain rfl : c = c' := by simpa using (List.append_inj' hConcat rfl).2
    exact hBlank

theorem solid_codeFrom_of_blanks {blanks : List Char} (h : ∀ c ∈ blanks, isBlank c = true)
    (inComment : Bool) : solid (codeFrom inComment blanks) = [] := by
  induction blanks generalizing inComment with
  | nil => rfl
  | cons c rest ih =>
    obtain ⟨hFirst, hOthers⟩ := List.forall_mem_cons.mp h
    cases inComment with
    | true => rw [codeFrom_true_cons, ih hOthers]
    | false => rw [codeFrom_of_isBlank hFirst, ih hOthers]

theorem solid_codeFrom_append_blanks {blanks : List Char} (h : ∀ c ∈ blanks, isBlank c = true)
    (inComment : Bool) (text : List Char) :
    solid (codeFrom inComment (text ++ blanks)) = solid (codeFrom inComment text) := by
  induction text generalizing inComment with
  | nil => exact solid_codeFrom_of_blanks h inComment
  | cons c rest ih =>
    cases inComment with
    | true => rw [List.cons_append, codeFrom_true_cons, codeFrom_true_cons, ih]
    | false =>
      -- A slash at the end of the text is not followed by another one, since blanks are none.
      have hNext : ((rest ++ blanks).head? == some '/') = (rest.head? == some '/') := by
        cases rest with
        | cons d rest => rfl
        | nil =>
          cases blanks with
          | nil => rfl
          | cons d blanks =>
            have hBlank := h d List.mem_cons_self
            have hSlash : d ≠ '/' := by
              rintro rfl
              cases hBlank
            simp [hSlash]
      rw [List.cons_append, codeFrom, codeFrom, hNext]
      split
      · exact ih false
      · split
        · exact ih true
        · rw [← List.singleton_append, solid_append, ih, ← solid_append, List.singleton_append]

/-! ### The end of an entry -/

/-- The line at whose end the console looks: the last one that is not blank.  Only the last line of
the text has lost its comment. -/
def endingLine (text : List Char) : List Char := lastLine (trimEnd (withoutComment text))

theorem getLast?_trimEnd_withoutComment (text : List Char) :
    (trimEnd (withoutComment text)).getLast? = (endingLine text).getLast? ∧
      (uncommented (endingLine text) = endingLine text →
        (endingLine text).getLast? = (solid (codeFrom false text)).getLast?) := by
  obtain ⟨blanks, hWhole, hBlanks⟩ := exists_trimEnd (withoutComment text)
  have hCode : solid (codeFrom false text) =
      solid (codeFrom false (trimEnd (withoutComment text))) := by
    rw [← solid_codeFrom_append_blanks hBlanks false (trimEnd (withoutComment text)), ← hWhole,
      codeFrom_withoutComment]
  rw [hCode, endingLine]
  rcases List.eq_nil_or_concat' (trimEnd (withoutComment text)) with hNil | ⟨front, c, hConcat⟩
  · rw [hNil]
    exact ⟨rfl, fun _ => rfl⟩
  · -- The last character is not blank, so it stands in the last line, and in the code of that line.
    have hBlank : isBlank c = false := isBlank_getLast_trimEnd hConcat
    have hFeed : c ≠ '\n' := by
      rintro rfl
      cases hBlank
    have hLine := lineFeed_not_mem_lastLine (front ++ [c])
    rw [hConcat]
    refine ⟨?_, fun noComment => ?_⟩
    · rw [lastLine_concat front hFeed, List.getLast?_concat, List.getLast?_concat]
    · have hSplit := codeFrom_frontLines_append (front ++ [c]) hLine
      rw [frontLines_append_lastLine, noComment, lastLine_concat front hFeed] at hSplit
      have hLast : solid [c] = [c] := by simp [solid, hBlank]
      rw [hSplit, lastLine_concat front hFeed, solid_append, solid_append, hLast,
        List.getLast?_concat, ← List.append_assoc, List.getLast?_concat]

theorem lastLine_frontLines_append (text : List Char) {line : List Char} (h : '\n' ∉ line) :
    lastLine (frontLines text ++ line) = line := by
  have hAll : ∀ c ∈ line.reverse, (c != '\n') = true := by
    intro c hc
    apply bne_iff_ne.mpr
    rintro rfl
    exact h (List.mem_reverse.mp hc)
  rcases frontLines_cases text with hFront | ⟨above, hFront⟩
  · rw [hFront, List.nil_append, lastLine, List.takeWhile_eq_self_iff.mpr hAll,
      List.reverse_reverse]
  · rw [hFront, lastLine, List.reverse_append, List.takeWhile_append_of_pos hAll]
    simp

theorem trimEnd_append (front : List Char) {back : List Char} (h : trimEnd back ≠ []) :
    trimEnd (front ++ back) = front ++ trimEnd back := by
  have hBack : (back.reverse.dropWhile isBlank).isEmpty = false := by
    simpa [trimEnd, trimStart] using h
  simp [trimEnd, trimStart, List.dropWhile_append, hBack]

theorem uncommented_of_append {front back : List Char}
    (h : uncommented (front ++ back) = front ++ back) : uncommented front = front := by
  induction front with
  | nil => rfl
  | cons c front ih =>
    rw [List.cons_append, uncommented] at h
    split at h
    · cases h
    · next noComment =>
      have hAlone : ¬ (c == '/' && front.head? == some '/') = true := by
        cases front with
        | nil => simp
        | cons d front => exact noComment
      rw [uncommented, if_neg hAlone, ih (List.cons.inj h).2]

/-- If the last line has code, there is no comment in the line that the console looks at. -/
theorem uncommented_endingLine {text : List Char} (h : solid (uncommented (lastLine text)) ≠ []) :
    uncommented (endingLine text) = endingLine text := by
  obtain ⟨blanks, hWhole, hBlanks⟩ := exists_trimEnd (uncommented (lastLine text))
  have hFilled : trimEnd (uncommented (lastLine text)) ≠ [] := by
    intro hNil
    rw [hWhole, hNil, List.nil_append] at h
    exact h (List.filter_eq_nil_iff.mpr fun c hc => by simp [hBlanks c hc])
  have hLine : '\n' ∉ trimEnd (uncommented (lastLine text)) := by
    intro hMem
    apply lineFeed_not_mem_uncommented text
    rw [hWhole]
    exact List.mem_append_left blanks hMem
  rw [endingLine, withoutComment_eq, trimEnd_append _ hFilled, lastLine_frontLines_append text hLine]
  have hKept := uncommented_uncommented (lastLine text)
  rw [hWhole] at hKept
  exact uncommented_of_append hKept

theorem asksForMore_of_lexemes {words : List (Token.Kind × String)}
    (h : ∀ word ∈ words, IsLexeme word.1 word.2.toList) :
    (words.flatMap (·.2.toList)).getLast?.any asksForMore = words.getLast?.any (·.1.wantsMore) := by
  rcases List.eq_nil_or_concat' words with rfl | ⟨front, word, rfl⟩
  · rfl
  · have hLexeme := h word (List.mem_append_right front (List.mem_singleton_self word))
    obtain ⟨chars, last, hChars, hLast⟩ := asksForMore_of_isLexeme hLexeme
    rw [List.flatMap_append, List.flatMap_singleton, hChars, ← List.append_assoc,
      List.getLast?_concat, List.getLast?_concat]
    exact hLast

theorem cutLayout_of_point {text rest : List Char} (h : trimStart text = '.' :: rest) :
    (cutLayout false text).2 = '.' :: rest := by
  induction text with
  | nil => cases h
  | cons c text ih =>
    by_cases blank : isBlank c = true
    · have hTrim : trimStart (c :: text) = trimStart text := List.dropWhile_cons_of_pos blank
      rw [hTrim] at h
      simp only [cutLayout, Bool.false_eq_true, if_false, blank, if_true]
      exact ih h
    · have hTrim : trimStart (c :: text) = c :: text := List.dropWhile_cons_of_neg blank
      rw [hTrim] at h
      cases h
      rfl

/-- No text that begins like a command can be scanned. -/
theorem head?_trimStart_of_scans {text : List Char} {words : List (Token.Kind × String)}
    (h : Scans text words) : (trimStart text).head? ≠ some '.' := by
  intro hPoint
  obtain ⟨rest, hTrim⟩ := List.head?_eq_some_iff.mp hPoint
  have hCut := cutLayout_of_point hTrim
  have hNone : Lexeme.read? ('.' :: rest) = none := by
    have noStart : isNameStart '.' = false := isNameStart_of_ascii (by decide)
    simp [Lexeme.read?, Lexeme.symbol?, Lexeme.comparison?, noStart]
  cases h with
  | done layout =>
    rw [layout] at hCut
    cases hCut
  | more found _ =>
    rw [hCut, hNone] at found
    cases found

section Scanned

variable {source : String} {tokens : List Token} {p : Program}

theorem endsOpen_of_scan (h : scan source = .ok tokens)
    (noComment : uncommented (endingLine source.toList) = endingLine source.toList) :
    endsOpen source.toList = tokens.dropLast.getLast?.any (·.kind.wantsMore) := by
  obtain ⟨front, e, rfl, -, -, hScans⟩ := scans_of_scan h
  obtain ⟨hEnd, hCode⟩ := getLast?_trimEnd_withoutComment source.toList
  rw [endsOpen_eq, hEnd, hCode noComment, solid_codeFrom_of_scans hScans,
    asksForMore_of_lexemes hScans.isLexeme, List.dropLast_concat, List.getLast?_map,
    Option.any_map]
  rfl

theorem isComplete_of_scan (h : scan source = .ok tokens) :
    isComplete source.toList = (isBalanced source.toList && !endsOpen source.toList) := by
  obtain ⟨front, e, -, -, -, hScans⟩ := scans_of_scan h
  have hFirst := head?_trimStart_of_scans hScans
  rw [isComplete, beq_eq_false_iff_ne.mpr hFirst, Bool.false_or]

theorem wantsMore_of_program (h : scan source = .ok tokens) (hp : Program.ofTokens tokens = .ok p) :
    tokens.dropLast.getLast?.any (·.kind.wantsMore) = false := by
  obtain ⟨front, e, rfl, hEnd, hFront, -⟩ := scans_of_scan h
  rw [List.dropLast_concat]
  have hAny : front.getLast?.any (·.kind.wantsMore) =
      (front.map Token.kind).getLast?.any Token.Kind.wantsMore := by
    rw [List.getLast?_map, Option.any_map]
  rw [hAny]
  rcases (Program.derives_of_ofTokens hFront hEnd hp).finished with ⟨-, hNil⟩ | ⟨kinds, last, hKinds, hLast⟩
  · rw [hNil]
    rfl
  · rw [hKinds, List.getLast?_concat]
    exact hLast

/-- A text that can be scanned waits for more if its tokens leave a bracket open, or if something
has to follow the last one.  Only where the last line has no code, and the line that the console
looks at has a comment, the end of that comment decides in place of the last token. -/
theorem waits_for_more_of_tokens (h : scan source = .ok tokens) :
    (isComplete source.toList = false ↔
      (∃ bracket outer, Bracket.left? (tokens.map Token.kind) = some (bracket :: outer)) ∨
        if uncommented (endingLine source.toList) = endingLine source.toList
        then tokens.dropLast.getLast?.any (·.kind.wantsMore)
        else (endingLine source.toList).getLast?.any asksForMore) ∧
    (uncommented (endingLine source.toList) = endingLine source.toList →
      ∀ p, Program.ofTokens tokens = .ok p → isComplete source.toList = true) ∧
    (solid (uncommented (lastLine source.toList)) ≠ [] →
      uncommented (endingLine source.toList) = endingLine source.toList) := by
  rw [isComplete_of_scan h]
  refine ⟨?_, ?_, uncommented_endingLine⟩
  · rw [← isBalanced_eq_false_iff h, Bool.and_eq_false_iff, Bool.not_eq_false']
    split
    · next noComment => rw [endsOpen_of_scan h noComment]
    · rw [endsOpen_eq, (getLast?_trimEnd_withoutComment source.toList).1]
  · intro noComment p hp
    rw [isBalanced_of_program h hp, endsOpen_of_scan h noComment, wantsMore_of_program h hp]
    rfl

end Scanned

/-- A difference whose second operand is missing, with brackets and operators in its comments. -/
def missesOperand : String := "x = (y / // (\n  2) - // +"

theorem waits_for_more_of_tokens_missesOperand :
    ∃ tokens, scan missesOperand = .ok tokens ∧
      tokens.dropLast.getLast?.any (·.kind.wantsMore) = true ∧
      isComplete missesOperand.toList = false := by
  have hRead : (scan missesOperand).map (·.dropLast.getLast?.any (·.kind.wantsMore)) = .ok true := by
    decide +kernel
  have hCode : solid (uncommented (lastLine missesOperand.toList)) ≠ [] := by decide +kernel
  obtain ⟨tokens, hScan, hLast⟩ := exists_of_scan_map hRead
  obtain ⟨hWaits, -, hPlain⟩ := waits_for_more_of_tokens hScan
  rw [if_pos (hPlain hCode)] at hWaits
  exact ⟨tokens, hScan, hLast, hWaits.mpr (.inr hLast)⟩

/-- A comment above a blank line hides an operator, and the end of a comment passes for one. -/
theorem isComplete_of_comment_above :
    (∃ tokens, scan "print x + // more\n" = .ok tokens ∧
      tokens.dropLast.getLast?.any (·.kind.wantsMore) = true ∧
      isComplete "print x + // more\n".toList = true) ∧
    (∃ tokens p, scan "print x; // +\n" = .ok tokens ∧ Program.ofTokens tokens = .ok p ∧
      isComplete "print x; // +\n".toList = false) := by
  constructor
  · have hRead : (scan "print x + // more\n").map (·.dropLast.getLast?.any (·.kind.wantsMore)) =
        .ok true := by decide +kernel
    obtain ⟨tokens, hScan, hLast⟩ := exists_of_scan_map hRead
    exact ⟨tokens, hScan, hLast, by decide +kernel⟩
  · have hRead : (scan "print x; // +\n").map (fun tokens => (Program.ofTokens tokens).isOk) =
        .ok true := by decide +kernel
    obtain ⟨tokens, hScan, hProgram⟩ := exists_of_scan_map hRead
    cases hParse : Program.ofTokens tokens with
    | error e =>
      rw [hParse] at hProgram
      cases hProgram
    | ok p => exact ⟨tokens, p, hScan, hParse, by decide +kernel⟩

end Console

end Abacus
