import Abacus.Console.Entry
import Abacus.Proofs.Token.Longest

/-! The code of an entry, which is its text without the comments.  The console finds comments line
by line, at the first two slashes of a line, and the scanner finds them between tokens.  Both find
the same ones: without its white space, the code of a text that can be scanned is what its tokens
were read from. -/

namespace Abacus

open Text Token

/-! ### The characters of lexemes -/

namespace Token.IsLexeme

variable {kind : Kind} {chars : List Char}

/-- A lexeme is the only one of its kind, or it is made of the characters of names and points. -/
theorem fixed_or_wordlike (h : IsLexeme kind chars) :
    (kind.hasOneLexeme = true ∧ chars = kind.name.toList) ∨
      (kind.hasOneLexeme = false ∧ ∀ c ∈ chars, isNameChar c = true ∨ c = '.') := by
  have hDigits {digits : List Char} (all : ∀ c ∈ digits, c.isDigit = true) :
      ∀ c ∈ digits, isNameChar c = true ∨ c = '.' := by
    intro c hc
    exact .inl (by simp [isNameChar, all c hc])
  cases h with
  | fixed one => exact .inl ⟨one, rfl⟩
  | name start others _ =>
    exact .inr ⟨rfl, List.forall_mem_cons.mpr ⟨.inl (isNameChar_of_isNameStart start),
      fun c hc => .inl (others c hc)⟩⟩
  | whole _ all => exact .inr ⟨rfl, hDigits all⟩
  | decimal _ all behind =>
    exact .inr ⟨rfl, List.forall_mem_append.mpr ⟨hDigits all,
      List.forall_mem_cons.mpr ⟨.inr rfl, hDigits behind⟩⟩⟩

theorem isBlank_eq_false (h : IsLexeme kind chars) : ∀ c ∈ chars, isBlank c = false := by
  rcases h.fixed_or_wordlike with ⟨one, rfl⟩ | ⟨-, wordlike⟩
  · have hAll : kind.name.toList.all (!isBlank ·) = true := by
      revert one
      cases kind <;> decide +kernel
    simpa using hAll
  · intro c hc
    apply Bool.eq_false_iff.mpr
    intro hBlank
    obtain ⟨hName, -, hPoint⟩ := separates_of_isBlank hBlank
    rcases wordlike c hc with hChar | rfl
    · rw [hName] at hChar
      cases hChar
    · exact hPoint rfl

theorem slash_not_mem (h : IsLexeme kind chars) (other : chars ≠ ['/']) : '/' ∉ chars := by
  rcases h.fixed_or_wordlike with ⟨one, rfl⟩ | ⟨-, wordlike⟩
  · revert one other
    cases kind <;> decide +kernel
  · intro hc
    rcases wordlike _ hc with hChar | hPoint
    · rw [isNameChar_of_ascii (by decide)] at hChar
      cases hChar
    · cases hPoint

end Token.IsLexeme

theorem Token.not_mem_of_wordlike {signs : List Char} {c : Char}
    (hSigns : signs.all (fun c => !isNameChar c && c != '.') = true)
    (h : isNameChar c = true ∨ c = '.') : c ∉ signs := by
  intro hMem
  have hOther := List.all_eq_true.mp hSigns c hMem
  rcases h with hChar | rfl
  · simp [hChar] at hOther
  · simp at hOther

namespace Console

/-! ### Lines and comments -/

/-- The text without its comments and its line feeds.  With `inComment` it starts in a comment. -/
def codeFrom (inComment : Bool) : List Char → List Char
  | [] => []
  | c :: rest =>
    if c = '\n' then codeFrom false rest
    else if inComment || (c == '/' && rest.head? == some '/') then codeFrom true rest
    else c :: codeFrom false rest

theorem exists_splitLines (text : List Char) :
    ∃ line lines, splitLines text = line :: lines ∧
      (line.head? == some '/') = (text.head? == some '/') := by
  induction text with
  | nil => exact ⟨[], [], rfl, rfl⟩
  | cons c rest ih =>
    by_cases hc : c = '\n'
    · subst hc
      exact ⟨[], _, rfl, rfl⟩
    · obtain ⟨line, lines, hLines, -⟩ := ih
      exact ⟨c :: line, lines, by simp [splitLines, hc, hLines], rfl⟩

/-- What the console keeps of the lines of a text, and of all but the first one. -/
theorem flatMap_uncommented_and (text : List Char) :
    (splitLines text).flatMap uncommented = codeFrom false text ∧
      (splitLines text).tail.flatMap uncommented = codeFrom true text := by
  induction text with
  | nil => exact ⟨rfl, rfl⟩
  | cons c rest ih =>
    by_cases hc : c = '\n'
    · subst hc
      exact ⟨ih.1, ih.1⟩
    · obtain ⟨line, lines, hLines, hHead⟩ := exists_splitLines rest
      rw [hLines] at ih
      simp only [splitLines, hc, if_false, hLines, codeFrom, List.flatMap_cons, uncommented, hHead,
        List.tail_cons, Bool.true_or, Bool.false_or, if_true]
      refine ⟨?_, ih.2⟩
      split
      · exact ih.2
      · rw [List.cons_append, ← ih.1, List.flatMap_cons]

theorem flatMap_uncommented (text : List Char) :
    (splitLines text).flatMap uncommented = codeFrom false text := (flatMap_uncommented_and text).1

theorem codeFrom_append_lineFeed (above below : List Char) :
    codeFrom false (above ++ '\n' :: below) = codeFrom false above ++ codeFrom false below := by
  simp only [← flatMap_uncommented, splitLines_append_lineFeed, List.flatMap_append]

theorem codeFrom_of_not_mem {line : List Char} (h : '\n' ∉ line) :
    codeFrom false line = uncommented line := by
  rw [← flatMap_uncommented, splitLines_of_not_mem h, List.flatMap_singleton]

/-! ### Code and tokens -/

/-- The text without its white space. -/
def solid (text : List Char) : List Char := text.filter (!isBlank ·)

@[simp] theorem solid_append (front back : List Char) :
    solid (front ++ back) = solid front ++ solid back := List.filter_append ..

theorem solid_cons_of_isBlank {c : Char} (h : isBlank c = true) (rest : List Char) :
    solid (c :: rest) = solid rest := by
  simp [solid, h]

theorem solid_eq_self {text : List Char} (h : ∀ c ∈ text, isBlank c = false) : solid text = text := by
  apply List.filter_eq_self.mpr
  intro c hc
  rw [h c hc, Bool.not_false]

theorem codeFrom_true_cons (c : Char) (rest : List Char) :
    codeFrom true (c :: rest) = codeFrom (c != '\n') rest := by
  by_cases hc : c = '\n'
  · simp [codeFrom, hc]
  · rw [bne_iff_ne.mpr hc, codeFrom, if_neg hc, Bool.true_or, if_pos rfl]

theorem codeFrom_of_isBlank {c : Char} (h : isBlank c = true) (rest : List Char) :
    solid (codeFrom false (c :: rest)) = solid (codeFrom false rest) := by
  have hSlash : c ≠ '/' := by
    rintro rfl
    cases h
  by_cases hc : c = '\n'
  · rw [codeFrom, if_pos hc]
  · simp [codeFrom, hc, hSlash, solid_cons_of_isBlank h]

theorem codeFrom_slashes {c : Char} {rest : List Char}
    (h : (c == '/' && rest.head? == some '/') = true) :
    codeFrom false (c :: rest) = codeFrom true rest := by
  have hc : c ≠ '\n' := by
    rintro rfl
    cases h
  simp [codeFrom, hc, h]

/-- Layout has no code but white space. -/
theorem solid_codeFrom_cutLayout (inComment : Bool) (text : List Char) :
    solid (codeFrom inComment text) = solid (codeFrom false (cutLayout inComment text).2) := by
  induction text generalizing inComment with
  | nil => rfl
  | cons c rest ih =>
    cases inComment with
    | true =>
      rw [codeFrom_true_cons, cutLayout_true_cons]
      exact ih _
    | false =>
      simp only [cutLayout, Bool.false_eq_true, if_false]
      split
      · next blank =>
        rw [codeFrom_of_isBlank blank]
        exact ih false
      · split
        · next slashes =>
          rw [codeFrom_slashes slashes]
          exact ih true
        · rfl

/-- Code goes on behind characters that begin no comment. -/
theorem codeFrom_append {front : List Char} (solid : ∀ c ∈ front, isBlank c = false)
    (noSlash : '/' ∉ front) (rest : List Char) :
    codeFrom false (front ++ rest) = front ++ codeFrom false rest := by
  induction front with
  | nil => rfl
  | cons c front ih =>
    obtain ⟨hFirst, hOthers⟩ := List.forall_mem_cons.mp solid
    have hFeed : c ≠ '\n' := by
      rintro rfl
      cases hFirst
    have hSlash : c ≠ '/' := (List.ne_of_not_mem_cons noSlash).symm
    have hBehind := ih hOthers (List.not_mem_of_not_mem_cons noSlash)
    simp [codeFrom, hFeed, hSlash, hBehind]

/-- What is left behind layout does not begin with layout. -/
theorem cutLayout_ahead {text tail : List Char} {c : Char} {inComment : Bool}
    (h : (cutLayout inComment text).2 = c :: tail) :
    (c == '/' && tail.head? == some '/') = false := by
  induction text generalizing inComment with
  | nil => cases h
  | cons d rest ih =>
    cases inComment with
    | true => exact ih h
    | false =>
      simp only [cutLayout, Bool.false_eq_true, if_false] at h
      split at h
      · exact ih h
      · split at h
        · exact ih h
        · next noComment =>
          cases h
          simpa using noComment

/-- A lexeme behind layout is code. -/
theorem codeFrom_of_read? {text : List Char} {l : Lexeme}
    (h : Lexeme.read? (cutLayout false text).2 = some l) :
    codeFrom false (cutLayout false text).2 = l.chars ++ codeFrom false l.rest := by
  have hLexeme := Lexeme.isLexeme_of_read? h
  have hWhole := Lexeme.read?_append h
  rw [← hWhole]
  by_cases hSlash : l.chars = ['/']
  · rw [hSlash, List.singleton_append] at hWhole ⊢
    have hAlone := cutLayout_ahead hWhole.symm
    rw [codeFrom, if_neg (by decide), Bool.false_or, hAlone]
    rfl
  · exact codeFrom_append hLexeme.isBlank_eq_false (hLexeme.slash_not_mem hSlash) l.rest

/-- The code of a text, without white space, is what its tokens were read from. -/
theorem solid_codeFrom_of_scans {text : List Char} {words : List (Token.Kind × String)}
    (h : Scans text words) :
    solid (codeFrom false text) = words.flatMap (·.2.toList) := by
  induction h with
  | done layout => rw [solid_codeFrom_cutLayout, layout]; rfl
  | more found _ ih =>
    have hSolid := (Lexeme.isLexeme_of_read? found).isBlank_eq_false
    rw [solid_codeFrom_cutLayout, codeFrom_of_read? found, solid_append, solid_eq_self hSolid, ih,
      List.flatMap_cons, String.toList_ofList]

end Console

end Abacus
