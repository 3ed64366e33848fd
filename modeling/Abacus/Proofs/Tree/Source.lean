import Abacus.Proofs.Token.Scans
import Abacus.Proofs.Tree.Completeness
import Abacus.Proofs.Tree.Soundness
import Abacus.Session

/-! Which sources spell which programs.  A source is read as a program exactly if its words spell
the program, the program is canonical, and it is not nested too deep.  So a source behind another
one, on a line of its own, is read as the one program behind the other. -/

namespace Abacus

open Token

theorem Mark.Matches.of_word_eq {m : Mark} {t t' : Token} (h : m.Matches t)
    (hWord : t.word = t'.word) : m.Matches t' := by
  obtain ⟨hKind, hLexeme⟩ := Prod.mk.inj hWord
  cases m with
  | word kind => exact hKind.symm.trans h
  | name text => exact ⟨hKind.symm.trans h.1, hLexeme.symm.trans h.2⟩
  | number value => exact ⟨hKind.symm.trans h.1, hLexeme ▸ h.2⟩

/-- Whether tokens spell something depends on their words only. -/
theorem Spells.of_words_eq {marks : List Mark} {tokens tokens' : List Token}
    (h : Spells marks tokens) (hWords : tokens.map word = tokens'.map word) :
    Spells marks tokens' := by
  induction h generalizing tokens' with
  | nil =>
    obtain rfl := List.map_eq_nil_iff.mp hWords.symm
    exact .nil
  | cons hMatches _ ih =>
    obtain ⟨t', tokens', rfl, hWord, hWords⟩ := List.map_eq_cons_iff.mp hWords.symm
    exact .cons (hMatches.of_word_eq hWord.symm) (ih hWords.symm)

namespace Program

/-- Tokens before an end token are read as a program exactly if they spell it. -/
theorem ofTokens_eq_ok_iff {tokens : List Token} {e : Token} {p : Program}
    (hTokens : ∀ t ∈ tokens, t.isEof = false) (hEnd : e.isEof = true) :
    ofTokens (tokens ++ [e]) = .ok p ↔
      Spells p.marks tokens ∧ p.Canonical ∧ p.nesting ≤ Parse.nestingLimit := by
  have hCursor : Cursor.ofTokens (tokens ++ [e]) = ⟨tokens, e⟩ :=
    Cursor.ofTokens_append hTokens hEnd
  rw [ofTokens, hCursor]
  constructor
  · intro h
    split at h
    next program c hProgram =>
      cases h
      obtain ⟨hTakes, hCanonical, hNesting, hRead⟩ :=
        Parse.takes_itemsUpTo (Parse.sound_statement Parse.nestingLimit) hProgram
          (eq_of_beq hEnd) (Nat.le_refl _)
      obtain ⟨taken, hRest, hSpells⟩ := hTakes.spells
      have hNil : c.rest = [] := by
        rcases hRead with hCloses | hNil
        · exact Cursor.rest_eq_nil (hCursor ▸ hRest) (eq_of_beq hCloses)
        · exact hNil
      rw [hNil, List.append_nil] at hRest
      obtain rfl : tokens = taken := hRest
      exact ⟨hSpells, hCanonical, Nat.le_of_lt_succ hNesting⟩
    next => cases h
  · rintro ⟨hSpells, hCanonical, hShallow⟩
    have hReaches := Parse.reaches_program hCanonical hSpells hEnd
    rw [Parse.Reaches, find?_openings_eq_none_iff.mpr hShallow] at hReaches
    rw [hReaches]

/-- A source is read as a program exactly if its words spell it. -/
theorem ofSource_eq_ok_iff {source : String} {p : Program} :
    ofSource source = .ok p ↔
      ∃ tokens, Scans source.toList (tokens.map word) ∧ Spells p.marks tokens ∧ p.Canonical ∧
        p.nesting ≤ Parse.nestingLimit := by
  constructor
  · intro h
    cases hScan : scan source with
    | error e =>
      rw [ofSource, hScan] at h
      cases h
    | ok tokens =>
      obtain ⟨front, e, rfl, hEnd, hFront, hScans⟩ := scans_of_scan hScan
      have hParse : (ofTokens (front ++ [e])).mapError Error.parse = .ok p := by
        rw [ofSource, hScan] at h
        exact h
      cases hTokens : ofTokens (front ++ [e]) with
      | error cause =>
        rw [hTokens] at hParse
        cases hParse
      | ok program =>
        rw [hTokens] at hParse
        cases hParse
        exact ⟨front, hScans, (ofTokens_eq_ok_iff hFront hEnd).mp hTokens⟩
  · rintro ⟨tokens, hScans, hSpells, hFits⟩
    obtain ⟨front, e, hScan, hEnd, hWords⟩ := scan_of_scans hScans
    have hSpells := hSpells.of_words_eq hWords.symm
    have hFront := hSpells.isEof_eq_false (kind_ne_eof_of_all p)
    rw [ofSource, hScan]
    show (ofTokens (front ++ [e])).mapError Error.parse = .ok p
    rw [(ofTokens_eq_ok_iff hFront hEnd).mpr ⟨hSpells, hFits⟩]
    rfl

/-- Two sources, each on lines of its own, are read as the one program behind the other. -/
theorem ofSource_join {source source' : String} {p p' : Program} (h : ofSource source = .ok p)
    (h' : ofSource source' = .ok p') : ofSource (source ++ "\n" ++ source') = .ok (p ++ p') := by
  obtain ⟨tokens, hScans, hSpells, hCanonical, hShallow⟩ := ofSource_eq_ok_iff.mp h
  obtain ⟨tokens', hScans', hSpells', hCanonical', hShallow'⟩ := ofSource_eq_ok_iff.mp h'
  refine ofSource_eq_ok_iff.mpr ⟨tokens ++ tokens', ?_, ?_, ?_, ?_⟩
  · have hText : (source ++ "\n" ++ source').toList = source.toList ++ '\n' :: source'.toList := by
      simp
    rw [hText, List.map_append]
    exact hScans.join hScans'
  · rw [marks, marksOfAll_append]
    exact List.rel_append hSpells hSpells'
  · exact canonicalAll_append hCanonical hCanonical'
  · rw [nesting, nestingOfAll_append]
    exact Nat.max_le.mpr ⟨hShallow, hShallow'⟩

end Program

end Abacus
