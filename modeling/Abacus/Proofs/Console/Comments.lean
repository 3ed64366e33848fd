import Abacus.Proofs.Console.Entries
import Abacus.Proofs.Token.Lines

/-! The comment at the end of an entry.  The console finds it by its text: the first two slashes of
the last line.  The scanner comes to it behind the last token of the line, so without the comment it
gives the same tokens, or the same error. -/

namespace Abacus

open Text Token

/-! ### A comment behind a text -/

namespace Token

theorem separates_slash : Separates '/' := by
  refine ⟨?_, ?_, ?_⟩ <;> decide +kernel

theorem getLast?_ne_of_append {front back : List Char} {c : Char}
    (h : (front ++ back).getLast? ≠ some c) : back.getLast? ≠ some c := by
  intro hLast
  apply h
  rw [List.getLast?_append, hLast, Option.some_or]

section Comment

variable {body : List Char} (inLine : '\n' ∉ body)

include inLine

theorem cutLayout_comment (inComment : Bool) :
    (cutLayout inComment ('/' :: '/' :: body)).2 = [] := by
  have hBody : (cutLayout true body).2 = [] := by
    have hCut := cutLayout_true_append inLine []
    rw [List.append_nil] at hCut
    rw [hCut]
    rfl
  have hSlash : isBlank '/' = false := by decide
  cases inComment <;> simp [cutLayout, hSlash, hBody]

/-- Layout in front of a comment, in a text that does not end in a slash. -/
theorem cutLayout_append_comment {text : List Char} (h : text.getLast? ≠ some '/')
    (inComment : Bool) :
    (cutLayout inComment (text ++ '/' :: '/' :: body)).2 =
      if (cutLayout inComment text).2 = [] then []
      else (cutLayout inComment text).2 ++ '/' :: '/' :: body := by
  induction text generalizing inComment with
  | nil => exact cutLayout_comment inLine inComment
  | cons c rest ih =>
    have hRest : rest.getLast? ≠ some '/' := by
      rw [← List.singleton_append] at h
      exact getLast?_ne_of_append h
    -- The slash at the end of a text would begin the comment one character earlier.
    have hSlashes : (c == '/' && (rest ++ '/' :: '/' :: body).head? == some '/') =
        (c == '/' && rest.head? == some '/') := by
      cases rest with
      | nil =>
        have hc : c ≠ '/' := fun hc => h (congrArg some hc)
        simp [hc]
      | cons d rest => rfl
    simp only [List.cons_append, cutLayout, hSlashes]
    split
    · exact ih hRest _
    · split
      · exact ih hRest _
      · split
        · exact ih hRest _
        · simp

namespace Stream

theorem Calls.followedBy_comment {s : Stream} {items : List Item} {eof : Token}
    (h : s.Calls items eof) (hEnd : s.rest.getLast? ≠ some '/') :
    ∃ eof', (s.followedBy ('/' :: '/' :: body)).Calls items eof' := by
  induction h with
  | @done s after token step isEof =>
    have layout : (cutLayout false s.rest).2 = [] := by
      rcases next_eq_ok step with ⟨-, layout⟩ | ⟨_, _, _, inside, _⟩
      · exact layout
      · cases isEof.symm.trans inside
    have layout' := cutLayout_append_comment inLine hEnd false
    rw [if_pos layout] at layout'
    obtain ⟨eof', after', step', isEof'⟩ :
        ∃ eof' after', (s.followedBy ('/' :: '/' :: body)).next = (.ok eof', after') ∧
          eof'.isEof = true := next_of_layout layout'
    exact ⟨eof', .done step' isEof'⟩
  | @more s after item items eof step inside _ ih =>
    have ahead := ahead_of_next step inside
    have left := cutLayout_append_comment inLine hEnd false
    rw [if_neg ahead] at left
    have cut := cutLayout_eq (by rw [← List.append_assoc, cutLayout_append]) left
    have step' := next_followedBy separates_slash ahead cut
    rw [step] at step'
    have hEnd' : after.rest.getLast? ≠ some '/' := by
      rcases s.next_cases with ⟨_, next, -⟩ | ⟨_, _, _, next, -, whole, -⟩
      · rw [step] at next
        cases next
        cases inside
      · rw [step] at next
        cases next
        rw [whole] at hEnd
        exact getLast?_ne_of_append (getLast?_ne_of_append hEnd)
    obtain ⟨eof', calls⟩ := ih hEnd'
    exact ⟨eof', .more step' inside calls⟩

end Stream

end Comment

end Token

namespace Console

/-! ### The last line -/

/-- A line has no comment, or two slashes follow its code, and the code does not end in a slash. -/
theorem uncommented_cases (line : List Char) :
    uncommented line = line ∨ ∃ body, line = uncommented line ++ '/' :: '/' :: body ∧
      (uncommented line).getLast? ≠ some '/' := by
  induction line with
  | nil => exact .inl rfl
  | cons c rest ih =>
    rw [uncommented]
    split
    · next slashes =>
      simp only [Bool.and_eq_true, beq_iff_eq, List.head?_eq_some_iff] at slashes
      obtain ⟨rfl, body, rfl⟩ := slashes
      exact .inr ⟨body, rfl, by simp⟩
    · next noComment =>
      rcases ih with hSame | ⟨body, hRest, hLast⟩
      · exact .inl (by rw [hSame])
      · refine .inr ⟨body, congrArg (c :: ·) hRest, ?_⟩
        cases hKept : uncommented rest with
        | nil =>
          rw [hKept] at hRest
          rw [hRest] at noComment
          simpa using noComment
        | cons d kept => rwa [List.getLast?_cons_cons, ← hKept]

theorem no_slashes_uncommented (line : List Char) : ¬ ['/', '/'] <:+: uncommented line := by
  induction line with
  | nil => decide
  | cons c rest ih =>
    rw [uncommented]
    split
    · decide
    · next noComment =>
      rw [List.infix_cons_iff]
      rintro (hFirst | hBehind)
      · apply alone_uncommented noComment
        obtain ⟨kept, hKept⟩ := hFirst
        obtain ⟨rfl, hSecond⟩ := List.cons.inj hKept
        simp [← hSecond]
      · exact ih hBehind

theorem withoutComment_cases (text : List Char) :
    withoutComment text = text ∨ ∃ body, text = withoutComment text ++ '/' :: '/' :: body ∧
      '\n' ∉ body ∧ (withoutComment text).getLast? ≠ some '/' := by
  have hWhole := frontLines_append_lastLine text
  rcases uncommented_cases (lastLine text) with hSame | ⟨body, hLine, hLast⟩
  · left
    rw [withoutComment_eq, hSame, hWhole]
  · right
    refine ⟨body, ?_, ?_, ?_⟩
    · rw [withoutComment_eq, List.append_assoc, ← hLine, hWhole]
    · intro hMem
      apply lineFeed_not_mem_lastLine text
      rw [hLine]
      simp [hMem]
    · rw [withoutComment_eq, List.getLast?_append]
      rcases frontLines_cases text with hFront | ⟨above, hFront⟩
      · rw [hFront]
        simpa using hLast
      · rw [hFront, List.getLast?_concat]
        cases hKept : (uncommented (lastLine text)).getLast? with
        | none => decide
        | some d => rwa [hKept] at hLast

theorem lastLine_withoutComment (text : List Char) :
    lastLine (withoutComment text) = uncommented (lastLine text) :=
  lastLine_frontLines_append text (lineFeed_not_mem_uncommented text)

/-- The calls on a source without its comment are calls on the source. -/
theorem exists_calls_of_withoutComment {source code : String} {items : List Item} {eof : Token}
    (hCode : code.toList = withoutComment source.toList)
    (calls : (Stream.ofSource code).Calls items eof) :
    ∃ eof', (Stream.ofSource source).Calls items eof' := by
  rcases withoutComment_cases source.toList with hSame | ⟨body, hText, inLine, hLast⟩
  · have hSource : code = source := by rw [← String.toList_inj, hCode, hSame]
    exact ⟨eof, hSource ▸ calls⟩
  · have hRest : (Stream.ofSource code).rest = withoutComment source.toList := hCode
    have hWhole : (Stream.ofSource code).followedBy ('/' :: '/' :: body) =
        Stream.ofSource source := by
      rw [Stream.followedBy, hRest, ← hText]
      rfl
    rw [← hRest] at hLast
    rw [← hWhole]
    exact calls.followedBy_comment inLine hLast

/-- Without the comment in its last line a text has the same tokens at the same places, but for the
end token, which is at the end of what is left; or it has the same error.  What is left of the last
line has no two slashes behind each other. -/
theorem scan_without_comment (source : String) :
    ((∃ tokens : List Token,
        scan source =
          .ok (tokens ++ [⟨.eof, "", ⟨source.utf8ByteSize, source.utf8ByteSize⟩⟩]) ∧
        scan (String.ofList (withoutComment source.toList)) =
          .ok (tokens ++ [⟨.eof, "", ⟨byteLength (withoutComment source.toList),
            byteLength (withoutComment source.toList)⟩⟩])) ∨
      ∃ e, scan source = .error e ∧
        scan (String.ofList (withoutComment source.toList)) = .error e) ∧
    ¬ ['/', '/'] <:+: lastLine (withoutComment source.toList) := by
  refine ⟨?_, ?_⟩
  · have hCode : (String.ofList (withoutComment source.toList)).toList =
        withoutComment source.toList := String.toList_ofList
    generalize String.ofList (withoutComment source.toList) = code at hCode ⊢
    rw [← hCode]
    obtain ⟨items, eof, calls⟩ := (Stream.ofSource code).exists_calls
    obtain ⟨eof', calls'⟩ := exists_calls_of_withoutComment hCode calls
    have hEof := calls.covers.eof_eq
    have hEof' := calls'.covers.eof_eq
    simp only [Stream.ofSource, Nat.zero_add, byteLength_toList] at hEof hEof'
    rw [scan, scan, calls.tokens_eq, calls'.tokens_eq, hEof, hEof', byteLength_toList]
    cases items.mapM id with
    | error e => exact .inr ⟨e, rfl, rfl⟩
    | ok tokens => exact .inl ⟨tokens, rfl, rfl⟩
  · rw [lastLine_withoutComment]
    exact no_slashes_uncommented _

end Console

end Abacus
