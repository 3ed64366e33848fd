import Abacus.Text.Basic

/-! Layout: the white space and the comments between tokens. -/

namespace Abacus.Token

open Text

/-- The text cut behind its layout: white space and comments, each from two slashes up to and
without the next line feed.  With `inComment` the text starts inside a comment. -/
def cutLayout (inComment : Bool) : List Char → List Char × List Char
  | [] => ([], [])
  | c :: rest =>
    if inComment then
      let (layout, ahead) := cutLayout (c != '\n') rest
      (c :: layout, ahead)
    else if isBlank c then
      let (layout, ahead) := cutLayout false rest
      (c :: layout, ahead)
    else if c == '/' && rest.head? == some '/' then
      let (layout, ahead) := cutLayout true rest
      (c :: layout, ahead)
    else ([], c :: rest)

/-- Nothing is lost at the cut. -/
theorem cutLayout_append (inComment : Bool) (text : List Char) :
    (cutLayout inComment text).1 ++ (cutLayout inComment text).2 = text := by
  induction text generalizing inComment with
  | nil => rfl
  | cons c rest ih =>
    simp only [cutLayout]
    split
    · simp [ih]
    · split
      · simp [ih]
      · split
        · simp [ih]
        · rfl

theorem length_cutLayout_le (inComment : Bool) (text : List Char) :
    (cutLayout inComment text).2.length ≤ text.length := by
  have h := congrArg List.length (cutLayout_append inComment text)
  rw [List.length_append] at h
  omega

end Abacus.Token
