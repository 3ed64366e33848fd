import Abacus.Proofs.Tree.Source

/-! How high the trees of programs are.  Checking and emission go into a tree one call for each
node, so its height is how deep their calls are nested.

The limit on nesting does not bound it: operators of one precedence group from the left, and a chain
of them is read on one level, however long it is.  Between two levels of nesting a way down a tree
goes through one chain for each precedence, so the limit and the length of the longest chain bound
the height together. -/

namespace Abacus

/-- The most expressions inside each other in an expression. -/
def Expr.height : Expr → Nat
  | literal _ | var _ => 1
  | group inner | unary _ inner => inner.height + 1
  | binary _ left right => max left.height right.height + 1

mutual

/-- The most statements and expressions inside each other in a statement. -/
def Stmt.height : Stmt → Nat
  | .declare _ _ | .input _ => 1
  | .assign _ value | .print value | .discard value => value.height + 1
  | .block body => heightOfAll body + 1
  | .ifThen test body | .loop test body => max test.height body.height + 1
  | .ifElse test body otherwise => max test.height (max body.height otherwise.height) + 1

def heightOfAll : List Stmt → Nat
  | [] => 0
  | first :: rest => max first.height (heightOfAll rest)

end

/-- The height of a program. -/
def Program.height (p : Program) : Nat := heightOfAll p

/-- The number of operands that operators of the precedence of the expression join.  Where it has no
operator, it is one operand. -/
def Expr.chainLength : Expr → Nat
  | binary op left _ => (if left.precedence = op.precedence then left.chainLength else 1) + 1
  | _ => 1

/-- The most operands that operators of one precedence join in an expression. -/
def Expr.longestChain : Expr → Nat
  | literal _ | var _ => 1
  | group inner | unary _ inner => inner.longestChain
  | binary op left right =>
    max (binary op left right).chainLength (max left.longestChain right.longestChain)

mutual

/-- The most operands that operators of one precedence join in the expressions of a statement. -/
def Stmt.longestChain : Stmt → Nat
  | .declare _ _ | .input _ => 0
  | .assign _ value | .print value | .discard value => value.longestChain
  | .block body => longestChainOfAll body
  | .ifThen test body | .loop test body => max test.longestChain body.longestChain
  | .ifElse test body otherwise =>
    max test.longestChain (max body.longestChain otherwise.longestChain)

def longestChainOfAll : List Stmt → Nat
  | [] => 0
  | first :: rest => max first.longestChain (longestChainOfAll rest)

end

/-- The most operands that operators of one precedence join in a program. -/
def Program.longestChain (p : Program) : Nat := longestChainOfAll p

/-! ### Chains inside trees -/

theorem Expr.chainLength_pos (e : Expr) : 0 < e.chainLength := by
  cases e <;> exact Nat.succ_pos _

theorem Expr.chainLength_le_height (e : Expr) : e.chainLength ≤ e.height := by
  induction e with
  | binary op left right ihLeft ihRight =>
    have hPos := left.chainLength_pos
    simp only [Expr.chainLength, Expr.height]
    split <;> omega
  | _ => exact Nat.succ_le_succ (Nat.zero_le _)

theorem Expr.longestChain_le_height (e : Expr) : e.longestChain ≤ e.height := by
  induction e with
  | literal value => exact Nat.le_refl _
  | var name => exact Nat.le_refl _
  | group inner ih => exact Nat.le_succ_of_le ih
  | unary op operand ih => exact Nat.le_succ_of_le ih
  | binary op left right ihLeft ihRight =>
    have hChain := (binary op left right).chainLength_le_height
    simp only [Expr.longestChain, Expr.height] at hChain ⊢
    omega

mutual

theorem Stmt.longestChain_le_height : (s : Stmt) → s.longestChain ≤ s.height
  | .declare _ _ | .input _ => Nat.zero_le _
  | .assign _ value | .print value | .discard value =>
    Nat.le_succ_of_le value.longestChain_le_height
  | .block body => Nat.le_succ_of_le (longestChainOfAll_le_height body)
  | .ifThen test body | .loop test body => by
    have hTest := test.longestChain_le_height
    have hBody := Stmt.longestChain_le_height body
    simp only [Stmt.longestChain, Stmt.height]
    omega
  | .ifElse test body otherwise => by
    have hTest := test.longestChain_le_height
    have hBody := Stmt.longestChain_le_height body
    have hOtherwise := Stmt.longestChain_le_height otherwise
    simp only [Stmt.longestChain, Stmt.height]
    omega

theorem longestChainOfAll_le_height :
    (body : List Stmt) → longestChainOfAll body ≤ heightOfAll body
  | [] => Nat.le_refl _
  | first :: rest => by
    have hFirst := Stmt.longestChain_le_height first
    have hRest := longestChainOfAll_le_height rest
    simp only [longestChainOfAll, heightOfAll]
    omega

end

/-! ### Trees of chains -/

theorem Expr.chainLength_le_longestChain (e : Expr) : e.chainLength ≤ e.longestChain := by
  induction e with
  | literal value => exact Nat.le_refl _
  | var name => exact Nat.le_refl _
  | group inner ih => exact Nat.le_trans inner.chainLength_pos ih
  | unary op operand ih => exact Nat.le_trans operand.chainLength_pos ih
  | binary op left right ihLeft ihRight => exact Nat.le_max_left _ _

theorem Expr.precedence_le (e : Expr) : e.precedence ≤ 5 := by
  cases e with
  | binary op left right =>
    show op.precedence ≤ 5
    cases op <;> decide
  | unary op operand => exact Nat.le_succ 4
  | _ => exact Nat.le_refl 5

/-- The chains that a way down may still go through: six on each level of nesting, less those of the
precedences that are passed. -/
def Expr.room (e : Expr) : Nat := 6 * e.nesting + 5 - e.precedence

variable {n : Nat}

/-- With one more chain for its own one, the room bounds the height. -/
theorem Expr.height_le_of_room_lt {e : Expr} {room : Nat}
    (h : e.height ≤ e.chainLength + n * e.room) (hChain : e.longestChain ≤ n)
    (hRoom : e.room < room) : e.height ≤ n * room := by
  calc e.height ≤ e.chainLength + n * e.room := h
    _ ≤ n + n * e.room :=
      Nat.add_le_add_right (Nat.le_trans e.chainLength_le_longestChain hChain) _
    _ = n * (e.room + 1) := by rw [Nat.mul_succ, Nat.add_comm]
    _ ≤ n * room := Nat.mul_le_mul_left n hRoom

/-- Each chain on a way down adds its operands. -/
theorem Expr.height_le {e : Expr} (h : e.Canonical) (hChain : e.longestChain ≤ n) :
    e.height ≤ e.chainLength + n * e.room := by
  induction e with
  | literal value => exact Nat.le_add_right _ _
  | var name => exact Nat.le_add_right _ _
  | group inner ih =>
    have hRoom : inner.room < (group inner).room := by
      simp only [room, nesting, precedence]
      omega
    have hInner := height_le_of_room_lt (ih h hChain) hChain hRoom
    simp only [height, chainLength]
    omega
  | unary op operand ih =>
    obtain ⟨-, -, hOperand⟩ := h
    have hRoom : operand.room < (unary op operand).room := by
      simp only [room, nesting, precedence]
      omega
    have hInner := height_le_of_room_lt (ih hOperand hChain) hChain hRoom
    simp only [height, chainLength]
    omega
  | binary op left right ihLeft ihRight =>
    obtain ⟨hBinds, hCloser, hLeft, hRight⟩ := h
    obtain ⟨-, hParts⟩ := Nat.max_le.mp hChain
    obtain ⟨hLeftChain, hRightChain⟩ := Nat.max_le.mp hParts
    have hLength := (binary op left right).chainLength_pos
    have hWhole : (binary op left right).room =
        6 * max left.nesting right.nesting + 5 - op.precedence := rfl
    have hRightHeight : right.height ≤ n * (binary op left right).room := by
      refine height_le_of_room_lt (ihRight hRight hRightChain) hRightChain ?_
      have hMost := right.precedence_le
      rw [hWhole, room]
      omega
    have hLeftHeight : left.height + 1 ≤
        (binary op left right).chainLength + n * (binary op left right).room := by
      by_cases hSame : left.precedence = op.precedence
      · -- the chain of the left operand goes on here
        have hRoom : left.room ≤ (binary op left right).room := by
          rw [hWhole, room, hSame]
          omega
        have hMore := Nat.mul_le_mul_left n hRoom
        have hOperand := ihLeft hLeft hLeftChain
        rw [chainLength, if_pos hSame]
        omega
      · have hRoom : left.room < (binary op left right).room := by
          have hMost := left.precedence_le
          rw [hWhole, room]
          omega
        have hOperand := height_le_of_room_lt (ihLeft hLeft hLeftChain) hLeftChain hRoom
        omega
    rw [height]
    omega

theorem Expr.height_le_mul {e : Expr} (h : e.Canonical) (hChain : e.longestChain ≤ n) :
    e.height ≤ n * (6 * e.nesting + 6) := by
  refine height_le_of_room_lt (height_le h hChain) hChain ?_
  rw [room]
  omega

theorem succ_le_mul {height nesting : Nat} (hOne : 0 < n) (h : height ≤ n * (6 * nesting + 6)) :
    height + 1 ≤ n * (6 * (nesting + 1) + 6) := by
  calc height + 1 ≤ n * (6 * nesting + 6) + n := Nat.add_le_add h hOne
    _ = n * (6 * nesting + 6 + 1) := (Nat.mul_succ ..).symm
    _ ≤ n * (6 * (nesting + 1) + 6) := Nat.mul_le_mul_left n (by omega)

theorem max_le_mul {height height' nesting nesting' : Nat} (h : height ≤ n * (6 * nesting + 6))
    (h' : height' ≤ n * (6 * nesting' + 6)) :
    max height height' ≤ n * (6 * max nesting nesting' + 6) := by
  refine Nat.max_le.mpr ⟨Nat.le_trans h ?_, Nat.le_trans h' ?_⟩
  · exact Nat.mul_le_mul_left n (by omega)
  · exact Nat.mul_le_mul_left n (by omega)

mutual

theorem Stmt.height_le (hOne : 0 < n) :
    (s : Stmt) → s.Canonical → s.longestChain ≤ n → s.height ≤ n * (6 * s.nesting + 6)
  | .declare _ _, _, _ | .input _, _, _ => Nat.mul_pos hOne (Nat.succ_pos _)
  | .assign _ _, h, hChain | .print _, h, hChain | .discard _, h, hChain =>
    succ_le_mul hOne (Expr.height_le_mul h hChain)
  | .block body, h, hChain => succ_le_mul hOne (heightOfAll_le hOne body h hChain)
  | .ifThen test body, h, hChain | .loop test body, h, hChain => by
    obtain ⟨hTestChain, hBodyChain⟩ := Nat.max_le.mp hChain
    have hTest := Expr.height_le_mul h.1 hTestChain
    have hBody := Stmt.height_le hOne body h.2.2 hBodyChain
    exact succ_le_mul hOne (max_le_mul hTest hBody)
  | .ifElse test body otherwise, h, hChain => by
    obtain ⟨hTest, -, hBody, -, -, hOtherwise⟩ := h
    obtain ⟨hTestChain, hParts⟩ := Nat.max_le.mp hChain
    obtain ⟨hBodyChain, hOtherwiseChain⟩ := Nat.max_le.mp hParts
    have hTest := Expr.height_le_mul hTest hTestChain
    have hBody := Stmt.height_le hOne body hBody hBodyChain
    have hOtherwise := Stmt.height_le hOne otherwise hOtherwise hOtherwiseChain
    exact succ_le_mul hOne (max_le_mul hTest (max_le_mul hBody hOtherwise))

theorem heightOfAll_le (hOne : 0 < n) :
    (body : List Stmt) → canonicalAll body → longestChainOfAll body ≤ n →
      heightOfAll body ≤ n * (6 * nestingOfAll body + 6)
  | [], _, _ => Nat.zero_le _
  | first :: rest, h, hChain => by
    obtain ⟨hFirstChain, hRestChain⟩ := Nat.max_le.mp hChain
    have hFirst := Stmt.height_le hOne first h.1 hFirstChain
    have hRest := heightOfAll_le hOne rest h.2 hRestChain
    exact max_le_mul hFirst hRest

end

/-! ### Long chains -/

/-- A sum of ones, with the given number of plus signs. -/
def onesSum : Nat → Expr
  | 0 => .literal 1
  | n + 1 => .binary .add (onesSum n) (.literal 1)

/-- The statement that prints a sum of ones. -/
def onesPrint (n : Nat) : Program := [.print (onesSum n)]

def onesSumTokens : Nat → List Token
  | 0 => [⟨.number, "1", ⟨0, 0⟩⟩]
  | n + 1 => onesSumTokens n ++ [⟨.plus, "+", ⟨0, 0⟩⟩, ⟨.number, "1", ⟨0, 0⟩⟩]

/-- The tokens of `print 1+1+1;`, with the given number of plus signs. -/
def onesPrintTokens (n : Nat) : List Token :=
  ⟨.printWord, "print", ⟨0, 0⟩⟩ :: (onesSumTokens n ++ [⟨.semicolon, ";", ⟨0, 0⟩⟩])

theorem spells_onesSum (n : Nat) : Spells (onesSum n).marks (onesSumTokens n) := by
  have hOne : Number.read? "1" = some 1 := by decide +kernel
  induction n with
  | zero => exact .cons ⟨rfl, hOne⟩ .nil
  | succ n ih => exact List.rel_append ih (.cons rfl (.cons ⟨rfl, hOne⟩ .nil))

theorem canonical_onesSum (n : Nat) : (onesSum n).Canonical ∧ 2 ≤ (onesSum n).precedence := by
  induction n with
  | zero => exact ⟨trivial, by decide⟩
  | succ n ih => exact ⟨⟨ih.2, by decide, ih.1, trivial⟩, Nat.le_refl 2⟩

theorem nesting_onesSum (n : Nat) : (onesSum n).nesting = 0 := by
  induction n with
  | zero => rfl
  | succ n ih => simp only [onesSum, Expr.nesting, ih, Nat.max_self]

theorem height_onesSum (n : Nat) : (onesSum n).height = n + 1 := by
  induction n with
  | zero => rfl
  | succ n ih =>
    simp only [onesSum, Expr.height, ih]
    omega

theorem nesting_onesPrint (n : Nat) : (onesPrint n).nesting = 1 := by
  simp only [onesPrint, Program.nesting, nestingOfAll, Stmt.nesting, nesting_onesSum]
  rfl

theorem height_onesPrint (n : Nat) : (onesPrint n).height = n + 2 := by
  simp only [onesPrint, Program.height, heightOfAll, Stmt.height, height_onesSum]
  omega

theorem ofTokens_onesPrint (n : Nat) :
    Program.ofTokens (onesPrintTokens n ++ [⟨.eof, "", ⟨0, 0⟩⟩]) = .ok (onesPrint n) := by
  have hSpells : Spells (onesPrint n).marks (onesPrintTokens n) := by
    have hLine : Spells ((onesSum n).marks ++ [.word .semicolon])
        (onesSumTokens n ++ [⟨.semicolon, ";", ⟨0, 0⟩⟩]) :=
      List.rel_append (spells_onesSum n) (.cons rfl .nil)
    simp only [onesPrint, Program.marks, marksOfAll, Stmt.marks, List.append_nil]
    exact .cons rfl hLine
  refine (Program.ofTokens_eq_ok_iff (hSpells.isEof_eq_false (kind_ne_eof_of_all _)) rfl).mpr
    ⟨hSpells, ⟨(canonical_onesSum n).1, trivial⟩, ?_⟩
  rw [nesting_onesPrint]
  decide

/-- There is no bound on the height of the trees that are read: for each there are tokens that are
read as a program beyond it. -/
theorem height_unbounded :
    ¬ ∃ bound, ∀ (tokens : List Token) (p : Program),
      Program.ofTokens tokens = .ok p → p.height ≤ bound := by
  rintro ⟨bound, hBound⟩
  have hHeight := hBound _ _ (ofTokens_onesPrint bound)
  rw [height_onesPrint] at hHeight
  omega

/-- A program that is read from tokens, with an end token among them or without one, is canonical
and nested within the limit. -/
theorem Program.fits_of_ofTokens {tokens : List Token} {p : Program} (h : ofTokens tokens = .ok p) :
    p.Canonical ∧ p.nesting ≤ Parse.nestingLimit := by
  have hFront : ∀ t ∈ tokens.takeWhile (!·.isEof), t.isEof = false := by
    intro t hMem
    simpa using List.mem_takeWhile_imp hMem
  have hStop : (Cursor.ofTokens tokens).stop.isEof = true :=
    beq_iff_eq.mpr (Cursor.stop_ofTokens tokens)
  -- What is read is the tokens before the first end token, with an end token behind them.
  have hCursor : Cursor.ofTokens (tokens.takeWhile (!·.isEof) ++ [(Cursor.ofTokens tokens).stop]) =
      Cursor.ofTokens tokens := Cursor.ofTokens_append hFront hStop
  rw [ofTokens, ← hCursor] at h
  exact ((ofTokens_eq_ok_iff hFront hStop).mp h).2

/-- What is read is at least as high as its longest chain of operators is long, and higher only by
a factor that the limit on nesting bounds. -/
theorem height_bounded_by_chains (tokens : List Token) (p : Program)
    (h : Program.ofTokens tokens = .ok p) :
    p.longestChain ≤ p.height ∧
      p.height ≤ max 1 p.longestChain * (6 * Parse.nestingLimit + 6) := by
  obtain ⟨hCanonical, hNesting⟩ := Program.fits_of_ofTokens h
  refine ⟨longestChainOfAll_le_height p, ?_⟩
  calc p.height ≤ max 1 p.longestChain * (6 * p.nesting + 6) :=
        heightOfAll_le (Nat.le_max_left ..) p hCanonical (Nat.le_max_right ..)
    _ ≤ max 1 p.longestChain * (6 * Parse.nestingLimit + 6) :=
        Nat.mul_le_mul_left _ (by omega)

theorem height_bounded_by_chains_onesPrint :
    Program.ofTokens (onesPrintTokens 999 ++ [⟨.eof, "", ⟨0, 0⟩⟩]) = .ok (onesPrint 999) ∧
      (onesPrint 999).longestChain ≤ (onesPrint 999).height ∧
      (onesPrint 999).height ≤
        max 1 (onesPrint 999).longestChain * (6 * Parse.nestingLimit + 6) :=
  ⟨ofTokens_onesPrint 999, height_bounded_by_chains _ _ (ofTokens_onesPrint 999)⟩

end Abacus
