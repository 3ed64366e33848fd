import Abacus.Proofs.Tree.Grammar

/-! How deep the parts of a tree are nested, as a number for the whole and as the list of the places
where a level begins.  The list is in reading order, so of the places on one level its first is the
leftmost. -/

namespace Abacus

/-- The levels inside an expression: groups and operands of a minus are one level deeper. -/
def Expr.nesting : Expr → Nat
  | literal _ | var _ => 0
  | group inner => inner.nesting + 1
  | unary _ operand => operand.nesting + 1
  | binary _ left right => max left.nesting right.nesting

mutual

/-- The levels of a statement.  A declaration has none; any other counts itself. -/
def Stmt.nesting : Stmt → Nat
  | .declare _ _ => 0
  | .input _ => 1
  | .assign _ value | .print value | .discard value => value.nesting + 1
  | .block body => nestingOfAll body + 1
  | .ifThen test body | .loop test body => max test.nesting body.nesting + 1
  | .ifElse test body otherwise =>
    max test.nesting (max body.nesting otherwise.nesting) + 1

def nestingOfAll : List Stmt → Nat
  | [] => 0
  | first :: rest => max first.nesting (nestingOfAll rest)

end

theorem nestingOfAll_append (front back : List Stmt) :
    nestingOfAll (front ++ back) = max (nestingOfAll front) (nestingOfAll back) := by
  induction front with
  | nil => exact (Nat.zero_max _).symm
  | cons first front ih => rw [List.cons_append, nestingOfAll, ih, nestingOfAll, Nat.max_assoc]

/-- The levels of a program. -/
def Program.nesting (p : Program) : Nat := nestingOfAll p

/-- Where a level of nesting begins: its number, and how many tokens stand before it. -/
structure Opening where
  level : Nat
  offset : Nat
deriving DecidableEq, Repr

/-- The insides of groups and the operands of a minus, in an expression on the given level that
begins behind `offset` tokens. -/
def Expr.openings : Expr → (level offset : Nat) → List Opening
  | literal _, _, _ | var _, _, _ => []
  | group inner, level, offset | unary _ inner, level, offset =>
    ⟨level + 1, offset + 1⟩ :: inner.openings (level + 1) (offset + 1)
  | binary _ left right, level, offset =>
    left.openings level offset ++ right.openings level (offset + left.marks.length + 1)

mutual

/-- The levels that begin in a statement.  One begins with any statement but a declaration. -/
def Stmt.openings : Stmt → (level offset : Nat) → List Opening
  | .declare _ _, _, _ => []
  | .assign _ value, level, offset =>
    ⟨level + 1, offset⟩ :: value.openings (level + 1) (offset + 2)
  | .print value, level, offset =>
    ⟨level + 1, offset⟩ :: value.openings (level + 1) (offset + 1)
  | .input _, level, offset => [⟨level + 1, offset⟩]
  | .discard value, level, offset => ⟨level + 1, offset⟩ :: value.openings (level + 1) offset
  | .block body, level, offset =>
    ⟨level + 1, offset⟩ :: openingsOfAll body (level + 1) (offset + 1)
  | .ifThen test body, level, offset | .loop test body, level, offset =>
    ⟨level + 1, offset⟩ ::
      (test.openings (level + 1) (offset + 2) ++
        body.openings (level + 1) (offset + 2 + test.marks.length + 1))
  | .ifElse test body otherwise, level, offset =>
    ⟨level + 1, offset⟩ ::
      (test.openings (level + 1) (offset + 2) ++
        (body.openings (level + 1) (offset + 2 + test.marks.length + 1) ++
          otherwise.openings (level + 1)
            (offset + 2 + test.marks.length + 1 + body.marks.length + 1)))

def openingsOfAll : List Stmt → (level offset : Nat) → List Opening
  | [], _, _ => []
  | first :: rest, level, offset =>
    first.openings level offset ++ openingsOfAll rest level (offset + first.marks.length)

end

/-- The levels that begin in a program, whose own statements are on level 1. -/
def Program.openings (p : Program) : List Opening := openingsOfAll p 0 0

/-! ### Reading order -/

/-- Openings in reading order, none beyond a level or outside a range of offsets. -/
structure Ordered (openings : List Opening) (deepest first last : Nat) : Prop where
  sorted : openings.Pairwise (·.offset ≤ ·.offset)
  level_le : ∀ o ∈ openings, o.level ≤ deepest
  offset_ge : ∀ o ∈ openings, first ≤ o.offset
  offset_le : ∀ o ∈ openings, o.offset ≤ last

namespace Ordered

variable {openings openings' : List Opening} {deepest deepest' deepest'' : Nat}
  {first first' first'' last last' last'' : Nat}

theorem nil : Ordered [] deepest first last := ⟨.nil, nofun, nofun, nofun⟩

theorem append (h : Ordered openings deepest first last)
    (h' : Ordered openings' deepest' first' last') (hBetween : last ≤ first')
    (hDeepest : deepest ≤ deepest'' ∧ deepest' ≤ deepest'')
    (hFirst : first'' ≤ first ∧ first'' ≤ first') (hLast : last ≤ last'' ∧ last' ≤ last'') :
    Ordered (openings ++ openings') deepest'' first'' last'' where
  sorted := by
    refine List.pairwise_append.mpr ⟨h.sorted, h'.sorted, fun o hMem o' hMem' => ?_⟩
    exact Nat.le_trans (h.offset_le o hMem) (Nat.le_trans hBetween (h'.offset_ge o' hMem'))
  level_le := List.forall_mem_append.mpr
    ⟨fun o hMem => Nat.le_trans (h.level_le o hMem) hDeepest.1,
      fun o hMem => Nat.le_trans (h'.level_le o hMem) hDeepest.2⟩
  offset_ge := List.forall_mem_append.mpr
    ⟨fun o hMem => Nat.le_trans hFirst.1 (h.offset_ge o hMem),
      fun o hMem => Nat.le_trans hFirst.2 (h'.offset_ge o hMem)⟩
  offset_le := List.forall_mem_append.mpr
    ⟨fun o hMem => Nat.le_trans (h.offset_le o hMem) hLast.1,
      fun o hMem => Nat.le_trans (h'.offset_le o hMem) hLast.2⟩

theorem singleton {o : Opening} (hLevel : o.level ≤ deepest) (hFirst : first ≤ o.offset)
    (hLast : o.offset ≤ last) : Ordered [o] deepest first last where
  sorted := List.pairwise_singleton _ _
  level_le := List.forall_mem_singleton.mpr hLevel
  offset_ge := List.forall_mem_singleton.mpr hFirst
  offset_le := List.forall_mem_singleton.mpr hLast

theorem cons {o : Opening} (h : Ordered openings deepest first last)
    (hLevel : deepest ≤ deepest' ∧ o.level ≤ deepest')
    (hFirst : first' ≤ o.offset ∧ o.offset ≤ first) (hLast : last ≤ last' ∧ o.offset ≤ last') :
    Ordered (o :: openings) deepest' first' last' :=
  append (singleton hLevel.2 (Nat.le_refl _) (Nat.le_refl _)) h hFirst.2
    ⟨Nat.le_refl _, hLevel.1⟩ ⟨hFirst.1, Nat.le_trans hFirst.1 hFirst.2⟩ ⟨hLast.2, hLast.1⟩

/-- The first opening on a level is the leftmost. -/
theorem offset_le_of_find? (h : Ordered openings deepest first last) {o o' : Opening} {level : Nat}
    (hFind : openings.find? (·.level == level) = some o) (hMem : o' ∈ openings)
    (hLevel : o'.level = level) : o.offset ≤ o'.offset := by
  obtain ⟨-, before, after, rfl, hBefore⟩ := List.find?_eq_some_iff_append.mp hFind
  rcases List.mem_append.mp hMem with hMem | hMem
  · have hNot := hBefore o' hMem
    simp [hLevel] at hNot
  · rcases List.mem_cons.mp hMem with rfl | hMem
    · exact Nat.le_refl _
    · have hSorted := (List.pairwise_append.mp h.sorted).2.1
      exact List.rel_of_pairwise_cons hSorted hMem

end Ordered

theorem Expr.ordered_openings (e : Expr) (level offset : Nat) :
    Ordered (e.openings level offset) (level + e.nesting) offset (offset + e.marks.length) := by
  induction e generalizing level offset with
  | literal value => exact .nil
  | var name => exact .nil
  | group inner ih =>
    simp only [Expr.nesting, Expr.marks, parenthesized, List.length_cons, List.length_append]
    refine (ih (level + 1) (offset + 1)).cons ?_ ?_ ?_ <;> dsimp only <;> omega
  | unary op operand ih =>
    simp only [Expr.nesting, Expr.marks, List.length_cons]
    refine (ih (level + 1) (offset + 1)).cons ?_ ?_ ?_ <;> dsimp only <;> omega
  | binary op left right ihLeft ihRight =>
    simp only [Expr.nesting, Expr.marks, List.length_append, List.length_cons]
    refine .append (ihLeft level offset) (ihRight level _) ?_ ?_ ?_ ?_ <;> omega

mutual

theorem Stmt.ordered_openings (s : Stmt) (level offset : Nat) :
    Ordered (s.openings level offset) (level + s.nesting) offset (offset + s.marks.length) := by
  match s with
  | .declare type name => exact .nil
  | .assign name value =>
    simp only [Stmt.nesting, Stmt.marks, List.length_cons, List.length_append]
    refine (value.ordered_openings _ _).cons ?_ ?_ ?_ <;> dsimp only <;> omega
  | .print value =>
    simp only [Stmt.nesting, Stmt.marks, List.length_cons, List.length_append]
    refine (value.ordered_openings _ _).cons ?_ ?_ ?_ <;> dsimp only <;> omega
  | .input name =>
    exact .singleton (Nat.le_refl _) (Nat.le_refl _) (Nat.le_add_right _ _)
  | .discard value =>
    simp only [Stmt.nesting, Stmt.marks, List.length_append]
    refine (value.ordered_openings _ _).cons ?_ ?_ ?_ <;> dsimp only <;> omega
  | .block body =>
    simp only [Stmt.nesting, Stmt.marks, List.length_cons, List.length_append]
    refine (ordered_openingsOfAll body _ _).cons ?_ ?_ ?_ <;> dsimp only <;> omega
  | .ifThen test body | .loop test body =>
    have hParts : Ordered
        (test.openings (level + 1) (offset + 2) ++
          body.openings (level + 1) (offset + 2 + test.marks.length + 1))
        (level + 1 + max test.nesting body.nesting) (offset + 1)
        (offset + test.marks.length + body.marks.length + 3) := by
      refine .append (test.ordered_openings _ _) (body.ordered_openings _ _) ?_ ?_ ?_ ?_ <;> omega
    simp only [Stmt.nesting, Stmt.marks, parenthesized, List.length_cons, List.length_append]
    refine hParts.cons ?_ ?_ ?_ <;> dsimp only <;> omega
  | .ifElse test body otherwise =>
    have hBranches : Ordered
        (body.openings (level + 1) (offset + 2 + test.marks.length + 1) ++
          otherwise.openings (level + 1)
            (offset + 2 + test.marks.length + 1 + body.marks.length + 1))
        (level + 1 + max body.nesting otherwise.nesting) (offset + test.marks.length + 3)
        (offset + test.marks.length + body.marks.length + otherwise.marks.length + 4) := by
      refine .append (body.ordered_openings _ _) (otherwise.ordered_openings _ _) ?_ ?_ ?_ ?_ <;>
        omega
    have hParts : Ordered
        (test.openings (level + 1) (offset + 2) ++
          (body.openings (level + 1) (offset + 2 + test.marks.length + 1) ++
            otherwise.openings (level + 1)
              (offset + 2 + test.marks.length + 1 + body.marks.length + 1)))
        (level + 1 + max test.nesting (max body.nesting otherwise.nesting)) (offset + 1)
        (offset + test.marks.length + body.marks.length + otherwise.marks.length + 4) := by
      refine .append (test.ordered_openings _ _) hBranches ?_ ?_ ?_ ?_ <;> omega
    simp only [Stmt.nesting, Stmt.marks, parenthesized, List.length_cons, List.length_append]
    refine hParts.cons ?_ ?_ ?_ <;> dsimp only <;> omega

theorem ordered_openingsOfAll (body : List Stmt) (level offset : Nat) :
    Ordered (openingsOfAll body level offset) (level + nestingOfAll body) offset
      (offset + (marksOfAll body).length) := by
  match body with
  | [] => exact .nil
  | first :: rest =>
    simp only [nestingOfAll, marksOfAll, List.length_append]
    refine .append (first.ordered_openings _ _) (ordered_openingsOfAll rest _ _) ?_ ?_ ?_ ?_ <;>
      omega

end

/-! ### Levels beyond a limit

Levels are numbered one by one on the way into a tree, so what is nested beyond a limit has a part
on the first level beyond it. -/

variable {limit : Nat}

theorem level_succ_le {level offset : Nat} {openings : List Opening} (hLevel : level ≤ limit)
    (h : ∀ o ∈ ⟨level + 1, offset⟩ :: openings, o.level ≠ limit + 1) :
    level + 1 ≤ limit ∧ ∀ o ∈ openings, o.level ≠ limit + 1 := by
  obtain ⟨hFirst, hOthers⟩ := List.forall_mem_cons.mp h
  dsimp only at hFirst
  exact ⟨by omega, hOthers⟩

theorem Expr.nesting_le (e : Expr) (level offset : Nat) (hLevel : level ≤ limit)
    (h : ∀ o ∈ e.openings level offset, o.level ≠ limit + 1) : level + e.nesting ≤ limit := by
  induction e generalizing level offset with
  | literal value => exact hLevel
  | var name => exact hLevel
  | group inner ih | unary _ inner ih =>
    obtain ⟨hLevel', hInner⟩ := level_succ_le hLevel h
    have hNesting := ih _ _ hLevel' hInner
    simp only [Expr.nesting]
    omega
  | binary op left right ihLeft ihRight =>
    obtain ⟨hLeft, hRight⟩ := List.forall_mem_append.mp h
    have hNestingLeft := ihLeft _ _ hLevel hLeft
    have hNestingRight := ihRight _ _ hLevel hRight
    simp only [Expr.nesting]
    omega

mutual

theorem Stmt.nesting_le (s : Stmt) (level offset : Nat) (hLevel : level ≤ limit)
    (h : ∀ o ∈ s.openings level offset, o.level ≠ limit + 1) : level + s.nesting ≤ limit := by
  match s with
  | .declare type name => exact hLevel
  | .input name => exact (level_succ_le hLevel h).1
  | .assign _ value | .print value | .discard value =>
    obtain ⟨hLevel', hValue⟩ := level_succ_le hLevel h
    have hNesting := value.nesting_le _ _ hLevel' hValue
    simp only [Stmt.nesting]
    omega
  | .block body =>
    obtain ⟨hLevel', hBody⟩ := level_succ_le hLevel h
    have hNesting := nestingOfAll_le body _ _ hLevel' hBody
    simp only [Stmt.nesting]
    omega
  | .ifThen test body | .loop test body =>
    obtain ⟨hLevel', hParts⟩ := level_succ_le hLevel h
    obtain ⟨hTest, hBody⟩ := List.forall_mem_append.mp hParts
    have hNestingTest := test.nesting_le _ _ hLevel' hTest
    have hNestingBody := body.nesting_le _ _ hLevel' hBody
    simp only [Stmt.nesting]
    omega
  | .ifElse test body otherwise =>
    obtain ⟨hLevel', hParts⟩ := level_succ_le hLevel h
    obtain ⟨hTest, hBranches⟩ := List.forall_mem_append.mp hParts
    obtain ⟨hBody, hOtherwise⟩ := List.forall_mem_append.mp hBranches
    have hNestingTest := test.nesting_le _ _ hLevel' hTest
    have hNestingBody := body.nesting_le _ _ hLevel' hBody
    have hNestingOtherwise := otherwise.nesting_le _ _ hLevel' hOtherwise
    simp only [Stmt.nesting]
    omega

theorem nestingOfAll_le (body : List Stmt) (level offset : Nat) (hLevel : level ≤ limit)
    (h : ∀ o ∈ openingsOfAll body level offset, o.level ≠ limit + 1) :
    level + nestingOfAll body ≤ limit := by
  match body with
  | [] => exact hLevel
  | first :: rest =>
    obtain ⟨hFirst, hRest⟩ := List.forall_mem_append.mp h
    have hNestingFirst := first.nesting_le _ _ hLevel hFirst
    have hNestingRest := nestingOfAll_le rest _ _ hLevel hRest
    simp only [nestingOfAll]
    omega

end

/-- A program is nested within a limit exactly if no part of it is on the first level beyond. -/
theorem Program.find?_openings_eq_none_iff {p : Program} :
    p.openings.find? (·.level == limit + 1) = none ↔ p.nesting ≤ limit := by
  constructor
  · intro h
    have hNone : ∀ o ∈ p.openings, o.level ≠ limit + 1 := by
      simpa using List.find?_eq_none.mp h
    have hNesting := nestingOfAll_le p 0 0 (Nat.zero_le limit) hNone
    rwa [Nat.zero_add] at hNesting
  · intro h
    refine List.find?_eq_none.mpr fun o hMem hBeyond => ?_
    have hLevel : o.level ≤ 0 + p.nesting := (ordered_openingsOfAll p 0 0).level_le o hMem
    have hSame : o.level = limit + 1 := eq_of_beq hBeyond
    omega

theorem Program.leftmost_of_find? {p : Program} {o : Opening} {level : Nat}
    (h : p.openings.find? (·.level == level) = some o) :
    ⟨level, o.offset⟩ ∈ p.openings ∧
      ∀ offset, ⟨level, offset⟩ ∈ p.openings → o.offset ≤ offset := by
  have hFound := List.find?_some h
  have hLevel : o.level = level := eq_of_beq hFound
  refine ⟨hLevel ▸ List.mem_of_find?_eq_some h, fun offset hMem => ?_⟩
  exact (ordered_openingsOfAll p 0 0).offset_le_of_find? h hMem rfl

end Abacus
