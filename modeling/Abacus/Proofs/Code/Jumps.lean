import Abacus.Proofs.Code.Layout

/-! The jumps in the code of a program.  Every index that emission closes holds an open jump.  In
the code each test of a conditional or a loop is one conditional jump forward, each `else` one jump
forward, and each loop one jump back, to the code of its condition. -/

namespace Abacus

/-! ### Closing jumps -/

namespace Code

mutual

/-- Emission that gives up if an index that is to be closed holds no jump. -/
def emitStmt? (code : Code) : Stmt → Option Code
  | .block body => emitAll? code body
  | .ifThen test body => do
    let tested := code.emitExpr test
    let done ← emitStmt? (tested.emit (.simple .jumpIfFalse)) body
    done.patch? tested.size done.size
  | .ifElse test body otherwise => do
    let tested := code.emitExpr test
    let done ← emitStmt? (tested.emit (.simple .jumpIfFalse)) body
    let opened := done.emit (.simple .jump)
    let turned ← opened.patch? tested.size opened.size
    let all ← emitStmt? turned otherwise
    all.patch? done.size all.size
  | .loop test body => do
    let tested := code.emitExpr test
    let done ← emitStmt? (tested.emit (.simple .jumpIfFalse)) body
    let all := done.emit (.jumpTo .jump code.size)
    all.patch? tested.size all.size
  | stmt => some (code.emitStmt stmt)

def emitAll? (code : Code) : List Stmt → Option Code
  | [] => some code
  | first :: rest => do emitAll? (← emitStmt? code first) rest

end

/-- At an open jump, closing is a patch that succeeds. -/
theorem patch?_eq_closeHere {code : Code} {index : Nat} {op : Opcode}
    (h : code.toList[index]? = some (.simple op)) (hJump : op.isJump = true) :
    code.patch? index code.size = some (code.closeHere index) := by
  rw [getElem?_toList] at h
  simp only [closeHere, patch?, h, Instr.simple, hJump, if_true, Option.getD_some]

theorem getElem?_closeHere_of_ne (code : Code) {index other : Nat} (h : index ≠ other) :
    (code.closeHere index).toList[other]? = code.toList[other]? := by
  unfold closeHere patch?
  split
  · split <;> simp [toList, h]
  · rfl

/-! What is emitted later does not change what is there. -/

theorem getElem?_emit_of_some {code : Code} {index : Nat} {i : Instr}
    (h : code.toList[index]? = some i) (next : Instr) :
    (code.emit next).toList[index]? = some i := by
  have hIndex : index < code.toList.length := (List.getElem?_eq_some_iff.mp h).1
  rw [toList_emit, List.getElem?_append_left hIndex, h]

theorem getElem?_emitStmt_of_some {code : Code} {index : Nat} {i : Instr}
    (h : code.toList[index]? = some i) (stmt : Stmt) :
    (code.emitStmt stmt).toList[index]? = some i := by
  have hIndex : index < code.toList.length := (List.getElem?_eq_some_iff.mp h).1
  rw [toList_emitStmt, List.getElem?_append_left hIndex, h]

theorem getElem?_emit_size (code : Code) (i : Instr) :
    (code.emit i).toList[code.size]? = some i := by
  rw [toList_emit, ← length_toList, List.getElem?_concat_length]

mutual

theorem emitStmt?_eq (code : Code) : (stmt : Stmt) → code.emitStmt? stmt = some (code.emitStmt stmt)
  | .declare _ _ | .assign _ _ | .print _ | .input _ | .discard _ => rfl
  | .block body => by rw [emitStmt?, emitStmt, emitAll?_eq code body]
  | .ifThen test body => by
    have hOpen := getElem?_emitStmt_of_some
      (getElem?_emit_size (code.emitExpr test) (.simple .jumpIfFalse)) body
    rw [emitStmt?, emitStmt, emitStmt?_eq _ body]
    exact patch?_eq_closeHere hOpen rfl
  | .ifElse test body otherwise => by
    have hOpen := getElem?_emitStmt_of_some
      (getElem?_emit_size (code.emitExpr test) (.simple .jumpIfFalse)) body
    rw [emitStmt?, emitStmt, emitStmt?_eq _ body]
    generalize emitStmt ((code.emitExpr test).emit (.simple .jumpIfFalse)) body = done at hOpen ⊢
    have hFirst : (code.emitExpr test).size ≠ done.size :=
      Nat.ne_of_lt (List.getElem?_eq_some_iff.mp hOpen).1
    have hTurned := patch?_eq_closeHere (getElem?_emit_of_some hOpen (.simple .jump)) rfl
    -- The jump over the other branch is still open when the first jump is closed.
    have hSecond : ((done.emit (.simple .jump)).closeHere
        (code.emitExpr test).size).toList[done.size]? = some (.simple .jump) := by
      rw [getElem?_closeHere_of_ne _ hFirst, getElem?_emit_size]
    have hLast := patch?_eq_closeHere (getElem?_emitStmt_of_some hSecond otherwise) rfl
    simp only [Option.bind_eq_bind, Option.bind_some, hTurned, emitStmt?_eq _ otherwise, hLast]
  | .loop test body => by
    have hOpen := getElem?_emitStmt_of_some
      (getElem?_emit_size (code.emitExpr test) (.simple .jumpIfFalse)) body
    rw [emitStmt?, emitStmt, emitStmt?_eq _ body]
    exact patch?_eq_closeHere (getElem?_emit_of_some hOpen (.jumpTo .jump code.size)) rfl

/-- Emission never closes an index without a jump. -/
theorem emitAll?_eq (code : Code) :
    (stmts : List Stmt) → emitAll? code stmts = some (emitAll code stmts)
  | [] => rfl
  | first :: rest => by
    rw [emitAll?, emitAll, emitStmt?_eq code first]
    exact emitAll?_eq _ rest

end

end Code

/-! ### The statements of a program -/

mutual

/-- A statement and the statements inside it, each behind those inside it. -/
def Stmt.parts : Stmt → List Stmt
  | .block body => partsOfAll body ++ [.block body]
  | .ifThen test body => body.parts ++ [.ifThen test body]
  | .ifElse test body otherwise =>
    body.parts ++ (otherwise.parts ++ [.ifElse test body otherwise])
  | .loop test body => body.parts ++ [.loop test body]
  | stmt => [stmt]

def partsOfAll : List Stmt → List Stmt
  | [] => []
  | first :: rest => first.parts ++ partsOfAll rest

end

def Program.parts (p : Program) : List Stmt := partsOfAll p

def Stmt.isIf : Stmt → Bool
  | .ifThen _ _ | .ifElse _ _ _ => true
  | _ => false

def Stmt.isIfElse : Stmt → Bool
  | .ifElse _ _ _ => true
  | _ => false

def Stmt.isLoop : Stmt → Bool
  | .loop _ _ => true
  | _ => false

/-- Where the code of a loop stands: its first index, and that of its last instruction. -/
structure LoopSite where
  test : Expr
  body : Stmt
  condition : Nat
  back : Nat

namespace LoopSite

def stmt (site : LoopSite) : Stmt := .loop site.test site.body

/-- The jump back of a loop, with its index. -/
def jump (site : LoopSite) : Instr × Nat := (.jumpTo .jump site.condition, site.back)

end LoopSite

mutual

/-- The loops of a statement whose code begins at index `start`. -/
def Stmt.loopSites (start : Nat) : Stmt → List LoopSite
  | .block body => loopSitesOfAll start body
  | .ifThen test body => body.loopSites (start + test.instrs.length + 1)
  | .ifElse test body otherwise =>
    let first := start + test.instrs.length + 1
    body.loopSites first ++ otherwise.loopSites (first + (body.instrs first).length + 1)
  | .loop test body =>
    let first := start + test.instrs.length + 1
    body.loopSites first ++ [⟨test, body, start, first + (body.instrs first).length⟩]
  | _ => []

def loopSitesOfAll (start : Nat) : List Stmt → List LoopSite
  | [] => []
  | first :: rest =>
    first.loopSites start ++ loopSitesOfAll (start + (first.instrs start).length) rest

end

/-! ### The jumps of a part of the code -/

/-- Whether an instruction at an index jumps to that index or to one before it. -/
def goesBack (x : Instr × Nat) : Bool := x.1.op.isJump && x.1.target.any (· ≤ x.2)

/-- Whether an instruction at an index jumps forward without a condition. -/
def goesOn (x : Instr × Nat) : Bool := x.1.op == .jump && x.1.target.any (x.2 < ·)

/-- The jumps among instructions from index `start` on, in code of the given size. -/
structure Jumps (size start : Nat) (instrs : List Instr) (tests turns : Nat)
    (sites : List LoopSite) : Prop where
  lands : ∀ x ∈ instrs.zipIdx start, x.1.op.isJump = true →
    ∃ target, x.1.target = some target ∧ target ≤ size ∧ (x.1.op = .jumpIfFalse → x.2 < target)
  tests_eq : instrs.countP (·.op == .jumpIfFalse) = tests
  turns_eq : (instrs.zipIdx start).countP goesOn = turns
  back_eq : (instrs.zipIdx start).filter goesBack = sites.map LoopSite.jump

namespace Jumps

variable {size start stop tests tests' turns turns' target : Nat} {instrs instrs' : List Instr}
  {sites sites' : List LoopSite}

theorem append (h : Jumps size start instrs tests turns sites)
    (h' : Jumps size (start + instrs.length) instrs' tests' turns' sites') :
    Jumps size start (instrs ++ instrs') (tests + tests') (turns + turns') (sites ++ sites') where
  lands := by
    rw [List.zipIdx_append]
    exact List.forall_mem_append.mpr ⟨h.lands, h'.lands⟩
  tests_eq := by rw [List.countP_append, h.tests_eq, h'.tests_eq]
  turns_eq := by rw [List.zipIdx_append, List.countP_append, h.turns_eq, h'.turns_eq]
  back_eq := by rw [List.zipIdx_append, List.filter_append, h.back_eq, h'.back_eq, List.map_append]

/-- Instructions without jumps. -/
theorem none (h : ∀ i ∈ instrs, i.op.isJump = false) : Jumps size start instrs 0 0 [] where
  lands := by
    intro x hMem hJump
    have hNot := h x.1 (List.fst_mem_of_mem_zipIdx hMem)
    rw [hNot] at hJump
    cases hJump
  tests_eq := by
    refine List.countP_eq_zero.mpr fun i hMem hTest => ?_
    have hNot := h i hMem
    rw [eq_of_beq hTest] at hNot
    cases hNot
  turns_eq := by
    refine List.countP_eq_zero.mpr fun x hMem hTurn => ?_
    have hNot := h x.1 (List.fst_mem_of_mem_zipIdx hMem)
    simp only [goesOn, Bool.and_eq_true, beq_iff_eq] at hTurn
    rw [hTurn.1] at hNot
    cases hNot
  back_eq := by
    refine List.filter_eq_nil_iff.mpr fun x hMem hBack => ?_
    have hNot := h x.1 (List.fst_mem_of_mem_zipIdx hMem)
    simp [goesBack, hNot] at hBack

theorem test (hForward : start < target) (hTarget : target ≤ size) :
    Jumps size start [.jumpTo .jumpIfFalse target] 1 0 [] where
  lands := by simp [Instr.jumpTo, Instr.simple, hForward, hTarget]
  tests_eq := rfl
  turns_eq := by simp [goesOn, Instr.jumpTo, Instr.simple]
  back_eq := by simp [goesBack, Instr.jumpTo, Instr.simple]; omega

theorem turn (hForward : start < target) (hTarget : target ≤ size) :
    Jumps size start [.jumpTo .jump target] 0 1 [] where
  lands := by simp [Instr.jumpTo, Instr.simple, hTarget]
  tests_eq := rfl
  turns_eq := by simp [goesOn, Instr.jumpTo, Instr.simple, hForward]
  back_eq := by simp [goesBack, Instr.jumpTo, Instr.simple]; omega

theorem back {site : LoopSite} (hBack : site.condition ≤ site.back) (hTarget : site.back ≤ size) :
    Jumps size site.back [.jumpTo .jump site.condition] 0 0 [site] where
  lands := by
    intro x hMem _
    obtain rfl := List.mem_singleton.mp hMem
    exact ⟨site.condition, rfl, Nat.le_trans hBack hTarget, nofun⟩
  tests_eq := rfl
  turns_eq := by simp [goesOn, Instr.jumpTo, Instr.simple]; omega
  back_eq := by simp [goesBack, Instr.jumpTo, Instr.simple, LoopSite.jump, hBack, Opcode.isJump]

theorem of_eq (h : Jumps size start instrs tests turns sites) (hTests : tests' = tests)
    (hTurns : turns' = turns) (hSites : sites' = sites) :
    Jumps size start instrs tests' turns' sites' := by
  subst hTests hTurns hSites
  exact h

/-- A test and what stands behind it. -/
theorem tested {test : Expr} (hForward : start + test.instrs.length < target)
    (hTarget : target ≤ size)
    (h : Jumps size (start + test.instrs.length + 1) instrs tests turns sites) :
    Jumps size start (test.instrs ++ .jumpTo .jumpIfFalse target :: instrs) (tests + 1) turns
      sites := by
  have hTest : Jumps size start test.instrs 0 0 [] := .none fun _ => Expr.isJump_of_mem_instrs
  have hAll := hTest.append ((Jumps.test hForward hTarget).append h)
  rwa [Nat.zero_add, Nat.zero_add, Nat.zero_add, Nat.add_comm 1] at hAll

theorem concat {e : Expr} {i : Instr} (h : i.op.isJump = false) :
    Jumps size start (e.instrs ++ [i]) 0 0 [] := by
  refine .none (List.forall_mem_append.mpr ⟨fun _ => Expr.isJump_of_mem_instrs, ?_⟩)
  exact List.forall_mem_singleton.mpr h

end Jumps

/-- How many conditional jumps statements need. -/
def testsOf (parts : List Stmt) : Nat := parts.countP Stmt.isIf + parts.countP Stmt.isLoop

theorem testsOf_append (parts parts' : List Stmt) :
    testsOf (parts ++ parts') = testsOf parts + testsOf parts' := by
  simp only [testsOf, List.countP_append]
  omega

mutual

theorem Stmt.jumps (size : Nat) : (stmt : Stmt) → (start : Nat) →
    start + (stmt.instrs start).length ≤ size →
    Jumps size start (stmt.instrs start) (testsOf stmt.parts) (stmt.parts.countP Stmt.isIfElse)
      (stmt.loopSites start)
  | .declare _ _, _, _ => .none nofun
  | .assign _ _, _, _ | .print _, _, _ | .discard _, _, _ => Jumps.concat rfl
  | .input _, _, _ => .none (List.forall_mem_singleton.mpr rfl)
  | .block body, start, hEnd => by
    rw [Stmt.instrs] at hEnd ⊢
    rw [Stmt.loopSites, Stmt.parts, testsOf_append, List.countP_append]
    exact jumps_of_all size body start hEnd
  | .ifThen test body, start, hEnd => by
    rw [Stmt.end_ifThen] at hEnd
    have hBody := Stmt.jumps size body _ hEnd
    rw [Stmt.instrs, Stmt.loopSites, Stmt.parts, testsOf_append, List.countP_append]
    exact hBody.tested (by omega) hEnd
  | .ifElse test body otherwise, start, hEnd => by
    rw [Stmt.end_ifElse] at hEnd
    have hBody := Stmt.jumps size body (start + test.instrs.length + 1) (by omega)
    have hOther := Stmt.jumps size otherwise _ hEnd
    rw [Stmt.instrs, Stmt.loopSites, Stmt.parts]
    simp only [testsOf_append, List.countP_append]
    refine ((hBody.append ((Jumps.turn (by omega) hEnd).append hOther)).tested
      (by omega) (by omega)).of_eq ?_ ?_ rfl
    · show _ + (_ + 1) = _
      omega
    · show _ + (_ + 1) = _
      omega
  | .loop test body, start, hEnd => by
    rw [Stmt.end_loop] at hEnd
    have hBody := Stmt.jumps size body (start + test.instrs.length + 1) (by omega)
    rw [Stmt.instrs, Stmt.loopSites, Stmt.parts, testsOf_append, List.countP_append]
    let back := start + test.instrs.length + 1 +
      (body.instrs (start + test.instrs.length + 1)).length
    have hBack := @Jumps.back size ⟨test, body, start, back⟩ (by dsimp only [back]; omega)
      (by dsimp only [back]; omega)
    exact (hBody.append hBack).tested (by omega) hEnd

theorem jumps_of_all (size : Nat) : (stmts : List Stmt) → (start : Nat) →
    start + (instrsOfAll start stmts).length ≤ size →
    Jumps size start (instrsOfAll start stmts) (testsOf (partsOfAll stmts))
      ((partsOfAll stmts).countP Stmt.isIfElse) (loopSitesOfAll start stmts)
  | [], _, _ => .none nofun
  | first :: rest, start, hEnd => by
    rw [instrsOfAll, List.length_append, ← Nat.add_assoc] at hEnd
    rw [instrsOfAll, loopSitesOfAll, partsOfAll, testsOf_append, List.countP_append]
    exact (Stmt.jumps size first start (by omega)).append (jumps_of_all size rest _ hEnd)

end

mutual

/-- The loops of the code are those of the tree. -/
theorem Stmt.map_loopSites : (stmt : Stmt) → (start : Nat) →
    (stmt.loopSites start).map LoopSite.stmt = stmt.parts.filter Stmt.isLoop
  | .declare _ _, _ | .assign _ _, _ | .print _, _ | .input _, _ | .discard _, _ => rfl
  | .block body, start => by
    rw [Stmt.loopSites, Stmt.parts, List.filter_append, map_loopSitesOfAll body start]
    exact (List.append_nil _).symm
  | .ifThen test body, start => by
    rw [Stmt.loopSites, Stmt.parts, List.filter_append, Stmt.map_loopSites body]
    exact (List.append_nil _).symm
  | .ifElse test body otherwise, start => by
    rw [Stmt.loopSites, Stmt.parts, List.filter_append, List.filter_append, List.map_append,
      Stmt.map_loopSites body, Stmt.map_loopSites otherwise]
    exact congrArg _ (List.append_nil _).symm
  | .loop test body, start => by
    rw [Stmt.loopSites, Stmt.parts, List.filter_append, List.map_append, Stmt.map_loopSites body]
    rfl

theorem map_loopSitesOfAll : (stmts : List Stmt) → (start : Nat) →
    (loopSitesOfAll start stmts).map LoopSite.stmt = (partsOfAll stmts).filter Stmt.isLoop
  | [], _ => rfl
  | first :: rest, start => by
    rw [loopSitesOfAll, partsOfAll, List.filter_append, List.map_append,
      Stmt.map_loopSites first, map_loopSitesOfAll rest]

end

/-- The code of the loop stands at its site, and the jump back is its last instruction. -/
def LoopSite.StandsIn (site : LoopSite) (code : Code) : Prop :=
  code.Holds site.condition (site.stmt.instrs site.condition) ∧
    site.back + 1 = site.condition + (site.stmt.instrs site.condition).length

mutual

theorem Stmt.standsIn_of_mem_loopSites {code : Code} {site : LoopSite} :
    (stmt : Stmt) → {start : Nat} → code.Holds start (stmt.instrs start) →
      site ∈ stmt.loopSites start → site.StandsIn code
  | .declare _ _, _, _, hMem | .assign _ _, _, _, hMem | .print _, _, _, hMem
  | .input _, _, _, hMem | .discard _, _, _, hMem => by simp [Stmt.loopSites] at hMem
  | .block body, start, h, hMem => by
    rw [Stmt.instrs] at h
    rw [Stmt.loopSites] at hMem
    exact standsIn_of_mem_loopSitesOfAll body h hMem
  | .ifThen test body, start, h, hMem => by
    rw [Stmt.instrs] at h
    rw [Stmt.loopSites] at hMem
    exact Stmt.standsIn_of_mem_loopSites body h.right.tail hMem
  | .ifElse test body otherwise, start, h, hMem => by
    rw [Stmt.instrs] at h
    rw [Stmt.loopSites, List.mem_append] at hMem
    rcases hMem with hMem | hMem
    · exact Stmt.standsIn_of_mem_loopSites body h.right.tail.left hMem
    · exact Stmt.standsIn_of_mem_loopSites otherwise h.right.tail.right.tail hMem
  | .loop test body, start, h, hMem => by
    rw [Stmt.loopSites, List.mem_append, List.mem_singleton] at hMem
    rcases hMem with hMem | rfl
    · rw [Stmt.instrs] at h
      exact Stmt.standsIn_of_mem_loopSites body h.right.tail.left hMem
    · exact ⟨h, (Stmt.end_loop start test body).symm⟩

theorem standsIn_of_mem_loopSitesOfAll {code : Code} {site : LoopSite} :
    (stmts : List Stmt) → {start : Nat} → code.Holds start (instrsOfAll start stmts) →
      site ∈ loopSitesOfAll start stmts → site.StandsIn code
  | [], _, _, hMem => by simp [loopSitesOfAll] at hMem
  | first :: rest, start, h, hMem => by
    rw [instrsOfAll] at h
    rw [loopSitesOfAll, List.mem_append] at hMem
    rcases hMem with hMem | hMem
    · exact Stmt.standsIn_of_mem_loopSites first h.left hMem
    · exact standsIn_of_mem_loopSitesOfAll rest h.right hMem

end

/-- The jumps of generated code.  Every program has code, and no jump is closed on the way that is
not there.  Every jump has a target in the code or behind its end, and a conditional one goes
forward.  The jumps that go back are unconditional and are those of the loops of the program, one
for one, each to the first instruction of the condition.  The conditional jumps are as many as the
conditionals and loops, and the unconditional ones forward as many as the conditionals with an
`else`. -/
theorem jumps_of_code (p : Program) :
    ∃ code, p.code = .ok code ∧ Code.emitAll? {} p = some code ∧
      (∀ (index : Nat) (i : Instr), code.instrs[index]? = some i → i.op.isJump = true →
        ∃ target, i.target = some target ∧ target ≤ code.size ∧
          (i.op = .jumpIfFalse → index < target)) ∧
      (∃ sites : List LoopSite, sites.map LoopSite.stmt = p.parts.filter Stmt.isLoop ∧
        code.toList.zipIdx.filter goesBack = sites.map LoopSite.jump ∧
        ∀ site ∈ sites, site.StandsIn code) ∧
      code.toList.countP (·.op == .jumpIfFalse) =
        p.parts.countP Stmt.isIf + p.parts.countP Stmt.isLoop ∧
      code.toList.zipIdx.countP goesOn = p.parts.countP Stmt.isIfElse := by
  have hJumps := jumps_of_all p.assembled.size p 0 (Nat.le_of_eq (Nat.zero_add _))
  refine ⟨p.assembled, p.code_eq_assembled, ?_, ?_, ?_, hJumps.tests_eq, hJumps.turns_eq⟩
  · rw [Code.emitAll?_eq, p.emitAll_eq_assembled]
  · intro index i hAt
    rw [← Code.getElem?_toList, p.toList_assembled] at hAt
    exact hJumps.lands (i, index) (List.mem_zipIdx_iff_getElem?.mpr hAt)
  · exact ⟨loopSitesOfAll 0 p, map_loopSitesOfAll p 0, hJumps.back_eq,
      fun site => standsIn_of_mem_loopSitesOfAll p p.holds_assembled⟩

end Abacus
