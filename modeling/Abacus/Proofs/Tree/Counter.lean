import Abacus.Proofs.Tree.Locality

/-! The parser as a machine with two registers: its position in the tokens, and a counter of the
levels that it is inside of.  It never goes behind the end token, counts up where a level begins,
and counts down where it ends, however it ends.  Neither the tokens nor the levels bound its loops
and calls, but only a fuel, the number of them that may be inside each other: a run that needs more
has no result.

For every place in the tokens there is a fuel that is enough, and the result is then the one of the
parser of the library, which is told how many levels are left and reads from a cursor. -/

namespace Abacus

/-- What a parser changes: its position, and the number of levels that it is inside of. -/
structure Place where
  position : Nat := 0
  depth : Nat := 0
deriving DecidableEq, Repr

/-- A run of a parser, which has no result when its fuel is used up.  A failure leaves the place as
it is then. -/
abbrev Counting (α : Type) := ExceptT SyntaxError (StateT Place Option) α

/-- The token at an index.  There is an end token behind the last one. -/
def tokenAt (tokens : List Token) (index : Nat) : Token :=
  tokens[index]?.getD (Cursor.endOf tokens)

namespace Counting

variable (tokens : List Token) {α : Type}

/-- The token at the position. -/
def current : Counting Token := return tokenAt tokens (← get).position

/-- Goes behind the token at the position, unless it is an end token, and gives the token before
the position. -/
def advance : Counting Token := do
  if !(← current tokens).isEof then
    modify fun s => { s with position := s.position + 1 }
  match (← get).position with
  | 0 => return Cursor.endOf tokens
  | index + 1 => return tokenAt tokens index

def refuse (expected : Expected) : Counting α := do
  throw (.unexpected (← current tokens) expected)

def expect (kind : Token.Kind) (expected : Expected) : Counting Token := do
  if (← current tokens).kind = kind then advance tokens else refuse tokens expected

def expectName (expected : Expected) : Counting String := do
  return (← expect tokens .identifier expected).lexeme

/-- Goes behind a token of the given kind, if there is one. -/
def eat (kind : Token.Kind) : Counting Bool := do
  if (← current tokens).kind = kind then
    let _ ← advance tokens
    return true
  else return false

/-- Counts up, unless the limit is reached: then gives the error of it. -/
def enter : StateT Place Option (Option SyntaxError) := do
  let s ← get
  if Parse.nestingLimit ≤ s.depth then
    return some (.tooDeep (tokenAt tokens s.position) Parse.nestingLimit)
  else
    set { s with depth := s.depth + 1 }
    return none

/-- Counts down behind a level that has come to a result or to an error. -/
def leave (result : Except SyntaxError α) : StateT Place Option (Except SyntaxError α) := do
  modify fun s => { s with depth := s.depth - 1 }
  return result

/-- A part that is one level deeper. -/
def nested (x : Counting α) : Counting α := ExceptT.mk do
  match ← enter tokens with
  | some e => return .error e
  | none => leave (← ExceptT.run x)

/-- No fuel is left. -/
def exhausted : Counting α := fun _ => none

def literal (token : Token) : Counting Expr :=
  match Number.read? token.lexeme with
  | some value => return .literal value
  | none => throw (.invalidNumber token.lexeme)

/-- The operators from those that bind least on. -/
def precedences : List (Token.Kind → Option BinaryOp) :=
  [Parse.equality?, Parse.comparison?, Parse.sum?, Parse.product?]

mutual

/-- Operands with the given operators between them. -/
def chained : (fuel : Nat) → List (Token.Kind → Option BinaryOp) → Counting Expr
  | 0, _ => exhausted
  | fuel + 1, [] => unary fuel
  | fuel + 1, operator? :: tighter => do
    chainedBehind fuel operator? tighter (← chained fuel tighter)

def chainedBehind : (fuel : Nat) → (operator? : Token.Kind → Option BinaryOp) →
    (tighter : List (Token.Kind → Option BinaryOp)) → (left : Expr) → Counting Expr
  | 0, _, _, _ => exhausted
  | fuel + 1, operator?, tighter, left => do
    match operator? (← current tokens).kind with
    | none => return left
    | some op =>
      let _ ← advance tokens
      let right ← chained fuel tighter
      chainedBehind fuel operator? tighter (.binary op left right)

def unary : (fuel : Nat) → Counting Expr
  | 0 => exhausted
  | fuel + 1 => do
    if ← eat tokens .minus then return .unary .neg (← nested tokens (unary fuel))
    else primary fuel

def primary : (fuel : Nat) → Counting Expr
  | 0 => exhausted
  | fuel + 1 => do
    match (← current tokens).kind with
    | .number => literal (← advance tokens)
    | .identifier => return .var (← advance tokens).lexeme
    | .leftParen =>
      let _ ← advance tokens
      let inner ← nested tokens (chained fuel precedences)
      let _ ← expect tokens .rightParen .parenAfterExpression
      return .group inner
    | _ => refuse tokens .expression

end

section Fueled

variable (fuel : Nat)

/-- An expression. -/
def expression : Counting Expr := chained tokens fuel precedences

def condition (opening : Expected) : Counting Expr := do
  let _ ← expect tokens .leftParen opening
  let test ← expression tokens fuel
  let _ ← expect tokens .rightParen .parenAfterCondition
  return test

def assignment : Counting Stmt := do
  let name ← expectName tokens .nameInAssignment
  let _ ← expect tokens .equal .equalsInAssignment
  let value ← expression tokens fuel
  let _ ← expect tokens .semicolon .semicolonAfterAssignment
  return .assign name value

def printStatement : Counting Stmt := do
  let _ ← advance tokens
  let value ← expression tokens fuel
  let _ ← expect tokens .semicolon .semicolonAfterPrint
  return .print value

def expressionStatement : Counting Stmt := do
  let value ← expression tokens fuel
  let _ ← expect tokens .semicolon .semicolonAfterExpression
  return .discard value

end Fueled

def declaration : Counting Stmt := do
  let type := if (← advance tokens).kind = .realWord then VarType.real else VarType.int
  let name ← expectName tokens .nameAfterType
  let _ ← expect tokens .semicolon .semicolonAfterDeclaration
  return .declare type name

def inputStatement : Counting Stmt := do
  let _ ← advance tokens
  let name ← expectName tokens .nameAfterInput
  let _ ← expect tokens .semicolon .semicolonAfterInput
  return .input name

/-- A declaration, or what a statement is read by. -/
def itemOf (statement : Counting Stmt) : Counting Stmt := do
  if (← current tokens).kind.isType then declaration tokens else statement

mutual

/-- A statement. -/
def statement : (fuel : Nat) → Counting Stmt
  | 0 => exhausted
  | fuel + 1 => nested tokens (statementInner fuel)

def statementInner : (fuel : Nat) → Counting Stmt
  | 0 => exhausted
  | fuel + 1 => do
    match (← current tokens).kind with
    | .printWord => printStatement tokens fuel
    | .inputWord => inputStatement tokens
    | .ifWord =>
      let _ ← advance tokens
      let test ← condition tokens fuel .parenAfterIf
      let body ← statement fuel
      if ← eat tokens .elseWord then return .ifElse test body (← statement fuel)
      else return .ifThen test body
    | .whileWord =>
      let _ ← advance tokens
      let test ← condition tokens fuel .parenAfterWhile
      return .loop test (← statement fuel)
    | .leftBrace =>
      let _ ← advance tokens
      let body ← itemsBefore fuel fun kind => kind == .rightBrace || kind == .eof
      let _ ← expect tokens .rightBrace .braceAfterBlock
      return .block body
    | .identifier =>
      if (tokenAt tokens ((← get).position + 1)).kind = .equal then assignment tokens fuel
      else expressionStatement tokens fuel
    | _ => expressionStatement tokens fuel

def itemsBefore : (fuel : Nat) → (closes : Token.Kind → Bool) → Counting (List Stmt)
  | 0, _ => exhausted
  | fuel + 1, closes => do
    if closes (← current tokens).kind then return []
    else
      let first ← itemOf tokens (statement fuel)
      return first :: (← itemsBefore fuel closes)

end

/-- A declaration or a statement. -/
def item (fuel : Nat) : Counting Stmt := itemOf tokens (statement tokens fuel)

/-- The declarations and statements up to the end token. -/
def program (fuel : Nat) : Counting Program := itemsBefore tokens fuel (· == .eof)

/-! ### Side by side with a cursor -/

/-- The tokens before the first end token. -/
def ahead : List Token := tokens.takeWhile (!·.isEof)

end Counting

open Counting (ahead)

namespace Place

variable (tokens : List Token)

/-- The cursor at the position. -/
def cursor (s : Place) : Cursor := ⟨(ahead tokens).drop s.position, (Cursor.ofTokens tokens).stop⟩

/-- The position is not behind the first end token, or the end of the tokens. -/
def Inside (s : Place) : Prop := s.position ≤ (ahead tokens).length

/-- The second place is ahead of the first one or the same, and on the same level. -/
structure Keeps (s s' : Place) : Prop where
  inside : s'.Inside tokens
  position_le : s.position ≤ s'.position
  depth_eq : s'.depth = s.depth

variable {tokens} {s s' s'' : Place}

theorem Keeps.refl (h : s.Inside tokens) : s.Keeps tokens s := ⟨h, Nat.le_refl _, rfl⟩

theorem Keeps.trans (h : s.Keeps tokens s') (h' : s'.Keeps tokens s'') : s.Keeps tokens s'' :=
  ⟨h'.inside, Nat.le_trans h.position_le h'.position_le, h'.depth_eq.trans h.depth_eq⟩

theorem length_rest_cursor (s : Place) :
    (s.cursor tokens).rest.length = (ahead tokens).length - s.position :=
  List.length_drop

theorem kind_stop_cursor (s : Place) : (s.cursor tokens).stop.kind = .eof :=
  Cursor.stop_ofTokens tokens

theorem getElem?_length_ahead (tokens : List Token) :
    tokens[(ahead tokens).length]? = tokens.find? (·.isEof) := by
  induction tokens with
  | nil => rfl
  | cons t tokens ih =>
    cases hEof : t.isEof with
    | true => simp [ahead, hEof]
    | false => simpa [ahead, hEof] using ih

/-- At a position inside, the tokens and the cursor show the same token. -/
theorem tokenAt_eq (h : s.Inside tokens) :
    tokenAt tokens s.position = (s.cursor tokens).current := by
  rcases Nat.lt_or_eq_of_le h with hLt | hEq
  · have hSplit : ahead tokens ++ tokens.dropWhile (!·.isEof) = tokens :=
      List.takeWhile_append_dropWhile
    have hAt : tokens[s.position]? = (ahead tokens)[s.position]? := by
      rw [← List.getElem?_append_left hLt, hSplit]
    rw [tokenAt, Cursor.current, cursor, List.headD_eq_head?_getD, List.head?_drop, hAt,
      List.getElem?_eq_getElem hLt, Option.getD_some, Option.getD_some]
  · rw [tokenAt, Cursor.current, cursor, hEq, List.drop_length, getElem?_length_ahead]
    rfl

end Place

namespace Counting

open Place (Keeps)

variable {tokens : List Token} {α β : Type} {s s' : Place}

/-- What the machine comes to at a place. -/
def runAt (x : Counting α) (s : Place) : Option (Except SyntaxError α × Place) :=
  (ExceptT.run x).run s

theorem runAt_bind (x : Counting α) (f : α → Counting β) (s : Place) :
    runAt (x >>= f) s = (runAt x s).bind fun
      | (.ok a, s') => runAt (f a) s'
      | (.error e, s') => some (.error e, s') := by
  show ((ExceptT.run x).run s).bind (fun r => (ExceptT.bindCont f r.1).run r.2) = _
  rw [runAt]
  congr 1
  funext r
  obtain ⟨_ | _, _⟩ := r <;> rfl

theorem runAt_bind_of_ok {x : Counting α} {a : α} (h : runAt x s = some (.ok a, s'))
    (f : α → Counting β) : runAt (x >>= f) s = runAt (f a) s' := by
  rw [runAt_bind, h, Option.bind_some]

/-- There is a fuel that is enough: with it and with any more the result is the given one. -/
def ComesTo (run : Nat → Option α) (a : α) : Prop :=
  ∃ enough, ∀ fuel, enough ≤ fuel → run fuel = some a

namespace ComesTo

variable {run : Nat → Option α} {a : α}

theorem always (h : ∀ fuel, run fuel = some a) : ComesTo run a := ⟨0, fun fuel _ => h fuel⟩

/-- A call takes one unit of the fuel. -/
theorem of_succ (h : ComesTo (fun fuel => run (fuel + 1)) a) : ComesTo run a := by
  obtain ⟨enough, h⟩ := h
  refine ⟨enough + 1, fun fuel hFuel => ?_⟩
  obtain ⟨fuel, rfl⟩ : ∃ n, fuel = n + 1 := ⟨fuel - 1, by omega⟩
  exact h fuel (by omega)

theorem map (h : ComesTo run a) (f : α → β) : ComesTo (fun fuel => (run fuel).map f) (f a) := by
  obtain ⟨enough, h⟩ := h
  refine ⟨enough, fun fuel hFuel => ?_⟩
  show (run fuel).map f = some (f a)
  rw [h fuel hFuel, Option.map_some]

theorem bind {next : Nat → α → Option β} {b : β} (h : ComesTo run a)
    (hNext : ComesTo (fun fuel => next fuel a) b) :
    ComesTo (fun fuel => (run fuel).bind (next fuel)) b := by
  obtain ⟨enough, h⟩ := h
  obtain ⟨enough', hNext⟩ := hNext
  refine ⟨max enough enough', fun fuel hFuel => ?_⟩
  show (run fuel).bind (next fuel) = some b
  rw [h fuel (by omega), Option.bind_some]
  exact hNext fuel (by omega)

end ComesTo

/-- With enough fuel the machine has a result, the parser with a cursor comes to the same one, and
they are still side by side behind it. -/
inductive Answers (tokens : List Token) (s : Place)
    (run : Nat → Option (Except SyntaxError α × Place)) :
    EStateM.Result SyntaxError Cursor α → Prop
  | ok {a : α} {s' : Place} (comes : ComesTo run (.ok a, s')) (keeps : s.Keeps tokens s') :
      Answers tokens s run (.ok a (s'.cursor tokens))
  | error {e : SyntaxError} {s' : Place} (comes : ComesTo run (.error e, s'))
      (keeps : s.Keeps tokens s') :
      Answers tokens s run (.error e (s'.cursor tokens))

namespace Answers

variable {run : Nat → Option (Except SyntaxError α × Place)}
  {result : EStateM.Result SyntaxError Cursor α}

theorem behind (h : Answers tokens s' run result) (keeps : s.Keeps tokens s') :
    Answers tokens s run result := by
  cases h with
  | ok comes keeps' => exact .ok comes (keeps.trans keeps')
  | error comes keeps' => exact .error comes (keeps.trans keeps')

theorem of_succ (h : Answers tokens s (fun fuel => run (fuel + 1)) result) :
    Answers tokens s run result := by
  cases h with
  | ok comes keeps => exact .ok comes.of_succ keeps
  | error comes keeps => exact .error comes.of_succ keeps

end Answers

/-- At a place the machine does what the parser does at the cursor there. -/
def Follows (tokens : List Token) (x : Nat → Counting α) (p : Parse α) (s : Place) : Prop :=
  Answers tokens s (fun fuel => runAt (x fuel) s) (p (s.cursor tokens))

namespace Follows

theorem pure (h : s.Inside tokens) (a : α) : Follows tokens (fun _ => pure a) (pure a) s :=
  .ok (.always fun _ => rfl) (.refl h)

theorem throw (h : s.Inside tokens) (e : SyntaxError) :
    Follows (α := α) tokens (fun _ => throw e) (throw e) s :=
  .error (.always fun _ => rfl) (.refl h)

theorem bind {x : Nat → Counting α} {p : Parse α} {f : Nat → α → Counting β} {g : α → Parse β}
    (h : Follows tokens x p s)
    (hNext : ∀ a s', s.Keeps tokens s' → p (s.cursor tokens) = .ok a (s'.cursor tokens) →
      Follows tokens (fun fuel => f fuel a) (g a) s') :
    Follows tokens (fun fuel => x fuel >>= f fuel) (p >>= g) s := by
  unfold Follows at h ⊢
  simp only [runAt_bind]
  generalize hp : p (s.cursor tokens) = result at h
  cases h with
  | @ok a s' comes keeps =>
    have hBehind := hNext a s' keeps hp
    rw [Parse.bind_of_ok hp]
    unfold Follows at hBehind
    generalize g a (s'.cursor tokens) = result at hBehind ⊢
    cases hBehind with
    | ok comes' keeps' => exact .ok (comes.bind comes') (keeps.trans keeps')
    | error comes' keeps' => exact .error (comes.bind comes') (keeps.trans keeps')
  | error comes keeps =>
    rw [Parse.bind_of_error hp]
    exact .error (comes.bind (.always fun _ => rfl)) keeps

end Follows

/-! ### Steps -/

theorem runAt_current_bind (h : s.Inside tokens) (f : Token → Counting β) :
    runAt (current tokens >>= f) s = runAt (f (s.cursor tokens).current) s := by
  have hCurrent : runAt (current tokens) s = some (.ok (s.cursor tokens).current, s) := by
    rw [← Place.tokenAt_eq h]
    rfl
  exact runAt_bind_of_ok hCurrent f

/-- One token ahead, on the same level. -/
def next (s : Place) : Place := { s with position := s.position + 1 }

theorem position_lt (hKind : (s.cursor tokens).current.kind ≠ .eof) :
    s.position < (ahead tokens).length := by
  have hShorter := Cursor.length_advance_lt (Place.kind_stop_cursor s) hKind
  rw [Place.length_rest_cursor] at hShorter
  omega

theorem cursor_next (s : Place) : (next s).cursor tokens = (s.cursor tokens).advance := by
  rw [Place.cursor, Place.cursor, Cursor.advance, List.tail_drop]
  rfl

theorem keeps_next (hKind : (s.cursor tokens).current.kind ≠ .eof) : s.Keeps tokens (next s) :=
  ⟨position_lt hKind, Nat.le_succ _, rfl⟩

theorem runAt_advance (h : s.Inside tokens) (hKind : (s.cursor tokens).current.kind ≠ .eof) :
    runAt (advance tokens) s = some (.ok (s.cursor tokens).current, next s) := by
  have hInside : (s.cursor tokens).current.isEof = false := by simpa [Token.isEof] using hKind
  rw [advance, runAt_current_bind h, hInside, ← Place.tokenAt_eq h]
  rfl

/-- Wherever the counter leaves the given number of levels, the machine does what the parser
does. -/
def Mirrors (tokens : List Token) (levels : Nat) (x : Nat → Counting α) (p : Parse α) : Prop :=
  ∀ ⦃s : Place⦄, s.Inside tokens → s.depth + levels = Parse.nestingLimit → Follows tokens x p s

variable {levels : Nat}

namespace Mirrors

theorem pure (a : α) : Mirrors tokens levels (fun _ => pure a) (pure a) :=
  fun _ hInside _ => .pure hInside a

theorem refuse (expected : Expected) :
    Mirrors (α := α) tokens levels (fun _ => refuse tokens expected) (Parse.refuse expected) := by
  intro s hInside _
  unfold Follows
  simp only [Counting.refuse, runAt_current_bind hInside]
  exact Follows.throw hInside _

theorem bind {x : Nat → Counting α} {p : Parse α} {f : Nat → α → Counting β} {g : α → Parse β}
    (h : Mirrors tokens levels x p)
    (hNext : ∀ a, Mirrors tokens levels (fun fuel => f fuel a) (g a)) :
    Mirrors tokens levels (fun fuel => x fuel >>= f fuel) (p >>= g) := by
  intro s hInside hDepth
  refine (h hInside hDepth).bind fun a s' keeps _ => hNext a keeps.inside ?_
  rw [keeps.depth_eq, hDepth]

/-- Behind a token other than the end token. -/
theorem advance {f : Nat → Token → Counting β} {g : Token → Parse β}
    (h : ∀ t, Mirrors tokens levels (fun fuel => f fuel t) (g t)) (hInside : s.Inside tokens)
    (hDepth : s.depth + levels = Parse.nestingLimit)
    (hKind : (s.cursor tokens).current.kind ≠ .eof) :
    Follows tokens (fun fuel => advance tokens >>= f fuel) (Parse.advance >>= g) s := by
  unfold Follows
  simp only [runAt_bind_of_ok (runAt_advance hInside hKind), Parse.advance_bind, ← cursor_next]
  exact (h _ (keeps_next hKind).inside hDepth).behind (keeps_next hKind)

theorem expect (kind : Token.Kind) (expected : Expected) (hKind : kind ≠ .eof := by decide) :
    Mirrors tokens levels (fun _ => expect tokens kind expected) (Parse.expect kind expected) := by
  intro s hInside hDepth
  unfold Follows
  simp only [Counting.expect, runAt_current_bind hInside, Parse.expect]
  by_cases hCurrent : (s.cursor tokens).current.kind = kind
  · simp only [if_pos hCurrent, runAt_advance hInside (hCurrent ▸ hKind), Parse.advance,
      ← cursor_next]
    exact .ok (.always fun _ => rfl) (keeps_next (hCurrent ▸ hKind))
  · simp only [if_neg hCurrent]
    exact refuse expected hInside hDepth

theorem expectName (expected : Expected) :
    Mirrors tokens levels (fun _ => expectName tokens expected) (Parse.expectName expected) :=
  (expect _ expected).bind fun t => pure t.lexeme

/-- A part and the token that must be behind it. -/
theorem closed {x : Nat → Counting β} {p : Parse β} (h : Mirrors tokens levels x p)
    (kind : Token.Kind) (expected : Expected) (f : β → α) (hKind : kind ≠ .eof := by decide) :
    Mirrors tokens levels
      (fun fuel => do
        let part ← x fuel
        let _ ← Counting.expect tokens kind expected
        return f part)
      (do
        let part ← p
        let _ ← Parse.expect kind expected
        return f part) :=
  h.bind fun part => (expect kind expected hKind).bind fun _ => pure (f part)

end Mirrors

theorem runAt_eat_bind {kind : Token.Kind} (hKind : kind ≠ .eof) (h : s.Inside tokens)
    (f : Bool → Counting β) :
    runAt (eat tokens kind >>= f) s =
      if (s.cursor tokens).current.kind = kind then runAt (f true) (next s)
      else runAt (f false) s := by
  by_cases hCurrent : (s.cursor tokens).current.kind = kind
  · have hEat : runAt (eat tokens kind) s = some (.ok true, next s) := by
      rw [eat, runAt_current_bind h, if_pos hCurrent,
        runAt_bind_of_ok (runAt_advance h (hCurrent ▸ hKind))]
      rfl
    rw [if_pos hCurrent, runAt_bind_of_ok hEat]
  · have hEat : runAt (eat tokens kind) s = some (.ok false, s) := by
      rw [eat, runAt_current_bind h, if_neg hCurrent]
      rfl
    rw [if_neg hCurrent, runAt_bind_of_ok hEat]

/-! ### Levels -/

/-- With no level left, a part that is one deeper is refused. -/
theorem mirrors_nested_zero (x : Nat → Counting α) :
    Mirrors tokens 0 (fun fuel => nested tokens (x fuel)) Parse.tooDeep := by
  intro s hInside hDepth
  have hFull : Parse.nestingLimit ≤ s.depth := by omega
  have hRun (fuel : Nat) : runAt (nested tokens (x fuel)) s =
      some (.error (.tooDeep (tokenAt tokens s.position) Parse.nestingLimit), s) := by
    show (ExceptT.run (nested tokens (x fuel))).run s = _
    simp [nested, enter, hFull]
  unfold Follows
  simp only [hRun, Place.tokenAt_eq hInside]
  exact .error (.always fun _ => rfl) (.refl hInside)

/-- The counter is back where it was behind a part that is one level deeper. -/
theorem mirrors_nested_succ {x : Nat → Counting α} {p : Parse α} (h : Mirrors tokens levels x p) :
    Mirrors tokens (levels + 1) (fun fuel => nested tokens (x fuel)) p := by
  intro s hInside hDepth
  have hRoom : ¬ Parse.nestingLimit ≤ s.depth := by omega
  have hDeeper : Follows tokens x p { s with depth := s.depth + 1 } := by
    refine h hInside ?_
    show s.depth + 1 + levels = Parse.nestingLimit
    omega
  have hRun (fuel : Nat) : runAt (nested tokens (x fuel)) s =
      (runAt (x fuel) { s with depth := s.depth + 1 }).map fun (r, s') =>
        (r, { s' with depth := s'.depth - 1 }) := by
    have hEnter : (enter tokens).run s = some (none, { s with depth := s.depth + 1 }) := by
      simp [enter, hRoom]
    show ((enter tokens).run s).bind _ = _
    rw [hEnter, Option.map_eq_bind]
    rfl
  have hBack {s' : Place} (keeps : Place.Keeps tokens { s with depth := s.depth + 1 } s') :
      s.Keeps tokens { s' with depth := s'.depth - 1 } :=
    ⟨keeps.inside, keeps.position_le, congrArg (· - 1) keeps.depth_eq⟩
  unfold Follows at hDeeper ⊢
  simp only [hRun]
  generalize hp : p (Place.cursor tokens { s with depth := s.depth + 1 }) = result at hDeeper
  rw [show p (s.cursor tokens) = result from hp]
  cases hDeeper with
  | @ok a s' comes keeps =>
    show Answers tokens s _ (.ok a (Place.cursor tokens { s' with depth := s'.depth - 1 }))
    exact .ok (comes.map _) (hBack keeps)
  | @error e s' comes keeps =>
    show Answers tokens s _ (.error e (Place.cursor tokens { s' with depth := s'.depth - 1 }))
    exact .error (comes.map _) (hBack keeps)

/-! ### Expressions -/

theorem mirrors_literal (t : Token) :
    Mirrors tokens levels (fun _ => literal t) (Parse.literal t) := by
  intro s hInside _
  unfold literal Parse.literal
  cases Number.read? t.lexeme with
  | some value => exact .pure hInside _
  | none => exact .throw hInside _

section chain

variable {operator? : Token.Kind → Option BinaryOp} {precedence : Nat}
  {tighter : List (Token.Kind → Option BinaryOp)} {operand : Parse Expr}

/-- The loop of a chain comes to its end with the tokens at the latest. -/
theorem follows_chainedBehind (hOperators : Parse.Operators operator? precedence)
    (hOperand : Mirrors tokens levels (chained tokens · tighter) operand) {count : Nat}
    (left : Expr) (hInside : s.Inside tokens) (hDepth : s.depth + levels = Parse.nestingLimit)
    (hCount : (s.cursor tokens).rest.length ≤ count) :
    Follows tokens (chainedBehind tokens · operator? tighter left)
      (Parse.chainFrom operator? operand count left) s := by
  induction count using Nat.strongRecOn generalizing left s with
  | _ count ih =>
    refine Answers.of_succ ?_
    simp only [chainedBehind, runAt_current_bind hInside]
    cases hOp : operator? (s.cursor tokens).current.kind with
    | none =>
      rw [Parse.chainFrom_of_none hOp]
      exact Follows.pure hInside left
    | some op =>
      have hKind : (s.cursor tokens).current.kind ≠ .eof := by
        rw [← ((hOperators _ _).mp hOp).2]
        exact op.token_ne_eof
      have hAhead := position_lt hKind
      rw [Place.length_rest_cursor] at hCount
      obtain ⟨count, rfl⟩ : ∃ n, count = n + 1 := ⟨count - 1, by omega⟩
      rw [Parse.chainFrom_of_operator hOp, ← cursor_next]
      simp only [runAt_bind_of_ok (runAt_advance hInside hKind)]
      have hNext := keeps_next hKind
      refine Answers.behind ?_ hNext
      refine (hOperand hNext.inside hDepth).bind fun right s' keeps _ => ?_
      refine ih count (Nat.lt_succ_self _) _ keeps.inside (keeps.depth_eq ▸ hDepth) ?_
      have hBehind : s.position + 1 ≤ s'.position := keeps.position_le
      rw [Place.length_rest_cursor]
      omega

theorem mirrors_chained (hOperators : Parse.Operators operator? precedence)
    (hOperand : Mirrors tokens levels (chained tokens · tighter) operand) :
    Mirrors tokens levels (chained tokens · (operator? :: tighter))
      (Parse.chain operator? operand) := by
  intro s hInside hDepth
  refine Answers.of_succ ?_
  simp only [chained]
  refine (hOperand hInside hDepth).bind fun left s' keeps _ => ?_
  exact follows_chainedBehind hOperators hOperand left keeps.inside (keeps.depth_eq ▸ hDepth)
    (Nat.le_refl _)

end chain

theorem mirrors_expressionOf {operand : Parse Expr}
    (h : Mirrors tokens levels (unary tokens) operand) :
    Mirrors tokens levels (expression tokens) (Parse.expressionOf operand) := by
  have hOperand : Mirrors tokens levels (chained tokens · []) operand := by
    intro s hInside hDepth
    refine Answers.of_succ ?_
    simp only [chained]
    exact h hInside hDepth
  exact mirrors_chained Parse.operators_equality <|
    mirrors_chained Parse.operators_comparison <| mirrors_chained Parse.operators_sum <|
      mirrors_chained Parse.operators_product hOperand

theorem mirrors_operandOf {inner negated : Parse Expr}
    (hInner : Mirrors tokens levels (fun fuel => nested tokens (expression tokens fuel)) inner)
    (hNegated : Mirrors tokens levels (fun fuel => nested tokens (unary tokens fuel)) negated) :
    Mirrors tokens levels (unary tokens) (Parse.operandOf inner negated) := by
  intro s hInside hDepth
  refine Answers.of_succ ?_
  rw [Parse.operandOf_apply]
  by_cases hMinus : (s.cursor tokens).current.kind = .minus
  · have hNext : s.Keeps tokens (next s) := keeps_next (by simp [hMinus])
    simp only [unary, runAt_eat_bind (show Token.Kind.minus ≠ .eof by decide) hInside, hMinus,
      if_true]
    rw [← cursor_next]
    exact ((hNegated.bind fun e => .pure (Expr.unary .neg e)) hNext.inside hDepth).behind hNext
  · simp only [unary, runAt_eat_bind (show Token.Kind.minus ≠ .eof by decide) hInside,
      if_neg hMinus, Bool.false_eq_true, if_false]
    refine Answers.of_succ ?_
    simp only [primary, runAt_current_bind hInside]
    cases hKind : (s.cursor tokens).current.kind with
    | minus => exact absurd hKind hMinus
    | number => exact Mirrors.advance mirrors_literal hInside hDepth (by simp [hKind])
    | identifier =>
      exact Mirrors.advance (fun t => .pure (Expr.var t.lexeme)) hInside hDepth (by simp [hKind])
    | leftParen =>
      exact Mirrors.advance (fun _ => hInner.closed .rightParen _ Expr.group) hInside hDepth
        (by simp [hKind])
    | _ => exact Mirrors.refuse .expression hInside hDepth

theorem mirrors_operand (levels : Nat) :
    Mirrors tokens levels (unary tokens) (Parse.operand levels) := by
  induction levels with
  | zero => exact mirrors_operandOf (mirrors_nested_zero _) (mirrors_nested_zero _)
  | succ levels ih =>
    exact mirrors_operandOf (mirrors_nested_succ (mirrors_expressionOf ih)) (mirrors_nested_succ ih)

theorem mirrors_expression (levels : Nat) :
    Mirrors tokens levels (expression tokens) (Parse.expression levels) :=
  mirrors_expressionOf (mirrors_operand levels)

/-! ### Statements -/

theorem mirrors_condition (opening : Expected) :
    Mirrors tokens levels (condition tokens · opening)
      (Parse.condition (Parse.expression levels) opening) :=
  (Mirrors.expect _ opening).bind fun _ =>
    (mirrors_expression levels).closed .rightParen _ id

theorem mirrors_assignment :
    Mirrors tokens levels (assignment tokens) (Parse.assignment (Parse.expression levels)) :=
  (Mirrors.expectName _).bind fun name => (Mirrors.expect _ _).bind fun _ =>
    (mirrors_expression levels).closed .semicolon _ (Stmt.assign name)

theorem mirrors_expressionStatement :
    Mirrors tokens levels (expressionStatement tokens)
      (Parse.expressionStatement (Parse.expression levels)) :=
  (mirrors_expression levels).closed .semicolon _ Stmt.discard

theorem mirrors_itemOf {statement : Parse Stmt}
    (h : Mirrors tokens levels (Counting.statement tokens) statement) :
    Mirrors tokens levels (item tokens) (Parse.itemOf statement) := by
  intro s hInside hDepth
  unfold Follows
  simp only [item, itemOf, runAt_current_bind hInside, Parse.itemOf, Parse.current_bind]
  by_cases hType : (s.cursor tokens).current.kind.isType = true
  · have hKind : (s.cursor tokens).current.kind ≠ .eof := by
      intro hEof
      rw [hEof] at hType
      cases hType
    simp only [if_pos hType]
    exact Mirrors.advance
      (fun t => (Mirrors.expectName .nameAfterType).closed .semicolon _ (Stmt.declare _))
      hInside hDepth hKind
  · simp only [if_neg hType]
    exact h hInside hDepth

section statement

variable {statement : Parse Stmt} {bound : Nat}

/-- The loop of a sequence comes to its end with the tokens at the latest, since each declaration
and each statement takes a token. -/
theorem follows_itemsBefore {closes : Token.Kind → Bool} (hCloses : closes .eof = true)
    (hSound : Parse.SoundStatement statement (bound + 1))
    (hStatement : Mirrors tokens levels (Counting.statement tokens) statement) {count : Nat}
    (hInside : s.Inside tokens) (hDepth : s.depth + levels = Parse.nestingLimit)
    (hCount : (s.cursor tokens).rest.length ≤ count) :
    Follows tokens (itemsBefore tokens · closes) (Parse.itemsUpTo closes statement count) s := by
  induction count using Nat.strongRecOn generalizing s with
  | _ count ih =>
    refine Answers.of_succ ?_
    simp only [itemsBefore, runAt_current_bind hInside]
    cases hOpen : closes (s.cursor tokens).current.kind with
    | true =>
      rw [Parse.itemsUpTo_of_closes hOpen]
      exact Follows.pure hInside []
    | false =>
      have hKind : (s.cursor tokens).current.kind ≠ .eof := by
        intro hEof
        rw [hEof, hCloses] at hOpen
        cases hOpen
      have hShorter := Cursor.length_advance_lt (Place.kind_stop_cursor s) hKind
      obtain ⟨count, rfl⟩ : ∃ n, count = n + 1 := ⟨count - 1, by omega⟩
      rw [Parse.itemsUpTo_of_open hOpen]
      refine (mirrors_itemOf hStatement hInside hDepth).bind fun first s' keeps hFirst => ?_
      have hFewer := Parse.length_itemOf_lt hSound hFirst (Place.kind_stop_cursor s)
      refine (ih count (Nat.lt_succ_self _) keeps.inside (keeps.depth_eq ▸ hDepth) ?_).bind
        fun others s'' keeps' _ => .pure keeps'.inside _
      omega

theorem mirrors_items {closes : Token.Kind → Bool} (hCloses : closes .eof = true)
    (hSound : Parse.SoundStatement statement (bound + 1))
    (hStatement : Mirrors tokens levels (Counting.statement tokens) statement) :
    Mirrors tokens levels (itemsBefore tokens · closes) (Parse.items closes statement) :=
  fun _ hInside hDepth =>
    follows_itemsBefore hCloses hSound hStatement hInside hDepth (Nat.le_refl _)

theorem mirrors_otherwise
    (hStatement : Mirrors tokens levels (Counting.statement tokens) statement) (test : Expr)
    (body : Stmt) :
    Mirrors tokens levels
      (fun fuel => do
        if ← eat tokens .elseWord then
          return Stmt.ifElse test body (← Counting.statement tokens fuel)
        else return Stmt.ifThen test body)
      (do
        if (← Parse.current).kind = .elseWord then
          let _ ← Parse.advance
          return Stmt.ifElse test body (← statement)
        else return Stmt.ifThen test body) := by
  intro s hInside hDepth
  unfold Follows
  simp only [runAt_eat_bind (show Token.Kind.elseWord ≠ .eof by decide) hInside,
    Parse.current_bind]
  by_cases hElse : (s.cursor tokens).current.kind = .elseWord
  · have hNext : s.Keeps tokens (next s) := keeps_next (by simp [hElse])
    simp only [if_pos hElse, Parse.advance_bind, ← cursor_next]
    have hOtherwise := hStatement.bind fun otherwise => .pure (Stmt.ifElse test body otherwise)
    exact (hOtherwise hNext.inside hDepth).behind hNext
  · simp only [if_neg hElse]
    exact Follows.pure hInside _

theorem mirrors_statementOf (hSound : Parse.SoundStatement statement (bound + 1))
    (hStatement : Mirrors tokens levels (Counting.statement tokens) statement) :
    Mirrors tokens levels (statementInner tokens)
      (Parse.statementOf (Parse.expression levels) statement) := by
  intro s hInside hDepth
  refine Answers.of_succ ?_
  simp only [statementInner, runAt_current_bind hInside, Parse.statementOf_apply]
  cases hKind : (s.cursor tokens).current.kind with
  | printWord =>
    exact Mirrors.advance (fun _ => (mirrors_expression levels).closed .semicolon _ Stmt.print)
      hInside hDepth (by simp [hKind])
  | inputWord =>
    exact Mirrors.advance
      (fun _ => (Mirrors.expectName .nameAfterInput).closed .semicolon _ Stmt.input)
      hInside hDepth (by simp [hKind])
  | ifWord =>
    exact Mirrors.advance
      (fun _ => (mirrors_condition .parenAfterIf).bind fun test => hStatement.bind fun body =>
        mirrors_otherwise hStatement test body)
      hInside hDepth (by simp [hKind])
  | whileWord =>
    exact Mirrors.advance
      (fun _ => (mirrors_condition .parenAfterWhile).bind fun test => hStatement.bind fun body =>
        .pure (Stmt.loop test body))
      hInside hDepth (by simp [hKind])
  | leftBrace =>
    exact Mirrors.advance
      (fun _ => (mirrors_items rfl hSound hStatement).closed .rightBrace _ Stmt.block)
      hInside hDepth (by simp [hKind])
  | identifier =>
    have hNext : s.Keeps tokens (next s) := keeps_next (by simp [hKind])
    have hPeek : tokenAt tokens (s.position + 1) = (s.cursor tokens).advance.current := by
      rw [← cursor_next]
      exact Place.tokenAt_eq hNext.inside
    show Answers tokens s
      (fun fuel => runAt (if (tokenAt tokens (s.position + 1)).kind = .equal then
        assignment tokens fuel else expressionStatement tokens fuel) s)
      (if (s.cursor tokens).advance.current.kind = .equal then _ else _)
    rw [hPeek]
    split
    · exact mirrors_assignment hInside hDepth
    · exact mirrors_expressionStatement hInside hDepth
  | _ => exact mirrors_expressionStatement hInside hDepth

theorem mirrors_statement (levels : Nat) :
    Mirrors tokens levels (Counting.statement tokens) (Parse.statement levels) := by
  induction levels with
  | zero => exact fun _ hInside hDepth => .of_succ (mirrors_nested_zero _ hInside hDepth)
  | succ levels ih =>
    have hInner := mirrors_statementOf (Parse.sound_statement levels) ih
    exact fun _ hInside hDepth => .of_succ (mirrors_nested_succ hInner hInside hDepth)

theorem mirrors_program : Mirrors tokens Parse.nestingLimit (program tokens) Parse.program :=
  mirrors_items rfl (Parse.sound_statement _) (mirrors_statement _)

end statement

end Counting

end Abacus
