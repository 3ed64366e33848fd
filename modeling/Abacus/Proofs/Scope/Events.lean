import Abacus.Scope
import Mathlib.Data.List.Induction

/-! Declare before use, by events.  A program is to its scope the list of what it declares and uses
in reading order.  An event is allowed or not by what is declared before it: in the table the check
starts from, or by an earlier event.  The check accepts a program exactly if all its events are
allowed, and otherwise refuses it at the first that is not and takes back what it declared. -/

namespace Abacus

/-- What a part of a program is to the declarations. -/
inductive Event where
  | declare (type : VarType) (name : String)
  | use (name : String)
deriving DecidableEq, Repr

def Expr.events : Expr → List Event
  | .literal _ => []
  | .var name => [.use name]
  | .group inner => inner.events
  | .unary _ operand => operand.events
  | .binary _ left right => left.events ++ right.events

mutual

/-- The events of a statement.  The target of an assignment comes before the value. -/
def Stmt.events : Stmt → List Event
  | .declare type name => [.declare type name]
  | .assign name value => .use name :: value.events
  | .print value | .discard value => value.events
  | .input name => [.use name]
  | .block body => eventsOfAll body
  | .ifThen test body | .loop test body => test.events ++ body.events
  | .ifElse test body otherwise => test.events ++ (body.events ++ otherwise.events)

def eventsOfAll : List Stmt → List Event
  | [] => []
  | first :: rest => first.events ++ eventsOfAll rest

end

theorem eventsOfAll_append (front back : List Stmt) :
    eventsOfAll (front ++ back) = eventsOfAll front ++ eventsOfAll back := by
  induction front with
  | nil => rfl
  | cons first front ih => rw [List.cons_append, eventsOfAll, ih, eventsOfAll, List.append_assoc]

def Program.events (p : Program) : List Event := eventsOfAll p

namespace Event

variable {table : Store VarType} {events earlier : List Event} {e : Event}

def declaration? : Event → Option (String × VarType)
  | declare type name => some (name, type)
  | use _ => none

/-- The declarations among events, in their order. -/
def declarations (events : List Event) : List (String × VarType) := events.filterMap declaration?

/-- A name is in the table or declared by an earlier event. -/
def Known (table : Store VarType) (earlier : List Event) (name : String) : Prop :=
  table.contains name = true ∨ ∃ type, declare type name ∈ earlier

/-- A name may be used once it is known, and declared as long as it is not. -/
def Allowed (table : Store VarType) (earlier : List Event) : Event → Prop
  | declare _ name => ¬Known table earlier name
  | use name => Known table earlier name

/-- How a check fails at an event. -/
def refusal : Event → ScopeError
  | declare _ name => .redeclared name
  | use name => .undeclared name

/-- Every event is allowed by those before it. -/
def Admissible (table : Store VarType) (events : List Event) : Prop :=
  ∀ before e after, events = before ++ e :: after → e.Allowed table before

theorem admissible_nil : Admissible table [] := by
  intro before e after h
  simp at h

theorem admissible_concat :
    Admissible table (events ++ [e]) ↔ Admissible table events ∧ e.Allowed table events := by
  constructor
  · intro h
    refine ⟨fun before e' after hEvents => ?_, h events e [] rfl⟩
    exact h before e' (after ++ [e]) (by simp [hEvents])
  · rintro ⟨hEvents, hLast⟩ before e' after h
    cases after using List.reverseRecOn with
    | nil =>
      obtain ⟨rfl, hSame⟩ := List.append_inj' h rfl
      obtain ⟨rfl, -⟩ := List.cons.inj hSame
      exact hLast
    | append_singleton after last =>
      rw [← List.cons_append, ← List.append_assoc] at h
      exact hEvents before e' after (List.append_inj_left' h rfl)

/-- Events that are not all allowed have a first one that is not. -/
theorem exists_first_not_allowed (h : ¬Admissible table events) :
    ∃ before e after, events = before ++ e :: after ∧ Admissible table before ∧
      ¬e.Allowed table before := by
  induction events using List.reverseRecOn with
  | nil => exact absurd admissible_nil h
  | append_singleton events e ih =>
    by_cases hEvents : Admissible table events
    · exact ⟨events, e, [], rfl, hEvents, fun hLast => h (admissible_concat.mpr ⟨hEvents, hLast⟩)⟩
    · obtain ⟨before, e', after, rfl, hBefore, hFirst⟩ := ih hEvents
      exact ⟨before, e', after ++ [e], by simp, hBefore, hFirst⟩

/-! ### The check as a run through the events -/

/-- What a check does at an event. -/
def check : Event → Scope.Check Unit
  | declare type name => Scope.declare type name
  | use name => Scope.require name

/-- The check of events, one after the other. -/
def checkEach (events : List Event) : Scope.Check Unit := forM events check

theorem checkEach_append (events more : List Event) :
    checkEach (events ++ more) = (do checkEach events; checkEach more) :=
  List.forM_append

theorem checkEach_singleton (e : Event) : checkEach [e] = e.check := by
  simp [checkEach]

theorem checkEach_append_of_ok {more : List Event} {scope after : Scope}
    (h : checkEach events scope = .ok () after) :
    checkEach (events ++ more) scope = checkEach more after := by
  rw [checkEach_append]
  show EStateM.bind _ _ _ = _
  rw [EStateM.bind, h]

/-- The scope of a check that started from a table and has come behind the given events. -/
def scopeBehind (table : Store VarType) (earlier : List Event) : Scope where
  declared := ⟨table.entries ++ declarations earlier⟩
  added := ((declarations earlier).map Prod.fst).reverse

theorem mem_declarations {type : VarType} {name : String} :
    (name, type) ∈ declarations events ↔ declare type name ∈ events := by
  rw [declarations, List.mem_filterMap]
  constructor
  · rintro ⟨e, hMem, hDeclaration⟩
    cases e <;> cases hDeclaration
    exact hMem
  · intro hMem
    exact ⟨_, hMem, rfl⟩

theorem contains_scopeBehind {name : String} :
    (scopeBehind table earlier).declared.contains name = true ↔ Known table earlier name := by
  simp only [scopeBehind, Known, Store.contains_eq_true_iff, List.mem_append, exists_or,
    mem_declarations]

theorem contains_scopeBehind_eq_false {name : String} :
    (scopeBehind table earlier).declared.contains name = false ↔ ¬Known table earlier name := by
  rw [← contains_scopeBehind, Bool.not_eq_true]

theorem declared_scopeBehind_append (more : List Event) :
    (scopeBehind table (earlier ++ more)).declared =
      (scopeBehind (scopeBehind table earlier).declared more).declared := by
  simp [scopeBehind, declarations]

theorem allowed_append {more : List Event} :
    e.Allowed table (earlier ++ more) ↔ e.Allowed (scopeBehind table earlier).declared more := by
  have hKnown (name : String) : Known table (earlier ++ more) name ↔
      Known (scopeBehind table earlier).declared more name := by
    rw [← contains_scopeBehind, ← contains_scopeBehind, declared_scopeBehind_append]
  cases e with
  | declare type name => exact not_congr (hKnown name)
  | use name => exact hKnown name

/-- Events go on in the table that the ones before them leave. -/
theorem admissible_append {more : List Event} :
    Admissible table (events ++ more) ↔
      Admissible table events ∧ Admissible (scopeBehind table events).declared more := by
  induction more using List.reverseRecOn with
  | nil => simp [admissible_nil]
  | append_singleton more e ih =>
    rw [← List.append_assoc, admissible_concat, admissible_concat, ih, allowed_append, and_assoc]

theorem scopeBehind_declare (type : VarType) (name : String) :
    scopeBehind table (earlier ++ [declare type name]) =
      { declared := ⟨(scopeBehind table earlier).declared.entries ++ [(name, type)]⟩,
        added := name :: (scopeBehind table earlier).added } := by
  simp [scopeBehind, declarations, declaration?]

theorem scopeBehind_use (name : String) :
    scopeBehind table (earlier ++ [use name]) = scopeBehind table earlier := by
  simp [scopeBehind, declarations, declaration?]

theorem check_of_allowed (h : e.Allowed table earlier) :
    e.check (scopeBehind table earlier) = .ok () (scopeBehind table (earlier ++ [e])) := by
  cases e with
  | declare type name =>
    have hNew := contains_scopeBehind_eq_false.mpr h
    rw [scopeBehind_declare, check, Scope.declare, hNew, Store.set_of_contains_eq_false hNew]
    rfl
  | use name =>
    have hKnown := contains_scopeBehind.mpr h
    rw [scopeBehind_use, check, Scope.require, hKnown]
    rfl

theorem check_of_not_allowed (h : ¬e.Allowed table earlier) :
    e.check (scopeBehind table earlier) = .error e.refusal (scopeBehind table earlier) := by
  cases e with
  | declare type name =>
    have hKnown := contains_scopeBehind.mpr (not_not.mp h)
    rw [check, Scope.declare, hKnown]
    rfl
  | use name =>
    have hNew := contains_scopeBehind_eq_false.mpr h
    rw [check, Scope.require, hNew]
    rfl

/-- A check goes through allowed events and declares what they declare. -/
theorem checkEach_of_admissible (h : Admissible table events) :
    checkEach events (scopeBehind table []) = .ok () (scopeBehind table events) := by
  induction events using List.reverseRecOn with
  | nil => rfl
  | append_singleton events e ih =>
    obtain ⟨hEvents, hLast⟩ := admissible_concat.mp h
    rw [checkEach_append_of_ok (ih hEvents)]
    show EStateM.bind e.check _ _ = _
    rw [EStateM.bind, check_of_allowed hLast]
    rfl

/-- A check stops at the first event that is not allowed. -/
theorem checkEach_of_not_allowed {before : List Event} (hBefore : Admissible table before)
    (h : ¬e.Allowed table before) (after : List Event) :
    checkEach (before ++ e :: after) (scopeBehind table []) =
      .error e.refusal (scopeBehind table before) := by
  rw [checkEach_append_of_ok (checkEach_of_admissible hBefore)]
  show EStateM.bind e.check _ _ = _
  rw [EStateM.bind, check_of_not_allowed h]

/-- Undoing takes back exactly what was declared since the start. -/
theorem undo_scopeBehind (h : Admissible table earlier) :
    (scopeBehind table earlier).undo = { declared := table } := by
  induction earlier using List.reverseRecOn with
  | nil => simp [Scope.undo, scopeBehind, declarations]
  | append_singleton earlier e ih =>
    obtain ⟨hEarlier, hLast⟩ := admissible_concat.mp h
    cases e with
    | declare type name =>
      have hNew := contains_scopeBehind_eq_false.mpr hLast
      rw [scopeBehind_declare, Scope.undo, List.foldl_cons, Store.erase_append_self hNew]
      exact ih hEarlier
    | use name =>
      rw [scopeBehind_use]
      exact ih hEarlier

/-- Behind allowed events a name has the type that it has in the table or in its declaration. -/
theorem get?_scopeBehind (h : Admissible table events) {name : String} {type : VarType} :
    (scopeBehind table events).declared.get? name = some type ↔
      table.get? name = some type ∨ declare type name ∈ events := by
  induction events using List.reverseRecOn with
  | nil => simp [scopeBehind, declarations]
  | append_singleton events e ih =>
    obtain ⟨hEvents, hLast⟩ := admissible_concat.mp h
    cases e with
    | use other => simp [scopeBehind_use, ih hEvents]
    | declare type' other =>
      have hNew := contains_scopeBehind_eq_false.mpr hLast
      rw [scopeBehind_declare, ← Store.set_of_contains_eq_false hNew]
      by_cases hName : name = other
      · -- The name is new, so neither the table nor an earlier event gives it a type.
        subst hName
        have hTable : table.get? name ≠ some type := by
          intro hGet
          exact hLast (.inl (by simp [Store.contains, hGet]))
        have hEarlier : declare type name ∉ events := fun hMem => hLast (.inr ⟨type, hMem⟩)
        simp [Store.get?_set_self, hTable, hEarlier, eq_comm]
      · simp [Store.get?_set_ne _ _ hName, ih hEvents, hName]

end Event

/-! ### The check of a tree -/

namespace Scope

open Event

theorem checkExpr_eq (e : Expr) : checkExpr e = checkEach e.events := by
  induction e with
  | literal value => rfl
  | var name => rw [checkExpr, Expr.events, checkEach_singleton, Event.check]
  | group inner ih => exact ih
  | unary op operand ih => exact ih
  | binary op left right ihLeft ihRight =>
    rw [checkExpr, Expr.events, checkEach_append, ihLeft, ihRight]

mutual

theorem checkStmt_eq : (s : Stmt) → checkStmt s = checkEach s.events
  | .declare _ _ | .input _ => by rw [checkStmt, Stmt.events, checkEach_singleton, Event.check]
  | .assign name value => by
    rw [checkStmt, checkExpr_eq]
    rfl
  | .print value | .discard value => by rw [checkStmt, checkExpr_eq, Stmt.events]
  | .block body => by rw [checkStmt, checkAll_eq body, Stmt.events]
  | .ifThen test body | .loop test body => by
    rw [checkStmt, checkExpr_eq, checkStmt_eq body, Stmt.events, checkEach_append]
  | .ifElse test body otherwise => by
    rw [checkStmt, checkExpr_eq, checkStmt_eq body, checkStmt_eq otherwise, Stmt.events,
      checkEach_append, checkEach_append]

/-- To check statements is to check their events. -/
theorem checkAll_eq : (body : List Stmt) → checkAll body = checkEach (eventsOfAll body)
  | [] => rfl
  | first :: rest => by
    rw [checkAll, checkStmt_eq first, checkAll_eq rest, eventsOfAll, checkEach_append]

end

/-- The check of a program is that of its events, from the table and with an empty log. -/
theorem check_eq (scope : Scope) (p : Program) :
    scope.check p =
      match checkEach p.events (scopeBehind scope.declared []) with
      | .ok () after => (.ok (), { after with added := [] })
      | .error e after => (.error e, after.undo) := by
  have hStart : { scope with added := [] } = scopeBehind scope.declared [] := by
    simp [scopeBehind, declarations]
  rw [check, checkAll_eq, hStart]
  rfl

variable {scope : Scope} {p : Program}

theorem check_of_admissible (h : Admissible scope.declared p.events) :
    scope.check p = (.ok (), { declared := (scopeBehind scope.declared p.events).declared }) := by
  rw [check_eq, checkEach_of_admissible h]

theorem check_of_not_allowed {before after : List Event} {e : Event}
    (hEvents : p.events = before ++ e :: after) (hBefore : Admissible scope.declared before)
    (h : ¬e.Allowed scope.declared before) :
    scope.check p = (.error e.refusal, { declared := scope.declared }) := by
  rw [check_eq, hEvents, checkEach_of_not_allowed hBefore h after]
  simp only [undo_scopeBehind hBefore]

theorem check_eq_ok_iff {after : Scope} :
    scope.check p = (.ok (), after) ↔ Admissible scope.declared p.events ∧
      after = { declared := (scopeBehind scope.declared p.events).declared } := by
  by_cases h : Admissible scope.declared p.events
  · simp [check_of_admissible h, h, eq_comm]
  · obtain ⟨before, e, _, hEvents, hBefore, hFirst⟩ := exists_first_not_allowed h
    simp [check_of_not_allowed hEvents hBefore hFirst, h]

/-- Programs that pass the check one after the other pass it as one. -/
theorem check_append {p' : Program} {middle after : Scope} (h : scope.check p = (.ok (), middle))
    (h' : middle.check p' = (.ok (), after)) : scope.check (p ++ p') = (.ok (), after) := by
  obtain ⟨hFirst, rfl⟩ := check_eq_ok_iff.mp h
  obtain ⟨hSecond, rfl⟩ := check_eq_ok_iff.mp h'
  have hEvents : Program.events (p ++ p') = p.events ++ p'.events := eventsOfAll_append p p'
  rw [check_eq_ok_iff, hEvents, declared_scopeBehind_append]
  exact ⟨admissible_append.mpr ⟨hFirst, hSecond⟩, rfl⟩

/-- The check of a program, whatever was checked before it.  It accepts the program exactly if every
name is used only when it is in the table or declared by an earlier event, and declared only when it
is neither; then the table has the declarations of the program behind its own.  Otherwise it
refuses the program for the first event that is not allowed, and the table is as it was. -/
theorem check_declares_or_refuses (scope : Scope) (p : Program) :
    ((scope.check p).1 = .ok () ↔ Admissible scope.declared p.events) ∧
    ((scope.check p).1 = .ok () →
      (scope.check p).2.declared = ⟨scope.declared.entries ++ declarations p.events⟩ ∧
      ∀ name type, (scope.check p).2.declared.get? name = some type ↔
        scope.declared.get? name = some type ∨ .declare type name ∈ p.events) ∧
    ∀ error, (scope.check p).1 = .error error →
      (scope.check p).2.declared = scope.declared ∧
      ∃ before e after, p.events = before ++ e :: after ∧ Admissible scope.declared before ∧
        ¬e.Allowed scope.declared before ∧ error = e.refusal := by
  by_cases h : Admissible scope.declared p.events
  · rw [check_of_admissible h]
    refine ⟨iff_of_true rfl h, fun _ => ⟨rfl, fun name type => get?_scopeBehind h⟩, ?_⟩
    intro error hError
    cases hError
  · obtain ⟨before, e, after, hEvents, hBefore, hFirst⟩ := exists_first_not_allowed h
    rw [check_of_not_allowed hEvents hBefore hFirst]
    refine ⟨iff_of_false nofun h, nofun, fun error hError => ?_⟩
    cases hError
    exact ⟨rfl, before, e, after, hEvents, hBefore, hFirst, rfl⟩

end Scope

end Abacus
