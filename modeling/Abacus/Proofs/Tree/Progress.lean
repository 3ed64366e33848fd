import Abacus.Proofs.Tree.Reading

/-! Parsers that go forward.  Whether it succeeds or fails, such a parser leaves the cursor where it
was or ahead of that, and an error that names a token names the one at the cursor.  A parser made of
such parsers is one of them. -/

namespace Abacus

/-- From the first cursor one comes to the second by reading. -/
structure Cursor.Leads (c c' : Cursor) : Prop where
  stop_eq : c'.stop = c.stop
  suffix : c'.rest <:+ c.rest

namespace Cursor.Leads

variable {c c' c'' : Cursor}

theorem refl (c : Cursor) : c.Leads c := ⟨rfl, List.suffix_rfl⟩

theorem trans (h : c.Leads c') (h' : c'.Leads c'') : c.Leads c'' :=
  ⟨h'.stop_eq.trans h.stop_eq, h'.suffix.trans h.suffix⟩

theorem advance (c : Cursor) : c.Leads c.advance := ⟨rfl, List.tail_suffix _⟩

theorem length_le (h : c.Leads c') : c'.rest.length ≤ c.rest.length := h.suffix.length_le

end Cursor.Leads

/-- The token that an error names. -/
def SyntaxError.found? : SyntaxError → Option Token
  | unexpected found _ | tooDeep found _ => some found
  | invalidNumber _ => none

namespace Parse

variable {α β : Type} {c : Cursor}

/-- Where the cursor is left. -/
def cursorAfter : EStateM.Result SyntaxError Cursor α → Cursor
  | .ok _ c | .error _ c => c

/-- The parser goes forward, and its errors are at the cursor. -/
structure Orderly (p : Parse α) : Prop where
  leads (c : Cursor) : c.Leads (cursorAfter (p c))
  found {c : Cursor} {e : SyntaxError} {c' : Cursor} (h : p c = .error e c') :
    ∀ t ∈ e.found?, t = c'.current

/-- Behind what the first parser reads, the others go forward. -/
theorem leads_bind {start : Cursor} {p : Parse α} {f : α → Parse β}
    (h : start.Leads (cursorAfter (p c))) (hf : ∀ a, Orderly (f a)) :
    start.Leads (cursorAfter ((p >>= f) c)) := by
  cases hp : p c with
  | ok a c' =>
    rw [hp] at h
    rw [bind_of_ok hp]
    exact h.trans ((hf a).leads c')
  | error e c' =>
    rw [hp] at h
    rw [bind_of_error hp]
    exact h

namespace Orderly

theorem pure (a : α) : Orderly (pure a) := ⟨.refl, nofun⟩

theorem invalid (lexeme : String) : Orderly (throw (.invalidNumber lexeme) : Parse α) := by
  refine ⟨.refl, ?_⟩
  intro c e c' h
  cases h
  nofun

theorem refuse (expected : Expected) : Orderly (refuse expected : Parse α) := by
  refine ⟨.refl, ?_⟩
  intro c e c' h t ht
  cases h
  exact (Option.some.inj ht).symm

theorem tooDeep : Orderly (tooDeep : Parse α) := by
  refine ⟨.refl, ?_⟩
  intro c e c' h t ht
  cases h
  exact (Option.some.inj ht).symm

theorem current : Orderly current := ⟨.refl, nofun⟩

theorem advance : Orderly advance := ⟨.advance, nofun⟩

theorem get : Orderly (get : Parse Cursor) := ⟨.refl, nofun⟩

theorem expect (kind : Token.Kind) (expected : Expected) : Orderly (expect kind expected) := by
  constructor
  · intro c
    unfold Parse.expect
    split
    · exact .advance c
    · exact .refl c
  · intro c e c' h
    unfold Parse.expect at h
    split at h
    · cases h
    · exact (refuse expected).found h

theorem bind {p : Parse α} {f : α → Parse β} (h : Orderly p) (hf : ∀ a, Orderly (f a)) :
    Orderly (p >>= f) := by
  constructor
  · exact fun c => leads_bind (h.leads c) hf
  · intro c e c'' hError
    cases hp : p c with
    | ok a c' => exact (hf a).found ((bind_of_ok hp f).symm.trans hError)
    | error e' c' =>
      cases (bind_of_error hp f).symm.trans hError
      exact h.found hp

theorem length_le {p : Parse α} (h : Orderly p) {a : α} {c' : Cursor} (hp : p c = .ok a c') :
    c'.rest.length ≤ c.rest.length := by
  have hLeads := h.leads c
  rw [hp] at hLeads
  exact hLeads.length_le

theorem expectName (expected : Expected) : Orderly (expectName expected) :=
  (expect _ _).bind fun t => pure t.lexeme

end Orderly

end Parse

end Abacus
