/-! Sets of characters given as ranges of code points. -/

namespace Abacus.Text

/-- A set of characters, as closed ranges of code points. -/
abbrev Ranges := List (Nat × Nat)

/-- Whether a range of the set holds the code point of `c`. -/
def Ranges.has (ranges : Ranges) (c : Char) : Bool :=
  ranges.any fun range => range.1 ≤ c.toNat && c.toNat ≤ range.2

theorem Ranges.has_iff {ranges : Ranges} {c : Char} :
    ranges.has c = true ↔ ∃ range ∈ ranges, range.1 ≤ c.toNat ∧ c.toNat ≤ range.2 := by
  simp [Ranges.has]

theorem Ranges.has_of_lt {ranges : Ranges} {bound : Nat} (above : ranges.all (bound ≤ ·.1) = true)
    {c : Char} (h : c.toNat < bound) : ranges.has c = false := by
  rw [← Bool.not_eq_true, has_iff]
  rintro ⟨range, member, low, -⟩
  have start : bound ≤ range.1 := by simpa using List.all_eq_true.mp above range member
  omega

end Abacus.Text
