import TreeRules.Text.Property

/-!
# Text/Alphanumeric — letters and numerals of every script

A character is alphanumeric when it is alphabetic or its general category is one of the numbers.
ASCII is decided by comparison, which the theorem says is enough for its letters and digits.
-/

namespace TreeRules.Text

/-- Alphabetic, or a number of any kind. -/
def isAlphanumeric (c : Char) : Bool :=
  if c.toNat < 128 then c.isAlphanum
  else Property.isAlphabetic c || Property.isIn c [.nd, .nl, .no]

theorem isAlphanumeric_of_isAlphanum {c : Char} (h : c.isAlphanum = true) :
    isAlphanumeric c = true := by
  have hc : c.toNat < 128 := by
    change (decide (_ ∧ _) || (decide _ && decide _) || (decide _ && decide _)) = true at h
    simp only [Bool.or_eq_true, Bool.and_eq_true, decide_eq_true_eq,
      UInt32.le_iff_toNat_le] at h
    rcases h with (⟨_, h⟩ | ⟨_, h⟩) | ⟨_, h⟩ <;> simp at h <;> omega
  simp [isAlphanumeric, hc, h]

end TreeRules.Text
