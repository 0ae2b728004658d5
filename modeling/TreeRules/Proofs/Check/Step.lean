import TreeRules.Proofs.Check.Number
import TreeRules.Proofs.Number.Quotient

/-!
# Proofs/Check/Step — which multiples of a step are refused

Main statement: a number that is written as a whole multiple of the step, of either sign, is
reported for its step if and only if the quotient of the doubles overflows (`check_of_multiple`).
It can overflow, and then a multiple is refused (`great_multiple_shows`).
-/

namespace TreeRules.Check.Number

variable {value : String} {options : Options} {x y step : Binary64}

/-- A number is reported for its step just if it is off the step. -/
theorem kindStep_mem_check_iff (h : ofText? value = some x) :
    kindStep ∈ check value options ↔ offStep x options = true := by
  have hkinds : kindStep ≠ kindMin ∧ kindStep ≠ kindMax ∧ kindStep ≠ kindNoScientific := by decide
  rw [check, h]
  simp only [List.mem_append, mem_failing_iff, hkinds, and_false, false_or, or_false, and_true]

/-- A step of either sign is asked for without its sign. -/
theorem offStep_eq (hstep : options.number? "step" = some step)
    (hpos : Binary64.zero.lt step.abs = true) :
    offStep x options = !x.isMultipleOf step.abs := by
  have hne : step.eq .zero = false := by
    cases step with
    | nan => rfl
    | infinite negative => cases negative <;> rfl
    | finite negative r =>
      have hplace : (0 : ℤ) < r.val := of_decide_eq_true hpos
      refine decide_eq_false ?_
      change ¬ (if negative then -(r.val : ℤ) else r.val) = 0
      split <;> omega
  rw [offStep, hstep]
  dsimp only
  rw [hne, Bool.not_false, Bool.true_and]

example : check "0.3" (Table.empty.insert "step" (.string "-0.1")) = [] := by decide +kernel

/-- **A whole multiple of a step is refused just if the quotient of the doubles overflows.** -/
theorem check_of_multiple {p q : Numeral} {k : ℤ} (hx : x.isFinite = true) (hy : y.isFinite = true)
    (hpos : Binary64.zero.lt y = true) (hp : p.text = x.text) (hq : q.text = y.text)
    (h : p.value = k * q.value) :
    x.isMultipleOf y = (x.div y).isFinite ∧
      ∀ value options step, ofText? value = some x → Options.number? options "step" = some step →
        step.abs = y → (kindStep ∈ check value options ↔ (x.div y).isFinite = false) := by
  have hmultiple := Binary64.isMultipleOf_of_multiple hx hy hpos hp hq h
  refine ⟨hmultiple, ?_⟩
  rintro value options step hvalue hstep rfl
  rw [kindStep_mem_check_iff hvalue, offStep_eq hstep hpos, hmultiple, Bool.not_eq_true_eq_eq_false]

/-- The digit one with zeros behind it. -/
def powerNumeral (zeros : ℕ) : Numeral where
  negative := false
  whole := '1' :: List.replicate zeros '0'
  fraction := []
  whole_ne_nil := List.cons_ne_nil _ _
  isDigit_whole := by
    rw [List.all_cons, List.all_replicate]
    split <;> decide
  isDigit_fraction := rfl

/-- Ten times a step of `300` digits passes, although neither fits into the exact test. -/
theorem check_of_multiple_of_great :
    let x := Binary64.ofDecimal false 1 300
    let y := Binary64.ofDecimal false 1 299
    let options : Options := Table.empty.insert "step" (.string "1e299")
    (powerNumeral 300).value = (10 : ℤ) * (powerNumeral 299).value ∧
      ¬ Fits (powerNumeral 300) (powerNumeral 299) ∧ x.isMultipleOf y = true ∧
      kindStep ∉ check "1e300" options := by
  intro x y options
  have hvalue : (powerNumeral 300).value = (10 : ℤ) * (powerNumeral 299).value := by decide +kernel
  have hquotient : (x.div y).isFinite = true := by decide +kernel
  have hnumber : (powerNumeral 300).text = x.text := by decide +kernel
  have hstep : (powerNumeral 299).text = y.text := by decide +kernel
  obtain ⟨hpasses, hreported⟩ := check_of_multiple (by decide +kernel) (by decide +kernel)
    (by decide +kernel) hnumber hstep hvalue
  have hiff := hreported "1e300" options y (by decide +kernel) (by decide +kernel)
    (by decide +kernel)
  refine ⟨hvalue, by decide +kernel, hpasses.trans hquotient, fun hmem => ?_⟩
  exact absurd (hquotient.symm.trans (hiff.1 hmem)) (by decide)

/-- The number `1e308` is a whole multiple of `1e-10`, but it is refused. -/
theorem great_multiple_shows :
    let x := Binary64.ofDecimal false 1 308
    let y := Binary64.ofDecimal false 1 (-10)
    let options : Options := Table.empty.insert "step" (.string "1e-10")
    x.isFinite = true ∧ y.isFinite = true ∧ Binary64.zero.lt y = true ∧
      (∃ p q : Numeral, p.text = x.text ∧ q.text = y.text ∧ p.value = (10 ^ 318 : ℤ) * q.value) ∧
      x.isMultipleOf y = false ∧ ofText? "1e308" = some x ∧
      options.number? "step" = some y ∧ check "1e308" options = [kindStep] := by
  refine ⟨by decide +kernel, by decide +kernel, by decide +kernel,
    ⟨powerNumeral 308,
      ⟨false, ['0'], List.replicate 9 '0' ++ ['1'], by decide, by decide, by decide⟩,
      by decide +kernel, by decide +kernel, by decide +kernel⟩, by decide +kernel,
    by decide +kernel, by decide +kernel, by decide +kernel⟩

end TreeRules.Check.Number
