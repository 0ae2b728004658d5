import TreeRules.Proofs.Path.Cache
import TreeRules.Validator.Basic

/-!
# Proofs/Validator/Memories — which memories a validator can tell apart

Of what validators remember, the paths never show as long as they are kept soundly, and the patterns
show to the pattern validator alone.  So a validator answers alike from any two memories whose paths
are sound, unless it is the pattern validator and the patterns make a difference to it
(`Validator.agree_apply`).
-/

namespace TreeRules

variable {α : Type} {Q : Check.Pattern.Memory → Check.Pattern.Memory → Prop}

/-- Memories whose paths are sound and whose patterns are related. -/
def Memories.Alike (Q : Check.Pattern.Memory → Check.Pattern.Memory → Prop) (m m' : Memories) :
    Prop := Both Resolver.Sound m.paths m'.paths ∧ Q m.patterns m'.patterns

/-- Memories whose paths are sound and whose patterns have a property. -/
def Memories.Sound (P : Check.Pattern.Memory → Prop) (m : Memories) : Prop :=
  m.paths.Sound ∧ P m.patterns

theorem Memories.alike_both_iff {P : Check.Pattern.Memory → Prop} {m m' : Memories} :
    m.Alike (Both P) m' ↔ m.Sound P ∧ m'.Sound P := and_and_and_comm

theorem Checking.agree_withPaths {x : StateT Resolver Logged α}
    (h : Agree (Both Resolver.Sound) x x) :
    Agree (Memories.Alike Q) (withPaths x) (withPaths x) := fun m m' hm =>
  ⟨(h m.paths m'.paths hm.1).1, (h m.paths m'.paths hm.1).2, hm.2⟩

theorem Checking.agree_withPatterns {x : StateT Check.Pattern.Memory Logged α}
    (h : Agree Q x x) : Agree (Memories.Alike Q) (withPatterns x) (withPatterns x) :=
  fun m m' hm => ⟨(h m.patterns m'.patterns hm.2).1, hm.1, (h m.patterns m'.patterns hm.2).2⟩

namespace Validator

/-- **Validators answer alike** from memories with sound paths, if the patterns are related in a way
that no check for a pattern can see. -/
theorem agree_apply {v : Validator} {value : String} {options : Options} {d : Document} {n : Nat}
    (h : v = .pattern →
      Agree Q (Check.Pattern.check value options) (Check.Pattern.check value options)) :
    Agree (Memories.Alike Q) (v.apply value options d n) (v.apply value options d n) := by
  cases v with
  | number => exact agree_pure _
  | range => exact agree_pure _
  | pattern => exact Checking.agree_withPatterns (h rfl)
  | mustNotBeEqual =>
    exact Checking.agree_withPaths (Check.Equality.agree_mustNotBeEqual d n options)
  | mustBeEqual => exact Checking.agree_withPaths (Check.Equality.agree_mustBeEqual d n options)
  | custom test => exact agree_pure _

end Validator

end TreeRules
