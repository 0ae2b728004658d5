import TreeRules.Notice

/-!
# Proofs/Simulation — computations that answer alike

A computation with a state is looked at through its `answer` and the state `after` it; the notices
are left aside.  Two computations `Agree` along a relation between their states if related states
give equal answers and stay related.  With one state there are two more ways to speak of a
computation: it `Keeps` a property of the state, and it `Yields` an answer from every state with a
property that it keeps.  All three compose as programs do, so that what is known of one step is
carried through a run and nothing else is said about the run.
-/

namespace TreeRules

variable {σ τ α β : Type}

/-! ## Answer and state -/

/-- What a computation answers from a state. -/
def answer (x : StateT σ Logged α) (s : σ) : α := (x s).value.1

/-- The state that a computation leaves. -/
def after (x : StateT σ Logged α) (s : σ) : σ := (x s).value.2

@[simp] theorem answer_pure (a : α) (s : σ) : answer (pure a) s = a := rfl

@[simp] theorem after_pure (a : α) (s : σ) : after (pure a) s = s := rfl

@[simp] theorem answer_bind (x : StateT σ Logged α) (f : α → StateT σ Logged β) (s : σ) :
    answer (x >>= f) s = answer (f (answer x s)) (after x s) := rfl

@[simp] theorem after_bind (x : StateT σ Logged α) (f : α → StateT σ Logged β) (s : σ) :
    after (x >>= f) s = after (f (answer x s)) (after x s) := rfl

/-- A computation matters at its state only, and what follows it at its answer and the state that
it leaves; the notices are the same, too. -/
theorem bind_congr_at {x y : StateT σ Logged α} {f g : α → StateT σ Logged β} {s : σ}
    (h : x s = y s) (hf : f (answer x s) (after x s) = g (answer x s) (after x s)) :
    (x >>= f) s = (y >>= g) s := by
  change (x s >>= fun p => f p.1 p.2) = (y s >>= fun p => g p.1 p.2)
  rw [← h]
  refine Logged.ext ?_ ?_
  · exact congrArg (fun r => r.value) hf
  · exact congrArg (fun r => (x s).notices ++ r.notices) hf

/-- What follows counts for the one answer that there is. -/
theorem bind_congr_answer {x : StateT σ Logged α} {f g : α → StateT σ Logged β} {s : σ}
    (h : f (answer x s) = g (answer x s)) : (x >>= f) s = (x >>= g) s :=
  bind_congr_at rfl (congrFun h (after x s))

@[simp] theorem answer_lift (x : Logged α) (s : σ) :
    answer (liftM x : StateT σ Logged α) s = x.value := rfl

@[simp] theorem after_lift (x : Logged α) (s : σ) :
    after (liftM x : StateT σ Logged α) s = s := rfl

/-- A loop leaves the state as its rounds do, one after the other. -/
theorem after_forM {f : α → StateT σ Logged Unit} (as : List α) (s : σ) :
    after (as.forM f) s = as.foldl (fun s a => after (f a) s) s := by
  induction as generalizing s with
  | nil => rfl
  | cons a as ih => exact ih _

@[simp] theorem answer_get (s : σ) : answer (get : StateT σ Logged σ) s = s := rfl

@[simp] theorem after_get (s : σ) : after (get : StateT σ Logged σ) s = s := rfl

/-! ## Agreement -/

/-- From related states both computations answer alike and leave related states. -/
def Agree (R : σ → τ → Prop) (x : StateT σ Logged α) (y : StateT τ Logged α) : Prop :=
  ∀ s t, R s t → answer x s = answer y t ∧ R (after x s) (after y t)

/-- Both states have a property. -/
def Both (P : σ → Prop) (s t : σ) : Prop := P s ∧ P t

variable {R : σ → τ → Prop}

theorem agree_pure (a : α) : Agree R (pure a) (pure a) := fun _ _ h => ⟨rfl, h⟩

/-- What is only reported makes no difference. -/
theorem agree_lift {x y : Logged α} (h : x.value = y.value) : Agree R (liftM x) (liftM y) :=
  fun _ _ hR => ⟨h, hR⟩

/-- **Computations that agree, one after the other, agree.** -/
theorem Agree.bind {x : StateT σ Logged α} {y : StateT τ Logged α}
    {f : α → StateT σ Logged β} {g : α → StateT τ Logged β}
    (h : Agree R x y) (hf : ∀ a, Agree R (f a) (g a)) : Agree R (x >>= f) (y >>= g) := by
  intro s t hR
  obtain ⟨ha, hR'⟩ := h s t hR
  rw [answer_bind, after_bind, answer_bind, after_bind, ← ha]
  exact hf _ _ _ hR'

/-- A look at the state; what related states have in common is then the same. -/
theorem agree_get {f : σ → StateT σ Logged β} {g : τ → StateT τ Logged β}
    (h : ∀ s t, R s t → Agree R (f s) (g t)) : Agree R (get >>= f) (get >>= g) :=
  fun s t hR => h s t hR s t hR

/-- A list of computations, one after the other. -/
theorem Agree.mapM {f : α → StateT σ Logged β} {g : α → StateT τ Logged β} :
    ∀ {as : List α}, (∀ a ∈ as, Agree R (f a) (g a)) → Agree R (as.mapM f) (as.mapM g)
  | [], _ => by
    rw [List.mapM_nil, List.mapM_nil]
    exact agree_pure _
  | a :: as, h => by
    rw [List.mapM_cons, List.mapM_cons]
    refine (h a List.mem_cons_self).bind fun b => ?_
    exact (Agree.mapM fun c hc => h c (List.mem_cons_of_mem a hc)).bind fun _ => agree_pure _

/-! ## Invariants -/

/-- A property of the state that a computation does not break. -/
def Keeps (P : σ → Prop) (x : StateT σ Logged α) : Prop := ∀ s, P s → P (after x s)

variable {P : σ → Prop}

theorem keeps_pure (a : α) : Keeps P (pure a) := fun _ h => h

theorem keeps_lift (x : Logged α) : Keeps P (liftM x) := fun _ h => h

/-- Agreement from equal states with a property says that the property is kept. -/
theorem Agree.keeps {x : StateT σ Logged α} (h : Agree (fun s t => s = t ∧ P s) x x) :
    Keeps P x := fun s hs => (h s s ⟨rfl, hs⟩).2.2

/-- Computations that keep a property, one after the other, keep it. -/
theorem Keeps.bind {x : StateT σ Logged α} {f : α → StateT σ Logged β}
    (h : Keeps P x) (hf : ∀ a, Keeps P (f a)) : Keeps P (x >>= f) :=
  fun s hs => hf _ _ (h s hs)

theorem Keeps.forM {f : α → StateT σ Logged Unit} :
    ∀ {as : List α}, (∀ a ∈ as, Keeps P (f a)) → Keeps P (as.forM f)
  | [], _ => keeps_pure _
  | a :: _, h => (h a List.mem_cons_self).bind fun _ =>
    Keeps.forM fun c hc => h c (List.mem_cons_of_mem a hc)

/-! ## Known answers -/

/-- From a state with the property the answer is known, and the property is not broken. -/
def Yields (P : σ → Prop) (x : StateT σ Logged α) (a : α) : Prop :=
  ∀ s, P s → answer x s = a ∧ P (after x s)

theorem yields_pure (a : α) : Yields P (pure a) a := fun _ h => ⟨rfl, h⟩

theorem yields_lift (x : Logged α) : Yields P (liftM x) x.value := fun _ h => ⟨rfl, h⟩

/-- A look at the state: every state with the property leads to the same answer. -/
theorem yields_get {f : σ → StateT σ Logged β} {b : β} (h : ∀ s, P s → Yields P (f s) b) :
    Yields P (get >>= f) b := fun s hs => h s hs s hs

/-- What is yielded may be counted on in what follows. -/
theorem Yields.bind {x : StateT σ Logged α} {f : α → StateT σ Logged β} {a : α} {b : β}
    (h : Yields P x a) (hf : Yields P (f a) b) : Yields P (x >>= f) b := by
  intro s hs
  obtain ⟨ha, hs'⟩ := h s hs
  rw [answer_bind, after_bind, ha]
  exact hf _ hs'

theorem Yields.mapM {f : α → StateT σ Logged β} {g : α → β} :
    ∀ {as : List α}, (∀ a ∈ as, Yields P (f a) (g a)) → Yields P (as.mapM f) (as.map g)
  | [], _ => by
    rw [List.mapM_nil]
    exact yields_pure _
  | a :: as, h => by
    rw [List.mapM_cons]
    refine (h a List.mem_cons_self).bind ?_
    exact (Yields.mapM fun c hc => h c (List.mem_cons_of_mem a hc)).bind (yields_pure _)

end TreeRules
