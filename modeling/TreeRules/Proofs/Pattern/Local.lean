import TreeRules.Pattern.Layout
import TreeRules.Proofs.Pattern.Backend

/-!
# Proofs/Pattern/Local — readers that do not look behind a closing parenthesis

A reader takes a front of the text and leaves the rest.  If it stops before a closing parenthesis,
or right at it, then what stands from there on makes no difference, and neither does the end of the
text (`LocalOn.exchange`).  If it stops before the end of the text, then a closing parenthesis may
follow, unless a comment takes this too, and so may a line end, which at most is taken as a blank
or as the end of a comment (`LocalOn.extend`).

Reading one part after the other keeps this (`LocalOn.bind`), as does reading by what comes first
(`LocalOn.of_cons`, `LocalOn.of_head`).  The lemmas of a reader follow its definition through them.
-/

namespace TreeRules.Pattern

/-- A reader of a front of the text, which leaves the rest. -/
abbrev Reader (α : Type) : Type := List Char → Option (α × List Char)

/-- The text begins with a closing parenthesis. -/
def Closing (v : List Char) : Prop := v.head? = some ')'

/-- The text is at its end, or begins with a closing parenthesis. -/
def Stops (v : List Char) : Prop := ∀ c ∈ v.head?, c = ')'

theorem Closing.stops {v : List Char} (h : Closing v) : Stops v := fun _ hc =>
  Option.some.inj (hc.symm.trans h)

theorem stops_nil : Stops [] := fun _ h => by cases h

theorem Closing.exists_cons {v : List Char} (h : Closing v) : ∃ s, v = ')' :: s := by
  cases v with
  | nil => cases h
  | cons c s => exact ⟨s, by rw [Option.some.inj h]⟩

theorem Stops.nil_or_closing {v : List Char} (h : Stops v) : v = [] ∨ Closing v := by
  cases v with
  | nil => exact .inl rfl
  | cons c s => exact .inr (congrArg some (h c rfl))

/-- What may follow the end of a text, and what is left of it where a comment goes on there, or
where a line end is a blank. -/
inductive Follows : List Char → List Char → Prop
  | closing {v : List Char} (hv : Closing v) (hline : '\n' ∉ v) : Follows v []
  | line {w : List Char} (hw : Stops w) (hline : '\n' ∉ w) : Follows ('\n' :: w) w

theorem Follows.rest {v w : List Char} (h : Follows v w) : Stops w ∧ '\n' ∉ w := by
  cases h with
  | closing => exact ⟨stops_nil, List.not_mem_nil⟩
  | line hw hline => exact ⟨hw, hline⟩

theorem Follows.ne_nil {v w : List Char} (h : Follows v w) : v ≠ [] := by
  cases h with
  | closing hv =>
    obtain ⟨s, rfl⟩ := hv.exists_cons
    exact List.cons_ne_nil ')' s
  | line => exact List.cons_ne_nil '\n' w

/-- The text stops, perhaps behind a line end. -/
def Halts (v : List Char) : Prop := Stops v ∨ ∃ w, v = '\n' :: w ∧ Stops w

theorem Stops.halts {v : List Char} (h : Stops v) : Halts v := .inl h

theorem Follows.halts {v w : List Char} (h : Follows v w) : Halts v := by
  cases h with
  | closing hv => exact .inl hv.stops
  | line hw => exact .inr ⟨w, rfl, hw⟩

theorem Halts.eq_of_head? {v : List Char} {d : Char} (h : Halts v) (hd : v.head? = some d) :
    d = ')' ∨ d = '\n' := by
  rcases h with h | ⟨w, rfl, -⟩
  · exact .inl (h d hd)
  · exact .inr (Option.some.inj hd).symm

/-- A text begins with a mark that does not stop it just if it does up to its end. -/
theorem Halts.head?_append {u v : List Char} {d : Char} (hv : Halts v)
    (hd : ¬(d = ')' ∨ d = '\n')) : (u ++ v).head? = some d ↔ u.head? = some d := by
  cases u with
  | nil => exact iff_of_false (fun h => hd (hv.eq_of_head? h)) (by simp)
  | cons c u => exact Iff.rfl

/-- A text that leaves a text with the end `v` has this end itself. -/
theorem exists_eq_append_of_suffix {k v s : List Char} (h : k ++ v <:+ s) : ∃ m, s = m ++ v := by
  obtain ⟨t, rfl⟩ := h
  exact ⟨t ++ k, (List.append_assoc t k v).symm⟩

/-- A reader, of what follows `p`, that does not look behind a closing parenthesis where it reads
an `x` and leaves a rest that are `ok`. -/
structure LocalOn {α : Type} (ok : α → List Char → Prop) (p : List Char) (R : Reader α) : Prop where
  suffix {s k : List Char} {x : α} : R s = some (x, k) → k <:+ p ++ s
  /-- What stands from a closing parenthesis on may be exchanged. -/
  exchange {u v w k : List Char} {x : α} : Closing v → Stops w → ok x k →
    R (u ++ v) = some (x, k ++ v) → R (u ++ w) = some (x, k ++ w)
  /-- A closing parenthesis or a line end may follow the text; what a comment takes of this, or
  what is a blank, is taken too. -/
  extend {u v w k : List Char} {x : α} : Follows v w → ok x k → R u = some (x, k) →
    R (u ++ v) = some (x, k ++ v) ∨
      k = [] ∧ (CommentsEnd (p ++ u) → v.head? = some '\n') ∧ R (u ++ v) = some (x, w)

/-- A reader, of what follows `p`, that does not look behind a closing parenthesis. -/
abbrev Local {α : Type} (p : List Char) (R : Reader α) : Prop := LocalOn (fun _ _ => True) p R

variable {α β : Type} {ok : α → List Char → Prop} {ok' : β → List Char → Prop}
variable {p : List Char} {R S : Reader α}

/-- What takes nothing at the end of the text takes nothing before a closing parenthesis. -/
theorem LocalOn.of_nil (h : LocalOn ok [] R) {x : α} {w : List Char} (hw : Stops w)
    (hline : '\n' ∉ w) (hk : ok x []) (hr : R [] = some (x, [])) : R w = some (x, w) := by
  rcases hw.nil_or_closing with rfl | hw
  · exact hr
  · rcases h.extend (.closing hw hline) hk hr with hr' | ⟨-, hhead, -⟩
    · exact hr'
    · cases hw.symm.trans (hhead commentsEnd_nil)

/-! ## Readers put together -/

theorem LocalOn.mono (h : Local p R) : LocalOn ok p R where
  suffix := h.suffix
  exchange hv hw _ := h.exchange hv hw trivial
  extend hv _ := h.extend hv trivial

theorem LocalOn.weaken (h : LocalOn ok [] R) (p : List Char) : LocalOn ok p R where
  suffix hs := (h.suffix hs).trans (List.suffix_append p _)
  exchange := h.exchange
  extend hv hk hr := (h.extend hv hk hr).imp_right fun ⟨hnil, hhead, hr'⟩ =>
    ⟨hnil, fun hc => hhead (hc.suffix (List.suffix_append p _)), hr'⟩

/-- A reader of the whole text is one of what follows its first character. -/
theorem LocalOn.cons (h : LocalOn ok [] R) (c : Char) :
    LocalOn ok [c] fun s => R (c :: s) where
  suffix hs := h.suffix hs
  exchange {u _ _ _ _} hv hw hk hr := h.exchange (u := c :: u) hv hw hk hr
  extend {u _ _ _ _} hv hk hr := h.extend (u := c :: u) hv hk hr

theorem LocalOn.fail : LocalOn ok p fun _ => none where
  suffix hs := by cases hs
  exchange _ _ _ hr := by cases hr
  extend _ _ hr := by cases hr

/-- Nothing more is taken, and `q`, in which `p` ends, is handed back. -/
theorem LocalOn.leave {q : List Char} (hq : q <:+ p) (x : α) :
    LocalOn ok p fun s => some (x, q ++ s) where
  suffix {s k _} hs := by
    obtain ⟨-, rfl⟩ := Prod.mk.inj (Option.some.inj hs)
    obtain ⟨t, rfl⟩ := hq
    exact ⟨t, (List.append_assoc t q s).symm⟩
  exchange {u v w k _} _ _ _ hr := by
    obtain ⟨rfl, hk⟩ := Prod.mk.inj (Option.some.inj hr)
    rw [← List.append_cancel_right ((List.append_assoc q u v).trans hk), List.append_assoc]
  extend {u v _ k _} _ _ hr := by
    obtain ⟨rfl, rfl⟩ := Prod.mk.inj (Option.some.inj hr)
    exact .inl (by rw [List.append_assoc])

/-- Nothing more is taken. -/
theorem LocalOn.done (x : α) : LocalOn ok p fun s => some (x, s) := .leave List.nil_suffix x

/-- **One part is read after the other.**  Where the second goes on well, the first has to have
stopped well. -/
theorem LocalOn.bindOn {F : α × List Char → Option (β × List Char)} (h : LocalOn ok p R)
    (hF : ∀ x, LocalOn ok' [] fun s => F (x, s))
    (hok : ∀ x m v y k, Stops v → ok' y k → F (x, m ++ v) = some (y, k ++ v) → ok x m) :
    LocalOn ok' p fun s => R s >>= F where
  suffix {s k y} hs := by
    obtain ⟨⟨x, m⟩, hx, hy⟩ := Option.bind_eq_some_iff.1 hs
    exact ((hF x).suffix hy).trans (h.suffix hx)
  exchange {u v w k y} hv hw hk hr := by
    obtain ⟨⟨x, m⟩, hx, hy⟩ := Option.bind_eq_some_iff.1 hr
    obtain ⟨m, rfl⟩ := exists_eq_append_of_suffix ((hF x).suffix hy)
    have hx' := h.exchange hv hw (hok x m v y k hv.stops hk hy) hx
    exact Option.bind_eq_some_iff.2 ⟨(x, m ++ w), hx', (hF x).exchange hv hw hk hy⟩
  extend {u v w k y} hv hk hr := by
    obtain ⟨⟨x, m⟩, hx, hy⟩ := Option.bind_eq_some_iff.1 hr
    have hm : ok x m := hok x m [] y k stops_nil hk (by rwa [List.append_nil, List.append_nil])
    rcases h.extend hv hm hx with hx' | ⟨rfl, hhead, hx'⟩
    · refine ((hF x).extend hv hk hy).imp
        (fun hy' => Option.bind_eq_some_iff.2 ⟨(x, m ++ v), hx', hy'⟩) ?_
      rintro ⟨hnil, hhead, hy'⟩
      exact ⟨hnil, fun hc => hhead (hc.suffix (h.suffix hx)),
        Option.bind_eq_some_iff.2 ⟨(x, m ++ v), hx', hy'⟩⟩
    · obtain rfl : k = [] := List.suffix_nil.1 ((hF x).suffix hy)
      exact .inr ⟨rfl, hhead, Option.bind_eq_some_iff.2
        ⟨(x, w), hx', (hF x).of_nil hv.rest.1 hv.rest.2 hk hy⟩⟩

theorem LocalOn.bind {F : α × List Char → Option (β × List Char)} (h : Local p R)
    (hF : ∀ x, LocalOn ok' [] fun s => F (x, s)) : LocalOn ok' p fun s => R s >>= F :=
  LocalOn.bindOn h hF fun _ _ _ _ _ _ _ _ => trivial

theorem LocalOn.map {F : α × List Char → β × List Char} (h : Local p R)
    (hF : ∀ x, ∃ y, ∀ s, F (x, s) = (y, s)) : Local p fun s => (R s).map F := by
  have hbind : (fun s => (R s).map F) = fun s => R s >>= fun y => some (F y) :=
    funext fun s => Option.map_eq_bind
  rw [hbind]
  refine LocalOn.bind h fun x => ?_
  obtain ⟨y, hy⟩ := hF x
  simp only [hy]
  exact .done y

/-- What is read may turn out to be none. -/
theorem LocalOn.given {γ : Type} (o : Option γ) {T : γ → Reader α}
    (hT : ∀ x, LocalOn ok p (T x)) : LocalOn ok p fun s => o >>= fun x => T x s := by
  cases o with
  | none => exact .fail
  | some x => exact hT x

/-- Which of two readers is to read is decided before a closing parenthesis. -/
theorem LocalOn.ite {P : List Char → Prop} [DecidablePred P]
    (hP : ∀ u v, Halts v → (P (u ++ v) ↔ P u)) (hR : LocalOn ok p R) (hS : LocalOn ok p S) :
    LocalOn ok p fun s => if P s then R s else S s where
  suffix {s k x} hs := by
    split at hs
    · exact hR.suffix hs
    · exact hS.suffix hs
  exchange {u v w k x} hv hw hk hr := by
    simp only [hP u v hv.stops.halts, hP u w hw.halts] at hr ⊢
    by_cases hu : P u
    · rw [if_pos hu] at hr ⊢
      exact hR.exchange hv hw hk hr
    · rw [if_neg hu] at hr ⊢
      exact hS.exchange hv hw hk hr
  extend {u v _ _ _} hv hk hr := by
    simp only [hP u v hv.halts]
    by_cases hu : P u
    · rw [if_pos hu] at hr ⊢
      exact hR.extend hv hk hr
    · rw [if_neg hu] at hr ⊢
      exact hS.extend hv hk hr

/-- A reader that is given as much time as it needs is as good as one with any time. -/
theorem LocalOn.of_fuel {T : Nat → Reader α} {enough : List Char → Nat}
    (hT : ∀ n, LocalOn ok p (T n)) (henough : ∀ n s, enough s ≤ n → T n s = R s) :
    LocalOn ok p R where
  suffix {s _ _} hs := (hT (enough s)).suffix ((henough _ s (Nat.le_refl _)).trans hs)
  exchange {u v w _ _} hv hw hk hr := by
    let n := max (enough (u ++ v)) (enough (u ++ w))
    rw [← henough n _ (Nat.le_max_left _ _)] at hr
    rw [← henough n _ (Nat.le_max_right _ _)]
    exact (hT n).exchange hv hw hk hr
  extend {u v _ _ _} hv hk hr := by
    let n := max (enough u) (enough (u ++ v))
    rw [← henough n _ (Nat.le_max_left _ _)] at hr
    rw [← henough n _ (Nat.le_max_right _ _)]
    exact (hT n).extend hv hk hr

/-- A reader that does not look behind what it takes. -/
theorem LocalOn.of_taken
    (h : ∀ s x k, R s = some (x, k) → ∃ t, s = t ++ k ∧ ∀ r, R (t ++ r) = some (x, r)) :
    LocalOn ok p R where
  suffix {s k x} hs := by
    obtain ⟨t, rfl, -⟩ := h s x k hs
    exact (List.suffix_append t k).trans (List.suffix_append p _)
  exchange {u v w k x} _ _ _ hr := by
    obtain ⟨t, htext, ht⟩ := h _ x _ hr
    rw [← List.append_assoc] at htext
    rw [List.append_cancel_right htext, List.append_assoc, ht]
  extend {u v _ k x} _ _ hr := by
    obtain ⟨t, rfl, ht⟩ := h u x k hr
    exact .inl (by rw [List.append_assoc, ht])

/-- A reader that takes no closing parenthesis and no line end, and does not look behind what it
takes. -/
def Contained {γ : Type} (N : Reader γ) : Prop :=
  ∀ s x k, N s = some (x, k) →
    ∃ t, s = t ++ k ∧ (∀ c ∈ t, ¬(c = ')' ∨ c = '\n')) ∧ ∀ r, N (t ++ r) = some (x, r)

section

variable {γ : Type} {N : Reader γ} {u v w k : List Char} {x : γ}

/-- What is found in front of a text that stops is found before it. -/
theorem Contained.exists_front (hN : Contained N) (hw : Halts w) (h : N (u ++ w) = some (x, k)) :
    ∃ m, k = m ++ w ∧ m <:+ u ∧ ∀ r, N (u ++ r) = some (x, m ++ r) := by
  obtain ⟨t, htext, hmark, ht⟩ := hN _ x k h
  have hu : ∃ m, u = t ++ m ∧ k = m ++ w := by
    obtain ⟨m, rfl, rfl⟩ | hu := List.append_eq_append_iff.1 htext
    · cases m with
      | nil => exact ⟨[], by rw [List.append_nil, List.append_nil], rfl⟩
      | cons c m =>
        exact absurd (hw.eq_of_head? rfl)
          (hmark c (List.mem_append_right u List.mem_cons_self))
    · exact hu
  obtain ⟨m, rfl, hk⟩ := hu
  exact ⟨m, hk, List.suffix_append t m, fun r => by rw [List.append_assoc, ht]⟩

theorem Contained.eq_none (hN : Contained N) (hw : Halts w) (h : N (u ++ v) = none) :
    N (u ++ w) = none := by
  cases hfound : N (u ++ w) with
  | none => rfl
  | some y =>
    obtain ⟨m, -, -, hm⟩ := hN.exists_front hw hfound
    cases (hm v).symm.trans h

end

/-- What a contained reader finds is tried first. -/
theorem LocalOn.orElse {γ : Type} {N : Reader γ} {F : γ × List Char → Option (α × List Char)}
    (hN : Contained N) (hF : ∀ x, LocalOn ok [] fun s => F (x, s)) (hS : LocalOn ok p S) :
    LocalOn ok p fun s => (N s).elim (S s) F where
  suffix {s k x} hs := by
    cases hc : N s with
    | none =>
      rw [hc] at hs
      exact hS.suffix hs
    | some y =>
      rw [hc] at hs
      obtain ⟨t, rfl, -⟩ := hN s y.1 y.2 hc
      exact (((hF y.1).suffix hs).trans (List.suffix_append t y.2)).trans (List.suffix_append p _)
  exchange {u v w k x} hv hw hk hr := by
    cases hc : N (u ++ v) with
    | none =>
      rw [hc] at hr
      rw [hN.eq_none hw.halts hc]
      exact hS.exchange hv hw hk hr
    | some y =>
      obtain ⟨m, -, -, hm⟩ := hN.exists_front hv.stops.halts hc
      rw [hm v] at hr
      rw [hm w]
      exact (hF y.1).exchange hv hw hk hr
  extend {u v w k x} hv hk hr := by
    rw [← List.append_nil u] at hr
    cases hc : N (u ++ []) with
    | none =>
      rw [hc, List.append_nil] at hr
      rw [hN.eq_none hv.halts hc]
      exact hS.extend hv hk hr
    | some y =>
      obtain ⟨m, -, hmu, hm⟩ := hN.exists_front stops_nil.halts hc
      rw [hm [], List.append_nil] at hr
      rw [hm v]
      exact ((hF y.1).extend hv hk hr).imp_right fun ⟨hnil, hhead, hr'⟩ =>
        ⟨hnil, fun hc => hhead (hc.suffix (hmu.trans (List.suffix_append p u))), hr'⟩

/-- What a mark that does not stop begins is read in one way, all else in another. -/
theorem LocalOn.of_head {d : Char} (hd : ¬(d = ')' ∨ d = '\n')) {A B : Reader α}
    (hA : ∀ s, R (d :: s) = A s)
    (hB : ∀ s, s.head? ≠ some d → R s = B s) (hlA : LocalOn ok [d] A) (hlB : LocalOn ok p B) :
    LocalOn ok p R where
  suffix {s k x} hs := by
    by_cases hh : s.head? = some d
    · obtain ⟨t, rfl⟩ := List.head?_eq_some_iff.1 hh
      exact (hlA.suffix (hA t ▸ hs)).trans (List.suffix_append p _)
    · exact hlB.suffix (hB s hh ▸ hs)
  exchange {u v w k x} hv hw hk hr := by
    by_cases hu : u.head? = some d
    · obtain ⟨u, rfl⟩ := List.head?_eq_some_iff.1 hu
      rw [List.cons_append, hA] at hr ⊢
      exact hlA.exchange hv hw hk hr
    · rw [hB _ fun h => hu ((hv.stops.halts.head?_append hd).1 h)] at hr
      rw [hB _ fun h => hu ((hw.halts.head?_append hd).1 h)]
      exact hlB.exchange hv hw hk hr
  extend {u v _ k x} hv hk hr := by
    by_cases hu : u.head? = some d
    · obtain ⟨u, rfl⟩ := List.head?_eq_some_iff.1 hu
      rw [List.cons_append, hA]
      exact (hlA.extend hv hk (hA u ▸ hr)).imp_right fun ⟨hnil, hhead, hr'⟩ =>
        ⟨hnil, fun hc => hhead (hc.suffix (List.suffix_append p _)), hr'⟩
    · rw [hB _ fun h => hu ((hv.halts.head?_append hd).1 h)]
      exact hlB.extend hv hk (hB u hu ▸ hr)

/-! ## Blanks and comments -/

namespace Layout

variable {ignoring : Bool} {c : Char} {s t u v w k : List Char}

theorem skipFrom_suffix (b : Bool) (s : List Char) : skipFrom b s <:+ s := by
  induction s generalizing b with
  | nil => rw [skipFrom]
  | cons c s ih =>
    rw [skipFrom]
    split
    · exact (ih _).trans (List.suffix_cons c s)
    · split
      · exact (ih _).trans (List.suffix_cons c s)
      · split
        · exact (ih _).trans (List.suffix_cons c s)
        · exact List.suffix_rfl

theorem skip_suffix (ignoring : Bool) (s : List Char) : skip ignoring s <:+ s := by
  cases ignoring with
  | false => exact List.suffix_rfl
  | true => exact skipFrom_suffix false s

/-- What comes first after blanks and comments is neither. -/
theorem skipFrom_eq_cons {b : Bool} (h : skipFrom b s = c :: t) :
    Text.isBlank c = false ∧ (c == '#') = false := by
  induction s generalizing b with
  | nil => cases h
  | cons d s ih =>
    rw [skipFrom] at h
    split at h
    · exact ih h
    · split at h
      · exact ih h
      · next hblank =>
        split at h
        · exact ih h
        · next hmark =>
          obtain ⟨rfl, -⟩ := List.cons.inj h
          exact ⟨Bool.eq_false_iff.2 hblank, Bool.eq_false_iff.2 hmark⟩

theorem skip_cons_of_eq_cons (h : skip ignoring s = c :: t) (r : List Char) :
    skip ignoring (c :: r) = c :: r := by
  cases ignoring with
  | false => rfl
  | true =>
    obtain ⟨hblank, hmark⟩ := skipFrom_eq_cons h
    rw [skip, if_pos rfl, skipFrom, if_neg Bool.false_ne_true, hblank, hmark]
    rfl

@[simp] theorem skip_skip (ignoring : Bool) (s : List Char) :
    skip ignoring (skip ignoring s) = skip ignoring s := by
  cases h : skip ignoring s with
  | nil => exact skip_nil ignoring
  | cons c t => exact skip_cons_of_eq_cons h t

/-- No blank or comment begins with a closing parenthesis. -/
theorem skip_of_stops (h : Stops v) : skip ignoring v = v := by
  rcases h.nil_or_closing with rfl | h
  · exact skip_nil ignoring
  · obtain ⟨s, rfl⟩ := h.exists_cons
    cases ignoring <;> rfl

theorem skip_closing (ignoring : Bool) (s : List Char) :
    skip ignoring (')' :: s) = ')' :: s :=
  skip_of_stops (Closing.stops rfl)

theorem skip_brace (ignoring : Bool) (s : List Char) :
    skip ignoring ('\x7b' :: s) = '\x7b' :: s := by
  cases ignoring <;> rfl

theorem skipFrom_exchange {b : Bool} (hv : Closing v) (hw : Stops w)
    (h : skipFrom b (u ++ v) = k ++ v) : skipFrom b (u ++ w) = k ++ w := by
  induction u generalizing b with
  | nil =>
    obtain ⟨s, rfl⟩ := hv.exists_cons
    cases b with
    | false =>
      obtain rfl : [] = k := List.append_cancel_right (h : [] ++ ')' :: s = k ++ ')' :: s)
      exact (skip_of_stops hw : skip true w = w)
    | true =>
      have hlen := (congrArg List.length h).symm.le.trans (length_skipFrom_le true s)
      rw [List.length_append, List.length_cons] at hlen
      omega
  | cons c u ih =>
    rw [List.cons_append, skipFrom] at h ⊢
    split
    · next hb => exact ih (by rwa [if_pos hb] at h)
    · next hb =>
      rw [if_neg hb] at h
      split
      · next hblank => exact ih (by rwa [if_pos hblank] at h)
      · next hblank =>
        rw [if_neg hblank] at h
        split
        · next hmark => exact ih (by rwa [if_pos hmark] at h)
        · next hmark =>
          rw [if_neg hmark, ← List.cons_append] at h
          rw [← List.append_cancel_right h, List.cons_append]

/-- A comment goes on to the end of its line. -/
theorem skipFrom_comment (hline : '\n' ∉ v) : skipFrom true v = [] := by
  induction v with
  | nil => rfl
  | cons c v ih =>
    have hc : (c != '\n') = true := bne_iff_ne.2 fun h => hline (h ▸ List.mem_cons_self)
    rw [skipFrom, if_pos rfl, hc]
    exact ih fun h => hline (List.mem_cons_of_mem c h)

/-- What follows a text is left, unless a comment is open there or it is a line end; `b` says that
a comment is open from the beginning. -/
theorem skipFrom_extend {b : Bool} (hv : Follows v w) :
    skipFrom b (u ++ v) = skipFrom b u ++ v ∨
      skipFrom b u = [] ∧
        ((b = true → '\n' ∈ u) → CommentsEnd u → v.head? = some '\n') ∧
        skipFrom b (u ++ v) = w := by
  induction u generalizing b with
  | nil =>
    cases hv with
    | closing hv hline =>
      cases b with
      | false => exact .inl (skip_of_stops hv.stops : skip true v = v)
      | true => exact .inr ⟨rfl, fun h => (List.not_mem_nil (h rfl)).elim, skipFrom_comment hline⟩
    | line hw =>
      refine .inr ⟨rfl, fun _ _ => rfl, ?_⟩
      cases b <;> exact (skip_of_stops hw : skip true w = w)
  | cons c u ih =>
    have hsuffix : u <:+ c :: u := List.suffix_cons c u
    rw [List.cons_append, skipFrom, skipFrom]
    split
    · next hb =>
      refine ih.imp_right fun h => ⟨h.1, fun hline hc => ?_, h.2.2⟩
      refine h.2.1 (fun hne => ?_) (hc.suffix hsuffix)
      exact (List.mem_cons.1 (hline hb)).resolve_left (bne_iff_ne.1 hne).symm
    · split
      · refine ih.imp_right fun h => ⟨h.1, fun _ hc => ?_, h.2.2⟩
        exact h.2.1 (fun hopen => (Bool.false_ne_true hopen).elim) (hc.suffix hsuffix)
      · split
        · next hmark =>
          obtain rfl := beq_iff_eq.1 hmark
          refine ih.imp_right fun h => ⟨h.1, fun _ hc => ?_, h.2.2⟩
          exact h.2.1 (fun _ => hc.mem_of_cons) (hc.suffix hsuffix)
        · exact .inl rfl

/-- Where a pattern is at its end but for blanks and comments, so is it before a line end. -/
theorem skip_line (h : skip true u = []) (hw : Stops w) (hline : '\n' ∉ w) :
    skip true (u ++ '\n' :: w) = w := by
  rcases skipFrom_extend (.line hw hline) with h' | ⟨-, -, h'⟩
  · have hnone : skip true (u ++ '\n' :: w) = '\n' :: w :=
      h'.trans (congrArg (· ++ '\n' :: w) h)
    cases (skipFrom_eq_cons hnone).1
  · exact h'

theorem dropBlanks_of_stops (h : Stops v) : v.dropWhile Text.isBlank = v := by
  rcases h.nil_or_closing with rfl | h
  · rfl
  · obtain ⟨s, rfl⟩ := h.exists_cons
    rfl

theorem dropBlanks_append (h : Stops v) :
    (u ++ v).dropWhile Text.isBlank = u.dropWhile Text.isBlank ++ v := by
  rw [List.dropWhile_append, dropBlanks_of_stops h]
  split
  · next hu => rw [List.isEmpty_iff.1 hu, List.nil_append]
  · rfl

theorem skipFrom_append {b : Bool} (h : skipFrom b u ≠ []) (v : List Char) :
    skipFrom b (u ++ v) = skipFrom b u ++ v := by
  induction u generalizing b with
  | nil => exact absurd rfl h
  | cons c u ih =>
    rw [List.cons_append, skipFrom, skipFrom]
    rw [skipFrom] at h
    split
    · next hb => exact ih (by rwa [if_pos hb] at h)
    · next hb =>
      rw [if_neg hb] at h
      split
      · next hblank => exact ih (by rwa [if_pos hblank] at h)
      · next hblank =>
        rw [if_neg hblank] at h
        split
        · next hmark => exact ih (by rwa [if_pos hmark] at h)
        · rfl

/-- Where blanks and comments end before the end of the text, they end there in a longer one. -/
theorem skip_append (h : skip ignoring u ≠ []) (v : List Char) :
    skip ignoring (u ++ v) = skip ignoring u ++ v := by
  cases ignoring with
  | false => rfl
  | true => exact skipFrom_append h v

theorem skip_exchange (hv : Closing v) (hw : Stops w) (h : skip ignoring (u ++ v) = k ++ v) :
    skip ignoring (u ++ w) = k ++ w := by
  cases ignoring with
  | false => rw [skip_false, List.append_cancel_right (h : u ++ v = k ++ v)]
  | true => exact skipFrom_exchange hv hw h

theorem skip_extend (hv : Follows v w) :
    skip ignoring (u ++ v) = skip ignoring u ++ v ∨
      skip ignoring u = [] ∧ (CommentsEnd u → v.head? = some '\n') ∧
        skip ignoring (u ++ v) = w := by
  cases ignoring with
  | false => exact .inl rfl
  | true =>
    exact (skipFrom_extend hv).imp_right fun ⟨hnil, hhead, h⟩ =>
      ⟨hnil, hhead fun h => (Bool.false_ne_true h).elim, h⟩

/-- Blanks and comments that end before a closing parenthesis end there without it. -/
theorem skip_of_append (hv : Stops v) (h : skip ignoring (u ++ v) = k ++ v) :
    skip ignoring u = k := by
  rcases hv.nil_or_closing with rfl | hv
  · simpa using h
  · simpa using skip_exchange hv stops_nil h

theorem local_skip (ignoring : Bool) : Local [] fun s => some ((), skip ignoring s) where
  suffix {s _ _} hs := by
    obtain ⟨-, rfl⟩ := Prod.mk.inj (Option.some.inj hs)
    exact skip_suffix ignoring s
  exchange {u v w k _} hv hw _ hr := by
    rw [skip_exchange hv hw (Prod.mk.inj (Option.some.inj hr)).2]
  extend {u v w k _} hv _ hr := by
    obtain ⟨-, rfl⟩ := Prod.mk.inj (Option.some.inj hr)
    exact (skip_extend hv).imp (congrArg fun s => some ((), s))
      (And.imp_right (And.imp_right (congrArg fun s => some ((), s))))

theorem local_dropBlanks : Local [] fun s => some ((), s.dropWhile Text.isBlank) where
  suffix {s _ _} hs := by
    obtain ⟨-, rfl⟩ := Prod.mk.inj (Option.some.inj hs)
    exact List.dropWhile_suffix _
  exchange {u v w k _} hv hw _ hr := by
    obtain ⟨-, hk⟩ := Prod.mk.inj (Option.some.inj hr)
    rw [dropBlanks_append hv.stops] at hk
    rw [dropBlanks_append hw, List.append_cancel_right hk]
  extend {u v w k _} hv _ hr := by
    obtain ⟨-, rfl⟩ := Prod.mk.inj (Option.some.inj hr)
    cases hv with
    | closing hv => exact .inl (by rw [dropBlanks_append hv.stops])
    | line hw =>
      rw [List.dropWhile_append]
      split
      · next hu =>
        refine .inr ⟨List.isEmpty_iff.1 hu, fun _ => rfl, congrArg (fun s => some ((), s)) ?_⟩
        exact dropBlanks_of_stops hw
      · exact .inl rfl

/-- What is collected ends at its stop. -/
theorem collectFrom_taken {test : Char → Bool} {stop : Char} {b : Bool} {cs : List Char}
    (h : collectFrom ignoring test stop b s = some (cs, k)) :
    ∃ t, s = t ++ k ∧ ∀ r, collectFrom ignoring test stop b (t ++ r) = some (cs, r) := by
  induction s generalizing b cs with
  | nil => cases h
  | cons c s ih =>
    rw [collectFrom] at h
    split at h
    · next hb =>
      obtain ⟨t, rfl, ht⟩ := ih h
      exact ⟨c :: t, rfl, fun r => by rw [List.cons_append, collectFrom, if_pos hb, ht]⟩
    · next hb =>
      split at h
      · next hblank =>
        obtain ⟨t, rfl, ht⟩ := ih h
        exact ⟨c :: t, rfl, fun r => by
          rw [List.cons_append, collectFrom, if_neg hb, if_pos hblank, ht]⟩
      · next hblank =>
        split at h
        · next hmark =>
          obtain ⟨t, rfl, ht⟩ := ih h
          exact ⟨c :: t, rfl, fun r => by
            rw [List.cons_append, collectFrom, if_neg hb, if_neg hblank, if_pos hmark, ht]⟩
        · next hmark =>
          split at h
          · next hstop =>
            obtain ⟨rfl, rfl⟩ := Prod.mk.inj (Option.some.inj h)
            exact ⟨[c], rfl, fun r => by
              rw [List.cons_append, collectFrom, if_neg hb, if_neg hblank, if_neg hmark,
                if_pos hstop, List.nil_append]⟩
          · next hstop =>
            split at h
            · next htest =>
              obtain ⟨⟨ds, k'⟩, hds, heq⟩ := Option.map_eq_some_iff.1 h
              obtain ⟨rfl, rfl⟩ := Prod.mk.inj heq
              obtain ⟨t, rfl, ht⟩ := ih hds
              exact ⟨c :: t, rfl, fun r => by
                rw [List.cons_append, collectFrom, if_neg hb, if_neg hblank, if_neg hmark,
                  if_neg hstop, if_pos htest, ht]
                rfl⟩
            · cases h

theorem local_collect (ignoring : Bool) (test : Char → Bool) (stop : Char) :
    Local [] (collect ignoring test stop) :=
  .of_taken fun _ _ _ h => collectFrom_taken h

end Layout

/-- Blanks and comments may stand before what is read. -/
theorem LocalOn.skip (h : LocalOn ok [] R) (ignoring : Bool) :
    LocalOn ok p fun s => R (Layout.skip ignoring s) :=
  .weaken (LocalOn.bind (F := fun y => R y.2) (Layout.local_skip ignoring) fun _ => h) p

/-- Blanks may stand before what is read. -/
theorem LocalOn.dropBlanks (h : LocalOn ok [] R) :
    LocalOn ok p fun s => R (s.dropWhile Text.isBlank) :=
  .weaken (LocalOn.bind (F := fun y => R y.2) Layout.local_dropBlanks fun _ => h) p

/-- **What stands first, after blanks and comments, decides how the text is read.** -/
theorem LocalOn.of_cons (ignoring : Bool) (hskip : ∀ s, R (Layout.skip ignoring s) = R s)
    (hleft : ∀ x k, R [] = some (x, k) → k = [])
    (hend : ∀ x s, ok x [] → R (')' :: s) = some (x, ')' :: s) → R [] = some (x, []))
    (hnil : ∀ x c s, ok x [] → c = ')' ∨ c = '\n' → Layout.skip ignoring (c :: s) = c :: s →
      R [] = some (x, []) → R (c :: s) = some (x, c :: s))
    (hcons : ∀ c, (∀ s, Layout.skip ignoring (c :: s) = c :: s) →
      LocalOn ok [c] fun s => R (c :: s)) : LocalOn ok [] R where
  suffix {s k x} hs := by
    rw [← hskip] at hs
    cases hc : Layout.skip ignoring s with
    | nil =>
      rw [hleft x k (hc ▸ hs)]
      exact List.nil_suffix
    | cons c t =>
      have hk := (hcons c (Layout.skip_cons_of_eq_cons hc)).suffix (hc ▸ hs)
      have hsuffix : c :: t <:+ s := hc ▸ Layout.skip_suffix ignoring s
      exact hk.trans hsuffix
  exchange {u v w k x} hv hw hk hr := by
    obtain ⟨r, rfl⟩ := hv.exists_cons
    rw [← hskip] at hr ⊢
    cases hc : Layout.skip ignoring (u ++ ')' :: r) with
    | nil => cases List.append_eq_nil_iff.1 (hleft _ _ (hc ▸ hr)) |>.2
    | cons c t =>
      have hfirst := Layout.skip_cons_of_eq_cons hc
      rw [hc] at hr
      obtain ⟨m, hm⟩ := exists_eq_append_of_suffix ((hcons c hfirst).suffix hr)
      rw [Layout.skip_exchange hv hw (hc.trans hm)]
      cases m with
      | nil =>
        obtain rfl : k = [] := by
          have hlen := ((hcons c hfirst).suffix hr).length_le
          have htext := congrArg List.length hm
          simp only [List.length_append, List.length_cons, List.length_nil] at hlen htext
          exact List.length_eq_zero_iff.1 (by omega)
        rw [show c :: t = ')' :: r from hm] at hr
        have hnone : R [] = some (x, []) := hend x r hk hr
        rcases hw.nil_or_closing with rfl | hw
        · exact hnone
        · obtain ⟨r', rfl⟩ := hw.exists_cons
          exact hnil x ')' r' hk (.inl rfl) (Layout.skip_closing ignoring r') hnone
      | cons d m =>
        obtain ⟨rfl, rfl⟩ := List.cons.inj hm
        exact (hcons c hfirst).exchange hv hw hk hr
  extend {u v w k x} hv hk hr := by
    rw [← hskip] at hr ⊢
    rcases (Layout.skip_extend hv : Layout.skip ignoring (u ++ v) = _ ∨ _) with
      hext | ⟨hnone, hhead, hext⟩
    · cases hc : Layout.skip ignoring u with
      | nil =>
        rw [hc] at hr hext
        obtain rfl := hleft x k hr
        rw [hext]
        left
        obtain ⟨c, s, rfl⟩ := List.exists_cons_of_ne_nil hv.ne_nil
        have hskip' : Layout.skip ignoring (c :: s) = c :: s := by
          have hidem := Layout.skip_skip ignoring (u ++ c :: s)
          rwa [hext] at hidem
        exact hnil x c s hk (hv.halts.eq_of_head? rfl) hskip' hr
      | cons c t =>
        rw [hc] at hr
        rw [hext, hc]
        have hsuffix : c :: t <:+ u := hc ▸ Layout.skip_suffix ignoring u
        exact ((hcons c (Layout.skip_cons_of_eq_cons hc)).extend hv hk hr).imp_right
          fun ⟨hnil, hhead, hr'⟩ => ⟨hnil, fun hc => hhead (hc.suffix hsuffix), hr'⟩
    · rw [hnone] at hr
      obtain rfl := hleft x k hr
      refine .inr ⟨rfl, hhead, ?_⟩
      rw [hext]
      rcases hv.rest.1.nil_or_closing with rfl | hw
      · exact hr
      · obtain ⟨s, rfl⟩ := hw.exists_cons
        exact hnil x ')' s hk (.inl rfl) (Layout.skip_closing ignoring s) hr

/-- What stands first decides how the text is read, and a closing parenthesis is taken. -/
theorem LocalOn.of_cons_taking (ignoring : Bool)
    (hskip : ∀ s, R (Layout.skip ignoring s) = R s)
    (hnil : R [] = none) (hclose : ∀ x s, R (')' :: s) ≠ some (x, ')' :: s))
    (hcons : ∀ c, (∀ s, Layout.skip ignoring (c :: s) = c :: s) →
      LocalOn ok [c] fun s => R (c :: s)) : LocalOn ok [] R :=
  .of_cons ignoring hskip (fun x k h => by rw [hnil] at h; cases h)
    (fun x s _ h => absurd h (hclose x s)) (fun x c s _ _ _ h => by rw [hnil] at h; cases h) hcons

end TreeRules.Pattern
