import TreeRules.Proofs.Pattern.Framed
import TreeRules.Proofs.Pattern.Matching

/-!
# Proofs/Pattern/Bounded — no repetition asks for more than it allows

A counted repetition is refused when its bounds are the wrong way round, and the other marks set
bounds of their own.  So the tokens of a pattern, its tree and its expression hold no repetition
that has more rounds to make than it may make (`Expr.bounded_of_compile`), which is what the search
for an expression rests on.
-/

namespace TreeRules.Pattern

variable {ignoring : Bool} {ts : List Token}

/-! ## Tokens -/

namespace Token

/-- A repetition has no more rounds to make than it may make. -/
def Bounded : Token → Prop
  | repeated least most => ∀ m ∈ most, least ≤ m
  | _ => True

/-- The marks `?`, `*` and `+` have bounds in order, and a counted repetition is read only if its
bounds are. -/
theorem bounded_of_next {c : Char} {s k : List Char} {token : Token}
    (h : next ignoring c s = some (token, k)) : token.Bounded := by
  unfold next at h
  split at h
  · rcases opened_or_switched_of_parenthesis h with ⟨_, _, rfl⟩ | ⟨_, rfl⟩ <;> trivial
  · cases h
    trivial
  · cases h
    trivial
  · obtain ⟨_, -, heq⟩ := Option.map_eq_some_iff.1 h
    cases heq
    trivial
  · cases h
    exact fun m _ => Nat.zero_le m
  · cases h
    exact fun m hm => by cases hm
  · cases h
    exact fun m hm => by cases hm
  · obtain ⟨_, _, rfl, hle⟩ := exists_repeated_of_counted h
    exact hle
  · obtain ⟨_, -, heq⟩ := Option.map_eq_some_iff.1 h
    cases heq
    trivial
  all_goals
    cases h
    trivial

/-- So is every token of a text that has been scanned. -/
theorem Scans.bounded {p q : Place} (h : Scans p ts q) : ∀ token ∈ ts, token.Bounded := by
  induction h with
  | done p => exact fun token h => by cases h
  | token _ hnext _ _ ih =>
    intro token htoken
    rcases List.mem_cons.1 htoken with rfl | htoken
    · exact bounded_of_next hnext
    · exact ih token htoken

end Token

/-! ## Trees -/

namespace Phrase

mutual

/-- No repetition of the tree has more rounds to make than it may make. -/
def Bounded : Phrase → Prop
  | empty | switched _ | atom _ => True
  | repeated least most body => (∀ m ∈ most, least ≤ m) ∧ body.Bounded
  | group _ body => body.Bounded
  | alternatives branches => AllBounded branches
  | sequence parts => AllBounded parts

/-- Each of the trees is bounded. -/
def AllBounded : List Phrase → Prop
  | [] => True
  | p :: rest => p.Bounded ∧ AllBounded rest

end

/-- The second of the two recursions is a statement about members. -/
theorem allBounded_iff {ps : List Phrase} : AllBounded ps ↔ ∀ p ∈ ps, p.Bounded := by
  induction ps with
  | nil => simp [AllBounded]
  | cons p ps ih => simp [AllBounded, ih]

theorem bounded_atom (a : Atom) : (atom a).Bounded := by
  rw [Bounded]
  trivial

theorem bounded_switched (changes : FlagChanges) : (switched changes).Bounded := by
  rw [Bounded]
  trivial

/-- A sequence is bounded if its parts are, and one part alone stands for itself. -/
theorem bounded_inSequence {ps : List Phrase} (h : ∀ p ∈ ps, p.Bounded) :
    (inSequence ps).Bounded := by
  match ps with
  | [] => trivial
  | [p] => exact h p List.mem_cons_self
  | p :: q :: ps => exact allBounded_iff.2 h

/-- Alternatives are bounded if each branch is. -/
theorem bounded_inAlternatives {ps : List Phrase} (h : ∀ p ∈ ps, p.Bounded) :
    (inAlternatives ps).Bounded := by
  match ps with
  | [] => trivial
  | [p] => exact h p List.mem_cons_self
  | p :: q :: ps => exact allBounded_iff.2 h

/-- So far, the group holds bounded phrases alone. -/
structure Draft.Bounded (d : Draft) : Prop where
  branches : ∀ p ∈ d.branches, p.Bounded
  parts : ∀ p ∈ d.parts, p.Bounded

/-- A group that has just been opened holds nothing. -/
theorem Draft.Bounded.ofChanges (changes : FlagChanges) : (Draft.ofChanges changes).Bounded :=
  ⟨List.forall_mem_nil _, List.forall_mem_nil _⟩

theorem Draft.Bounded.push {d : Draft} (h : d.Bounded) {p : Phrase} (hp : p.Bounded) :
    (d.push p).Bounded :=
  ⟨h.branches, List.forall_mem_cons.2 ⟨hp, h.parts⟩⟩

/-- A bar closes the branch and turns its parts into one sequence. -/
theorem Draft.Bounded.split {d : Draft} (h : d.Bounded) : d.split.Bounded :=
  ⟨List.forall_mem_cons.2
    ⟨bounded_inSequence fun p hp => h.parts p (List.mem_reverse.1 hp), h.branches⟩,
    fun p hp => by cases hp⟩

/-- What a group comes to when it is closed. -/
theorem Draft.Bounded.body {d : Draft} (h : d.Bounded) : d.body.Bounded :=
  bounded_inAlternatives fun p hp => h.split.branches p (List.mem_reverse.1 hp)

/-- A repetition takes the last part as its body: the one place where bounds come in. -/
theorem Draft.Bounded.repeatLast? {d d' : Draft} (h : d.Bounded) {least : Nat} {most : Option Nat}
    (hle : ∀ m ∈ most, least ≤ m) (hd : d.repeatLast? least most = some d') : d'.Bounded := by
  unfold Draft.repeatLast? at hd
  split at hd
  · cases hd
  · cases hd
  · next p parts _ hparts =>
    cases hd
    have hall : ∀ q ∈ p :: parts, q.Bounded := hparts ▸ h.parts
    obtain ⟨hp, hparts⟩ := List.forall_mem_cons.1 hall
    have hrepeated : (repeated least most p).Bounded := by
      rw [Phrase.Bounded]
      exact ⟨hle, hp⟩
    exact ⟨h.branches, List.forall_mem_cons.2 ⟨hrepeated, hparts⟩⟩

/-- **Bounded tokens build a bounded tree.**  The open groups stay bounded with every token, the
innermost and those around it. -/
theorem bounded_of_build {d : Draft} {outer : List Draft} {phrase : Phrase} (hd : d.Bounded)
    (houter : ∀ d ∈ outer, d.Bounded) (hts : ∀ token ∈ ts, token.Bounded)
    (h : build d outer ts = some phrase) : phrase.Bounded := by
  induction ts generalizing d outer with
  | nil =>
    cases outer with
    | nil =>
      cases h
      exact hd.body
    | cons parent outer => cases h
  | cons token ts ih =>
    obtain ⟨htoken, hrest⟩ := List.forall_mem_cons.1 hts
    clear hts
    cases token with
    | atom a => exact ih (hd.push (bounded_atom a)) houter hrest (build_atom d outer a ts ▸ h)
    | bar => exact ih hd.split houter hrest (build_bar d outer ts ▸ h)
    | switched changes =>
      exact ih (hd.push (bounded_switched changes)) houter hrest
        (build_switched d outer changes ts ▸ h)
    | opened name changes =>
      exact ih (.ofChanges changes) (List.forall_mem_cons.2 ⟨hd, houter⟩) hrest
        (build_opened d outer name changes ts ▸ h)
    | closed =>
      cases outer with
      | nil => cases h
      | cons parent outer =>
        obtain ⟨hparent, houter⟩ := List.forall_mem_cons.1 houter
        have hgroup : (group d.changes d.body).Bounded := by
          rw [Bounded]
          exact hd.body
        exact ih (hparent.push hgroup) houter hrest h
    | repeated least most =>
      rw [build_repeated] at h
      obtain ⟨d', hd', h⟩ := Option.bind_eq_some_iff.1 h
      exact ih (hd.repeatLast? htoken hd') houter hrest h

/-- An atom stands for a character, a set or a place, and repeats nothing. -/
theorem bounded_of_atom_expr? {a : Atom} {m : Modes} {e : Expr} (h : a.expr? m = some e) :
    e.Bounded := by
  unfold Atom.expr? at h
  split at h
  · split at h <;> cases h
    trivial
  · obtain ⟨_, -, rfl⟩ := Option.map_eq_some_iff.1 h
    trivial
  · obtain ⟨_, -, rfl⟩ := Option.map_eq_some_iff.1 h
    trivial
  · cases h
    trivial
  · obtain ⟨_, -, rfl⟩ := Option.map_eq_some_iff.1 h
    trivial
  · obtain ⟨_, -, rfl⟩ := Option.map_eq_some_iff.1 h
    trivial

mutual

/-- The expression of a bounded tree is bounded, whatever switches it is read with. -/
theorem bounded_of_expr? : ∀ (p : Phrase) {m m' : Modes} {e : Expr}, p.Bounded →
    p.expr? m = some (e, m') → e.Bounded
  | empty, _, _, _, _, h => by
    rw [expr?] at h
    cases h
    trivial
  | switched changes, _, _, _, _, h => by
    rw [expr?] at h
    cases h
    trivial
  | atom a, _, _, _, _, h => by
    rw [expr?] at h
    obtain ⟨e, he, heq⟩ := Option.map_eq_some_iff.1 h
    cases heq
    exact bounded_of_atom_expr? he
  | repeated least most body, _, _, _, hp, h => by
    rw [Bounded] at hp
    rw [expr?] at h
    obtain ⟨⟨e, m⟩, he, heq⟩ := Option.bind_eq_some_iff.1 h
    cases heq
    exact ⟨bounded_of_expr? body hp.2 he, hp.1⟩
  | group changes body, _, _, _, hp, h => by
    rw [Bounded] at hp
    rw [expr?] at h
    obtain ⟨⟨e, m⟩, he, heq⟩ := Option.bind_eq_some_iff.1 h
    cases heq
    exact bounded_of_expr? body hp he
  | alternatives branches, _, _, _, hp, h => by
    rw [Bounded] at hp
    rw [expr?] at h
    exact bounded_of_alternatives? branches hp h
  | sequence parts, _, _, _, hp, h => by
    rw [Bounded] at hp
    rw [expr?] at h
    exact bounded_of_sequence? parts hp h

theorem bounded_of_alternatives? : ∀ (ps : List Phrase) {m m' : Modes} {e : Expr}, AllBounded ps →
    alternatives? m ps = some (e, m') → e.Bounded
  | [], _, _, _, _, h => by
    rw [alternatives?] at h
    cases h
    trivial
  | p :: ps, _, _, _, hp, h => by
    rw [AllBounded] at hp
    rw [alternatives?] at h
    obtain ⟨⟨e, m⟩, he, h⟩ := Option.bind_eq_some_iff.1 h
    obtain ⟨⟨f, m⟩, hf, heq⟩ := Option.bind_eq_some_iff.1 h
    cases heq
    exact ⟨bounded_of_expr? p hp.1 he, bounded_of_alternatives? ps hp.2 hf⟩

theorem bounded_of_sequence? : ∀ (ps : List Phrase) {m m' : Modes} {e : Expr}, AllBounded ps →
    sequence? m ps = some (e, m') → e.Bounded
  | [], _, _, _, _, h => by
    rw [sequence?] at h
    cases h
    trivial
  | p :: ps, _, _, _, hp, h => by
    rw [AllBounded] at hp
    rw [sequence?] at h
    obtain ⟨⟨e, m⟩, he, h⟩ := Option.bind_eq_some_iff.1 h
    obtain ⟨⟨f, m⟩, hf, heq⟩ := Option.bind_eq_some_iff.1 h
    cases heq
    exact ⟨bounded_of_expr? p hp.1 he, bounded_of_sequence? ps hp.2 hf⟩

end

end Phrase

/-! ## Expressions -/

namespace Expr

variable {m : Modes} {source : List Char} {e : Expr}

/-- A text is compiled if it has tokens, a tree and an expression, and is within the limits. -/
theorem compile_eq_ok_iff :
    compile m source = .ok e ↔
      ∃ ts phrase m', Token.scan m.ignoreBlanks source = some ts ∧
        Phrase.build (.ofChanges []) [] ts = some phrase ∧ phrase.depth ≤ Phrase.depthLimit ∧
        phrase.expr? m = some (e, m') ∧ e.weight ≤ weightLimit := by
  rw [compile, Phrase.parse]
  constructor
  · intro h
    split at h
    · cases h
    · next phrase hparse =>
      obtain ⟨ts, hts, hbuild⟩ := Option.bind_eq_some_iff.1 hparse
      split at h
      · next hdepth =>
        split at h
        · cases h
        · next e' m' hexpr =>
          split at h
          · next hweight =>
            cases h
            exact ⟨ts, phrase, m', hts, hbuild, hdepth, hexpr, hweight⟩
          · cases h
      · cases h
  · rintro ⟨ts, phrase, m', hts, hbuild, hdepth, hexpr, hweight⟩
    have hparse : (Token.scan m.ignoreBlanks source >>= Phrase.build (.ofChanges []) []) =
        some phrase := Option.bind_eq_some_iff.2 ⟨ts, hts, hbuild⟩
    rw [hparse]
    dsimp only
    rw [if_pos hdepth, hexpr]
    exact if_pos hweight

/-- A pattern has an expression just if it is compiled, whatever the reason why it is not. -/
theorem ofPattern?_eq_some_iff : ofPattern? m source = some e ↔ compile m source = .ok e := by
  rw [ofPattern?]
  cases compile m source <;> simp [Except.toOption]

/-- **The expression of a pattern is bounded.** -/
theorem bounded_of_compile (h : compile m source = .ok e) : e.Bounded := by
  obtain ⟨ts, phrase, m', hscan, hbuild, -, hexpr, -⟩ := compile_eq_ok_iff.1 h
  obtain ⟨⟨_, _, hscan, -⟩, -⟩ := Token.scan_eq_some_iff.1 hscan
  exact Phrase.bounded_of_expr? phrase (Phrase.bounded_of_build (.ofChanges [])
    (fun d hd => by cases hd) hscan.bounded hbuild) hexpr

end Expr

end TreeRules.Pattern
