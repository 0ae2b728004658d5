import TreeRules.Proofs.Pattern.Token

/-!
# Proofs/Pattern/Scan — how far a pattern is read into tokens

A scan takes one token after the other from one place of a pattern to another (`Token.Scans`), where
a place knows what is left and in which groups it stands.  Scanning a pattern is a scan that leaves
nothing, in no group (`Token.scanFrom_eq_some_iff`).

Tokens are read locally, and so are scans: one that ends before a closing parenthesis is one of any
text that goes on differently from there (`Token.Scans.exchange`), and behind one that ends where
blanks are ignored, a line end only ends a comment (`Token.Scans.line`).  A pattern without a hyphen
ends so if it begins so (`Token.endsIgnoring_of_not_mem`).  The group that is closed first holds a
scan of its own (`Token.Scans.exists_closed`).
-/

namespace TreeRules.Pattern.Token

/-- A place of a pattern: whether blanks are ignored, here and in the groups around, and what is
left to read. -/
structure Place where
  ignoring : Bool
  outer : List Bool
  rest : List Char

/-- The tokens between two places. -/
inductive Scans : Place → List Token → Place → Prop
  | done (p : Place) : Scans p [] p
  | token {p q : Place} {c : Char} {r rest : List Char} {token : Token} {ignoring : Bool}
      {outer : List Bool} {ts : List Token} :
      Layout.skip p.ignoring p.rest = c :: r → next p.ignoring c r = some (token, rest) →
      settle p.ignoring p.outer token = some (ignoring, outer) →
      Scans ⟨ignoring, outer, rest⟩ ts q →
      Scans p (token :: ts) q

variable {p q : Place} {ts : List Token} {ignoring ignoring' : Bool} {outer outer' : List Bool}
variable {s u v w k : List Char} {token : Token} {c : Char}

/-! ## Scans of whole patterns -/

theorem length_lt_of_next {r rest : List Char} (hs : Layout.skip ignoring s = c :: r)
    (h : next ignoring c r = some (token, rest)) : rest.length < s.length := by
  have hrest := ((localOn_next ignoring c).suffix h).length_le
  have hskip := (Layout.skip_suffix ignoring s).length_le
  rw [hs, List.length_cons] at hskip
  rw [List.nil_append] at hrest
  omega

/-- After a scan, the rest of the pattern is read from where it ends. -/
theorem Scans.scanFrom (h : Scans p ts q) {fuel : Nat} (hfuel : p.rest.length < fuel) :
    ∃ fuel', q.rest.length < fuel' ∧ Token.scanFrom fuel p.ignoring p.outer p.rest =
      (Token.scanFrom fuel' q.ignoring q.outer q.rest).map (ts ++ ·) := by
  induction h generalizing fuel with
  | done p => exact ⟨fuel, hfuel, by simp⟩
  | @token p q c r rest token ignoring outer ts hs hnext hsettle _ ih =>
    obtain ⟨fuel, rfl⟩ : ∃ n, fuel = n + 1 := ⟨fuel - 1, by omega⟩
    have hlen := length_lt_of_next hs hnext
    obtain ⟨fuel', hfuel', heq⟩ := ih (show rest.length < fuel by omega)
    refine ⟨fuel', hfuel', ?_⟩
    rw [Token.scanFrom, hs]
    dsimp only
    rw [hnext]
    dsimp only [Option.bind_eq_bind, Option.bind_some]
    rw [hsettle]
    dsimp only [Option.bind_eq_bind, Option.bind_some] at heq ⊢
    rw [heq]
    cases Token.scanFrom fuel' q.ignoring q.outer q.rest <;> rfl

theorem Scans.of_scanFrom {fuel : Nat}
    (h : Token.scanFrom fuel ignoring outer s = some ts) :
    ∃ ignoring' s', Scans ⟨ignoring, outer, s⟩ ts ⟨ignoring', [], s'⟩ ∧
      Layout.skip ignoring' s' = [] := by
  induction fuel generalizing ignoring outer s ts with
  | zero => cases h
  | succ fuel ih =>
    rw [Token.scanFrom] at h
    split at h
    · next hs =>
      split at h
      · next houter =>
        cases h
        subst houter
        exact ⟨ignoring, s, .done _, hs⟩
      · cases h
    · next c r hs =>
      obtain ⟨⟨token, rest⟩, hnext, h⟩ := Option.bind_eq_some_iff.1 h
      obtain ⟨⟨ignoring₁, outer₁⟩, hsettle, h⟩ := Option.bind_eq_some_iff.1 h
      obtain ⟨ts, hts, h⟩ := Option.bind_eq_some_iff.1 h
      cases h
      obtain ⟨ignoring', s', hscan, hend⟩ := ih hts
      exact ⟨ignoring', s', .token hs hnext hsettle hscan, hend⟩

theorem scanFrom_of_skip_eq_nil {fuel : Nat} (hs : Layout.skip ignoring s = []) :
    scanFrom (fuel + 1) ignoring outer s = if outer = [] then some [] else none := by
  rw [scanFrom, hs]

/-- **A pattern is read into tokens just if a scan leaves nothing of it**, and no group open. -/
theorem scanFrom_eq_some_iff {fuel : Nat} (hfuel : s.length < fuel) :
    scanFrom fuel ignoring outer s = some ts ↔
      ∃ ignoring' s', Scans ⟨ignoring, outer, s⟩ ts ⟨ignoring', [], s'⟩ ∧
        Layout.skip ignoring' s' = [] := by
  refine ⟨Scans.of_scanFrom, ?_⟩
  rintro ⟨ignoring', s', hscan, hend⟩
  obtain ⟨fuel', hfuel', heq⟩ := hscan.scanFrom hfuel
  obtain ⟨n, rfl⟩ : ∃ n, fuel' = n + 1 := ⟨fuel' - 1, by omega⟩
  rw [heq, scanFrom_of_skip_eq_nil hend]
  simp

theorem scan_eq_some_iff :
    scan ignoring s = some ts ↔
      (∃ ignoring' s', Scans ⟨ignoring, [], s⟩ ts ⟨ignoring', [], s'⟩ ∧
        Layout.skip ignoring' s' = []) ∧ (ts.filterMap name?).Nodup := by
  rw [← scanFrom_eq_some_iff (Nat.lt_succ_self s.length), scan]
  constructor
  · intro h
    obtain ⟨ts', hts', h⟩ := Option.bind_eq_some_iff.1 h
    split at h
    · next hnodup =>
      cases h
      exact ⟨hts', hnodup⟩
    · cases h
  · exact fun ⟨h, hnodup⟩ => Option.bind_eq_some_iff.2 ⟨ts, h, if_pos hnodup⟩

/-! ## Scans are determined by where they begin -/

theorem Scans.append {p' : Place} {ts' : List Token} (h : Scans p ts q) (h' : Scans q ts' p') :
    Scans p (ts ++ ts') p' := by
  induction h with
  | done p => exact h'
  | token hs hnext hsettle _ ih => exact .token hs hnext hsettle (ih h')

/-- At the end of a pattern there are no more tokens. -/
theorem Scans.of_end (h : Scans p ts q) (hend : Layout.skip p.ignoring p.rest = []) :
    ts = [] ∧ p = q := by
  cases h with
  | done => exact ⟨rfl, rfl⟩
  | token hs => cases hend.symm.trans hs

/-- A scan is the beginning of every scan to the end. -/
theorem Scans.exists_append {q' : Place} {ts' : List Token} (h : Scans p ts q)
    (h' : Scans p ts' q') (hend : Layout.skip q'.ignoring q'.rest = []) :
    ∃ ts'', ts' = ts ++ ts'' ∧ Scans q ts'' q' := by
  induction h generalizing ts' with
  | done p => exact ⟨ts', rfl, h'⟩
  | token hs hnext hsettle _ ih =>
    cases h' with
    | done => cases hend.symm.trans hs
    | token hs' hnext' hsettle' htail =>
      cases hs.symm.trans hs'
      cases hnext.symm.trans hnext'
      cases hsettle.symm.trans hsettle'
      obtain ⟨ts'', rfl, hrest⟩ := ih htail
      exact ⟨ts'', rfl, hrest⟩

/-- No scan goes on from a closing parenthesis where no group is open. -/
theorem Scans.eq_of_closing {r : List Char} (h : Scans ⟨ignoring, [], s⟩ ts q)
    (hs : Layout.skip ignoring s = ')' :: r) : q = ⟨ignoring, [], s⟩ := by
  cases h with
  | done => rfl
  | token hs' hnext hsettle =>
    cases hs.symm.trans hs'
    cases hnext
    cases hsettle

/-! ## Scans are local -/

theorem Scans.suffix (h : Scans p ts q) : q.rest <:+ p.rest := by
  induction h with
  | done p => exact List.suffix_rfl
  | @token p q c r rest token ignoring outer ts hs hnext hsettle _ ih =>
    have hrest : rest <:+ c :: r :=
      ((localOn_next p.ignoring c).suffix hnext).trans (List.suffix_cons c r)
    exact (ih.trans hrest).trans (hs ▸ Layout.skip_suffix p.ignoring p.rest)

/-- Where a scan ends well before a closing parenthesis, or goes on to one, no brace stands that
could begin the name of a word edge only at the end of the text. -/
theorem Scans.skip_ne_nil (h : Scans p ts q) (hv : Stops v) {m : List Char}
    (hp : p.rest = m ++ v) (hq : q.rest = k ++ v)
    (hend : ∀ j, k = '\x7b' :: j → Layout.skip q.ignoring j ≠ []) :
    ∀ j, m = '\x7b' :: j → Layout.skip p.ignoring j ≠ [] := by
  rintro j rfl
  cases h with
  | done => exact hend j (List.append_cancel_right (hq.symm.trans hp))
  | token hs hnext _ htail =>
    rw [hp, List.cons_append, Layout.skip_brace] at hs
    obtain ⟨rfl, rfl⟩ := List.cons.inj hs
    obtain ⟨m', rfl⟩ := exists_eq_append_of_suffix (hq ▸ htail.suffix)
    exact skip_ne_nil_of_counted hv hnext

/-- **A scan that ends before a closing parenthesis does not depend on what stands from there
on.** -/
theorem Scans.exchange (h : Scans p ts q) (hv : Closing v) (hw : Stops w) (hp : p.rest = u ++ v)
    (hq : q.rest = k ++ v) (hend : ∀ j, k = '\x7b' :: j → Layout.skip q.ignoring j ≠ []) :
    Scans ⟨p.ignoring, p.outer, u ++ w⟩ ts ⟨q.ignoring, q.outer, k ++ w⟩ := by
  induction h generalizing u with
  | done p =>
    obtain rfl : k = u := List.append_cancel_right (hq.symm.trans hp)
    exact .done _
  | @token p q c r rest token ignoring outer ts hs hnext hsettle htail ih =>
    obtain ⟨m, hm⟩ : ∃ m, rest = m ++ v := exists_eq_append_of_suffix (hq ▸ htail.suffix)
    obtain ⟨r', rfl⟩ : ∃ r', r = r' ++ v :=
      exists_eq_append_of_suffix (hm ▸ (localOn_next p.ignoring c).suffix hnext)
    have hu : Layout.skip p.ignoring u = c :: r' :=
      Layout.skip_of_append hv.stops (by rw [← hp, hs, List.cons_append])
    have hskip : Layout.skip p.ignoring (u ++ w) = c :: (r' ++ w) := by
      rw [Layout.skip_append (by rw [hu]; exact List.cons_ne_nil c r'), hu, List.cons_append]
    have hsettled : Settled p.ignoring token m := by
      rintro e rfl a j rfl hj
      cases hsettle
      exact htail.skip_ne_nil hv.stops hm hq hend j hj
    have hnext' := (localOn_next p.ignoring c).exchange hv hw hsettled (hm ▸ hnext)
    exact .token hskip hnext' hsettle (ih hm hq hend)

/-- A scan of the text is one with a closing parenthesis or a line end behind it, or what follows is
taken by a comment or as a blank. -/
theorem Scans.extend (h : Scans p ts q) (hv : Follows v w)
    (hend : Layout.skip q.ignoring q.rest = []) :
    Scans ⟨p.ignoring, p.outer, p.rest ++ v⟩ ts ⟨q.ignoring, q.outer, q.rest ++ v⟩ ∨
      (CommentsEnd p.rest → v.head? = some '\n') ∧
        Scans ⟨p.ignoring, p.outer, p.rest ++ v⟩ ts ⟨q.ignoring, q.outer, w⟩ := by
  induction h with
  | done p => exact .inl (.done _)
  | @token p q c r rest token ignoring outer ts hs hnext hsettle htail ih =>
    have hskip : Layout.skip p.ignoring (p.rest ++ v) = c :: (r ++ v) := by
      rw [Layout.skip_append (by rw [hs]; exact List.cons_ne_nil c r), hs, List.cons_append]
    have hr : r <:+ p.rest :=
      (List.suffix_cons c r).trans (hs ▸ Layout.skip_suffix p.ignoring p.rest)
    have hrest : rest <:+ p.rest := ((localOn_next p.ignoring c).suffix hnext).trans hr
    have hsettled : Settled p.ignoring token rest := by
      rintro e rfl a j rfl hj
      cases hsettle
      refine htail.skip_ne_nil stops_nil (List.append_nil _).symm (List.append_nil _).symm ?_ j hj
      intro j hq
      rw [hq, Layout.skip_brace] at hend
      cases hend
    rcases (localOn_next p.ignoring c).extend hv hsettled hnext with
      hnext' | ⟨rfl, hhead, hnext'⟩
    · exact (ih hend).imp (.token hskip hnext' hsettle) fun ⟨hhead, h⟩ =>
        ⟨fun hc => hhead (hc.suffix hrest), .token hskip hnext' hsettle h⟩
    · obtain ⟨rfl, rfl⟩ := htail.of_end (Layout.skip_nil _)
      exact .inr ⟨fun hc => hhead (hc.suffix hr), .token hskip hnext' hsettle (.done _)⟩

/-! ## Where blanks stay ignored -/

/-- Blanks are ignored where the pattern ends. -/
def EndsIgnoring (ignoring : Bool) (s : List Char) : Prop :=
  ∃ ts s', Scans ⟨ignoring, [], s⟩ ts ⟨true, [], s'⟩ ∧ Layout.skip true s' = []

/-- A switch that is not thrown off leaves blanks ignored. -/
theorem ignoringAfter_true {changes : FlagChanges} (h : ∀ change ∈ changes, change.2 = true) :
    ignoringAfter true changes = true := by
  rw [ignoringAfter]
  cases hlookup : changes.lookup .ignoreBlanks with
  | none => rfl
  | some b =>
    obtain ⟨front, back, rfl, -⟩ := List.lookup_eq_some_iff.1 hlookup
    exact h _ (List.mem_append_right front List.mem_cons_self)

/-- Where blanks are ignored, they stay ignored if switches are only thrown on. -/
theorem ignoring_of_settle (hon : token.ThrowsOn) (houter : ∀ b ∈ outer, b = true)
    (h : settle true outer token = some (ignoring', outer')) :
    ignoring' = true ∧ ∀ b ∈ outer', b = true := by
  cases token with
  | opened name changes =>
    cases h
    exact ⟨ignoringAfter_true hon, List.forall_mem_cons.2 ⟨rfl, houter⟩⟩
  | switched changes =>
    cases h
    exact ⟨ignoringAfter_true hon, houter⟩
  | closed =>
    cases outer with
    | nil => cases h
    | cons b outer =>
      cases h
      exact List.forall_mem_cons.1 houter
  | _ =>
    cases h
    exact ⟨rfl, houter⟩

/-- So they are ignored at the end of a scan, in the groups around as well. -/
theorem Scans.ignoring_eq (h : Scans p ts q) (hp : p.ignoring = true)
    (houter : ∀ b ∈ p.outer, b = true) (hrest : '-' ∉ p.rest) : q.ignoring = true := by
  induction h with
  | done p => exact hp
  | @token p q c r rest token ignoring outer ts hs hnext hsettle _ ih =>
    have hr : r <:+ p.rest :=
      (List.suffix_cons c r).trans (hs ▸ Layout.skip_suffix p.ignoring p.rest)
    have htail : rest <:+ p.rest := ((localOn_next p.ignoring c).suffix hnext).trans hr
    have hon := throwsOn_of_next (fun hmem => hrest (hr.subset hmem)) hnext
    rw [hp] at hsettle
    obtain ⟨hignoring, houter⟩ := ignoring_of_settle hon houter hsettle
    exact ih hignoring houter fun hmem => hrest (htail.subset hmem)

/-- **A pattern without a hyphen throws no switch off.** -/
theorem endsIgnoring_of_not_mem (hs : '-' ∉ s) (h : scan true s = some ts) :
    EndsIgnoring true s := by
  obtain ⟨⟨ignoring', s', hscan, hend⟩, -⟩ := scan_eq_some_iff.1 h
  obtain rfl : ignoring' = true := hscan.ignoring_eq rfl (List.forall_mem_nil _) hs
  exact ⟨ts, s', hscan, hend⟩

/-- **Behind a scan that ends where blanks are ignored, a line end only ends a comment**: what
follows is then what comes next. -/
theorem Scans.line (h : Scans p ts ⟨true, outer, s⟩) (hs : Layout.skip true s = [])
    (hw : Stops w) (hline : '\n' ∉ w) :
    ∃ s', Scans ⟨p.ignoring, p.outer, p.rest ++ '\n' :: w⟩ ts ⟨true, outer, s'⟩ ∧
      Layout.skip true s' = w := by
  rcases h.extend (.line hw hline) hs with h' | ⟨-, h'⟩
  · exact ⟨s ++ '\n' :: w, h', Layout.skip_line hs hw hline⟩
  · exact ⟨w, h', Layout.skip_of_stops hw⟩

/-! ## Groups -/

/-- Only a closing parenthesis closes a group. -/
theorem next_closed {r rest : List Char} (h : next ignoring c r = some (closed, rest)) :
    c = ')' ∧ rest = r := by
  unfold next at h
  split at h
  · rcases opened_or_switched_of_parenthesis h with ⟨_, _, h⟩ | ⟨_, h⟩ <;> cases h
  · cases h
    exact ⟨rfl, rfl⟩
  · cases h
  · obtain ⟨_, -, heq⟩ := Option.map_eq_some_iff.1 h
    cases heq
  · cases h
  · cases h
  · cases h
  · obtain ⟨_, _, h, -⟩ := exists_repeated_of_counted h
    cases h
  · obtain ⟨_, -, heq⟩ := Option.map_eq_some_iff.1 h
    cases heq
  · cases h
  · cases h
  · cases h
  · cases h

/-- A group that no token closes makes no difference. -/
theorem settle_append (h : token ≠ closed ∨ outer ≠ []) (o : List Bool) :
    settle ignoring (outer ++ o) token =
      (settle ignoring outer token).map fun (ignoring, outer) => (ignoring, outer ++ o) := by
  cases token with
  | closed =>
    cases outer with
    | nil => exact absurd rfl (h.resolve_left fun h => h rfl)
    | cons b outer => rfl
  | _ => rfl

/-- A scan goes the same way inside more groups. -/
theorem Scans.within (h : Scans p ts q) (o : List Bool) :
    Scans ⟨p.ignoring, p.outer ++ o, p.rest⟩ ts ⟨q.ignoring, q.outer ++ o, q.rest⟩ := by
  induction h with
  | done p => exact .done _
  | @token p q c r rest token ignoring outer ts hs hnext hsettle _ ih =>
    refine .token hs hnext ?_ ih
    have hopen : token ≠ closed ∨ p.outer ≠ [] := by
      by_contra hno
      obtain ⟨htoken, houter⟩ := not_or.1 hno
      rw [not_not.1 htoken, not_not.1 houter] at hsettle
      cases hsettle
    rw [settle_append hopen, hsettle]
    rfl

/-- **A group that is closed holds a scan of its own**, up to its closing parenthesis. -/
theorem Scans.exists_closed (h : Scans p ts q) {b : Bool} {o : List Bool}
    (hp : p.outer = outer ++ b :: o) (hq : q.outer.length ≤ o.length) :
    ∃ ts₁ ts₂ ignoring₁ s₁ r, ts = ts₁ ++ closed :: ts₂ ∧
      Scans ⟨p.ignoring, outer, p.rest⟩ ts₁ ⟨ignoring₁, [], s₁⟩ ∧
      Layout.skip ignoring₁ s₁ = ')' :: r ∧ Scans ⟨b, o, r⟩ ts₂ q := by
  induction h generalizing outer with
  | done p =>
    rw [hp, List.length_append, List.length_cons] at hq
    omega
  | @token p q c r rest token ignoring outer' ts hs hnext hsettle htail ih =>
    by_cases hopen : token ≠ closed ∨ outer ≠ []
    · rw [hp, settle_append hopen] at hsettle
      obtain ⟨⟨ignoring₁, outer₁⟩, hsettle₁, heq⟩ := Option.map_eq_some_iff.1 hsettle
      cases heq
      obtain ⟨ts₁, ts₂, ignoring₂, s₁, r', rfl, hscan, hclose, hrest⟩ := ih rfl hq
      exact ⟨token :: ts₁, ts₂, ignoring₂, s₁, r', rfl, .token hs hnext hsettle₁ hscan, hclose,
        hrest⟩
    · obtain ⟨htoken, houter⟩ := not_or.1 hopen
      obtain rfl := not_not.1 htoken
      obtain rfl := not_not.1 houter
      rw [hp] at hsettle
      cases hsettle
      obtain ⟨rfl, rfl⟩ := next_closed hnext
      exact ⟨[], ts, p.ignoring, p.rest, rest, rfl, .done _, hs, htail⟩

end TreeRules.Pattern.Token
