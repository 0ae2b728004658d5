import TreeRules.Pattern.Token
import TreeRules.Proofs.Pattern.Bracket

/-!
# Proofs/Pattern/Token — tokens are read locally

The token that begins with a character does not depend on what stands from a later closing
parenthesis on (`Token.localOn_next`), with the one exception that escapes make.  Without a hyphen a
token throws no switch off (`Token.throwsOn_of_next`).
-/

namespace TreeRules.Pattern.Token

variable {ignoring : Bool} {c : Char} {s t u v w k : List Char}

/-! ## Repetitions -/

theorem digits_suffix (b : Bool) (s : List Char) : (digits ignoring b s).2 <:+ s := by
  induction s generalizing b with
  | nil => rw [digits]
  | cons c s ih =>
    rw [digits]
    split
    · exact (ih _).trans (List.suffix_cons c s)
    · split
      · exact (ih _).trans (List.suffix_cons c s)
      · split
        · exact (ih _).trans (List.suffix_cons c s)
        · split
          · exact (ih _).trans (List.suffix_cons c s)
          · exact List.suffix_rfl

/-- No digit, blank or comment begins with a closing parenthesis. -/
theorem digits_of_stops (h : Stops v) : digits ignoring false v = ([], v) := by
  rcases h.nil_or_closing with rfl | h
  · rfl
  · obtain ⟨s, rfl⟩ := h.exists_cons
    cases ignoring <;> rfl

theorem digits_exchange {b : Bool} {d : List Char} (hv : Closing v) (hw : Stops w)
    (h : digits ignoring b (u ++ v) = (d, k ++ v)) :
    digits ignoring b (u ++ w) = (d, k ++ w) := by
  induction u generalizing b d with
  | nil =>
    cases b with
    | false =>
      rw [List.nil_append, digits_of_stops hv.stops] at h
      obtain ⟨rfl, hk⟩ := Prod.mk.inj h
      obtain rfl : [] = k := List.append_cancel_right (hk : [] ++ v = k ++ v)
      exact digits_of_stops hw
    | true =>
      obtain ⟨s, rfl⟩ := hv.exists_cons
      have hd : digits ignoring true s = (d, k ++ ')' :: s) := h
      have hlen := hd ▸ (digits_suffix true s).length_le
      rw [List.length_append, List.length_cons] at hlen
      omega
  | cons c u ih =>
    rw [List.cons_append, digits] at h ⊢
    split
    · next hb => exact ih (by rwa [if_pos hb] at h)
    · next hb =>
      rw [if_neg hb] at h
      split
      · next hdigit =>
        rw [if_pos hdigit] at h
        obtain ⟨rfl, hk⟩ := Prod.mk.inj h
        exact congrArg (fun y => (c :: y.1, y.2)) (ih (Prod.ext rfl hk))
      · next hdigit =>
        rw [if_neg hdigit] at h
        split
        · next hblank => exact ih (by rwa [if_pos hblank] at h)
        · next hblank =>
          rw [if_neg hblank] at h
          split
          · next hmark => exact ih (by rwa [if_pos hmark] at h)
          · next hmark =>
            rw [if_neg hmark] at h
            obtain ⟨rfl, hk⟩ := Prod.mk.inj h
            obtain rfl : c :: u = k := List.append_cancel_right hk
            rfl

theorem digits_comment (hline : '\n' ∉ v) : digits ignoring true v = ([], []) := by
  induction v with
  | nil => rfl
  | cons c v ih =>
    have hc : (c != '\n') = true := bne_iff_ne.2 fun h => hline (h ▸ List.mem_cons_self)
    rw [digits, if_pos rfl, hc]
    exact ih fun h => hline (List.mem_cons_of_mem c h)

/-- What follows digits is left, unless a comment is open there or it is a line end; `b` says that
a comment is open from the beginning. -/
theorem digits_extend {b : Bool} (hv : Follows v w) :
    digits ignoring b (u ++ v) = ((digits ignoring b u).1, (digits ignoring b u).2 ++ v) ∨
      (digits ignoring b u).2 = [] ∧
        ((b = true → '\n' ∈ u) → CommentsEnd u → v.head? = some '\n') ∧
        digits ignoring b (u ++ v) = ((digits ignoring b u).1, w) := by
  induction u generalizing b with
  | nil =>
    cases hv with
    | closing hv hline =>
      cases b with
      | false => exact .inl (digits_of_stops hv.stops)
      | true => exact .inr ⟨rfl, fun h => (List.not_mem_nil (h rfl)).elim, digits_comment hline⟩
    | line hw =>
      cases b with
      | false =>
        cases ignoring with
        | false => exact .inl rfl
        | true => exact .inr ⟨rfl, fun _ _ => rfl, digits_of_stops hw⟩
      | true => exact .inr ⟨rfl, fun _ _ => rfl, digits_of_stops hw⟩
  | cons c u ih =>
    have hsuffix : u <:+ c :: u := List.suffix_cons c u
    have hnone : false = true → '\n' ∈ u := fun h => (Bool.false_ne_true h).elim
    rw [List.cons_append, digits, digits]
    split
    · next hb =>
      refine ih.imp_right fun ⟨hnil, hhead, h⟩ => ⟨hnil, fun hline hc => ?_, h⟩
      refine hhead (fun hne => ?_) (hc.suffix hsuffix)
      exact (List.mem_cons.1 (hline hb)).resolve_left (bne_iff_ne.1 hne).symm
    · split
      · rcases @ih false with h | ⟨hnil, hhead, h⟩
        · exact .inl (congrArg (fun y => (c :: y.1, y.2)) h)
        · exact .inr ⟨hnil, fun _ hc => hhead hnone (hc.suffix hsuffix),
            congrArg (fun y => (c :: y.1, y.2)) h⟩
      · split
        · exact ih.imp_right fun ⟨hnil, hhead, h⟩ =>
            ⟨hnil, fun _ hc => hhead hnone (hc.suffix hsuffix), h⟩
        · split
          · next hmark =>
            obtain rfl := beq_iff_eq.1 (Bool.and_eq_true_iff.1 hmark).2
            exact ih.imp_right fun ⟨hnil, hhead, h⟩ =>
              ⟨hnil, fun _ hc => hhead (fun _ => hc.mem_of_cons) (hc.suffix hsuffix), h⟩
          · exact .inl rfl

theorem local_digits (ignoring : Bool) : Local [] fun s => some (digits ignoring false s) where
  suffix {s k d} hs := by
    have hk : (digits ignoring false s).2 = k := congrArg Prod.snd (Option.some.inj hs)
    exact hk ▸ digits_suffix false s
  exchange hv hw _ hr := congrArg some (digits_exchange hv hw (Option.some.inj hr))
  extend {u v w k d} hv _ hr := by
    obtain rfl : (digits ignoring false u).1 = d := congrArg Prod.fst (Option.some.inj hr)
    obtain rfl : (digits ignoring false u).2 = k := congrArg Prod.snd (Option.some.inj hr)
    exact (digits_extend hv).imp (congrArg some)
      fun ⟨hnil, hhead, h⟩ =>
        ⟨hnil, hhead fun h => (Bool.false_ne_true h).elim, congrArg some h⟩

/-- The number that digits show, if there are digits and it is not too large. -/
def number? (shown : List Char) : Option Nat :=
  if shown = [] ∨ 0x100000000 ≤ Literal.natOfDigits shown then none
  else some (Literal.natOfDigits shown)

theorem count_eq (s : List Char) :
    count ignoring s =
      some (digits ignoring false (s.dropWhile Text.isBlank)) >>= fun (shown, rest) =>
        number? shown >>= fun n => some (n, rest.dropWhile Text.isBlank) := by
  rw [count]
  dsimp only
  rw [Option.bind_eq_bind, Option.bind_some]
  unfold number?
  split <;> rfl

theorem local_count (ignoring : Bool) : Local [] (count ignoring) := by
  rw [show count ignoring = _ from funext count_eq]
  refine .bind (.dropBlanks (local_digits ignoring)) fun shown => ?_
  exact .given (number? shown) fun n => .dropBlanks (.done n)

/-- No number begins with a closing parenthesis. -/
theorem count_of_stops (h : Stops v) : count ignoring v = none := by
  have hblank : v.dropWhile Text.isBlank = v := Layout.dropBlanks_append (u := []) h
  rw [count_eq, hblank, digits_of_stops h]
  rfl

theorem localOn_preference {α : Type} {ok : α → List Char → Prop} (x : α) :
    LocalOn ok [] fun s => some (x, preference s) := by
  refine .of_head (d := '?') (by decide) (fun _ => rfl) (fun s hs => ?_)
    (.weaken (.done x) _) (.done x)
  unfold preference
  split
  · exact absurd rfl hs
  · rfl

/-- The end of a counted repetition. -/
def closeBrace (ignoring : Bool) (token : Token) : List Char → Option (Token × List Char)
  | '\x7d' :: rest => some (token, preference (Layout.skip ignoring rest))
  | _ => none

theorem local_closeBrace (ignoring : Bool) (token : Token) :
    Local [] (closeBrace ignoring token) := by
  refine .of_head (d := '\x7d') (by decide) (fun _ => rfl) (fun s hs => ?_)
    (.weaken (.skip (localOn_preference token) ignoring) _) .fail
  unfold closeBrace
  split
  · exact absurd rfl hs
  · rfl

/-- A counted repetition with an upper bound, after its comma. -/
def upTo (ignoring : Bool) (least : Nat) (s : List Char) : Option (Token × List Char) :=
  count ignoring s >>= fun (most, rest) =>
    (if least ≤ most then some (repeated least (some most)) else none) >>= fun token =>
      closeBrace ignoring token rest

/-- A counted repetition after its comma. -/
def afterComma (ignoring : Bool) (least : Nat) (s : List Char) : Option (Token × List Char) :=
  if s.head? = some '\x7d' then closeBrace ignoring (repeated least none) s
  else upTo ignoring least s

/-- A counted repetition after its first number. -/
def afterLeast (ignoring : Bool) (least : Nat) : List Char → Option (Token × List Char)
  | ',' :: rest => afterComma ignoring least (Layout.skip ignoring rest)
  | rest => closeBrace ignoring (repeated least (some least)) rest

theorem counted_eq (s : List Char) :
    counted ignoring s =
      count ignoring (Layout.skip ignoring s) >>= fun (least, rest) =>
        afterLeast ignoring least rest := by
  rw [counted]
  refine Option.bind_congr fun ⟨least, rest⟩ h => ?_
  clear h
  dsimp only
  split
  · rfl
  · next rest =>
    change _ = afterComma ignoring least (Layout.skip ignoring rest)
    generalize Layout.skip ignoring rest = t
    rw [afterComma]
    split
    · exact (if_pos rfl).symm
    · next hne =>
      have hhead : t.head? ≠ some '\x7d' := fun h => by
        obtain ⟨r, rfl⟩ := List.head?_eq_some_iff.1 h
        exact hne r rfl
      rw [if_neg hhead, upTo]
      refine Option.bind_congr fun ⟨most, rest⟩ _ => ?_
      dsimp only
      by_cases hle : least ≤ most
      · simp only [if_pos hle, Option.bind_eq_bind, Option.bind_some]
        unfold closeBrace
        split <;> simp_all
      · simp only [if_neg hle]
        split <;> rfl
  · unfold afterLeast closeBrace
    split
    · simp_all
    · split
      · simp_all
      · rfl

theorem local_afterLeast (ignoring : Bool) (least : Nat) :
    Local [] (afterLeast ignoring least) := by
  have hcomma : Local [] (afterComma ignoring least) := by
    refine .ite (fun u v hv => hv.head?_append (by decide))
      (local_closeBrace ignoring (repeated least none)) ?_
    exact .bind (local_count ignoring) fun most =>
      .given _ fun token => local_closeBrace ignoring token
  refine .of_head (d := ',') (by decide) (fun _ => rfl) (fun s hs => ?_)
    (.weaken (.skip hcomma ignoring) _)
    (local_closeBrace ignoring (repeated least (some least)))
  unfold afterLeast
  split
  · exact absurd rfl hs
  · rfl

theorem local_counted (ignoring : Bool) : Local [] (counted ignoring) := by
  rw [show counted ignoring = _ from funext counted_eq]
  exact .bind (.skip (local_count ignoring) ignoring) (local_afterLeast ignoring)

theorem eq_of_closeBrace {token token' : Token}
    (h : closeBrace ignoring token s = some (token', k)) : token' = token := by
  unfold closeBrace at h
  split at h <;> cases h
  rfl

/-- A counted repetition has no more rounds to make than it may make. -/
theorem exists_repeated_of_counted {token : Token}
    (h : counted ignoring s = some (token, k)) :
    ∃ least most, token = repeated least most ∧ ∀ m ∈ most, least ≤ m := by
  rw [counted_eq] at h
  obtain ⟨⟨least, rest⟩, -, h⟩ := Option.bind_eq_some_iff.1 h
  dsimp only at h
  unfold afterLeast at h
  split at h
  · unfold afterComma at h
    split at h
    · exact ⟨least, none, eq_of_closeBrace h, fun m hm => by cases hm⟩
    · obtain ⟨⟨most, rest'⟩, -, h⟩ := Option.bind_eq_some_iff.1 h
      obtain ⟨token', htoken, h⟩ := Option.bind_eq_some_iff.1 h
      split at htoken
      · next hle =>
        cases htoken
        exact ⟨least, some most, eq_of_closeBrace h, fun m hm => Option.some.inj hm ▸ hle⟩
      · cases htoken
  · exact ⟨least, some least, eq_of_closeBrace h, fun m hm => (Option.some.inj hm).le⟩

/-- A count does not begin with a closing parenthesis. -/
theorem skip_ne_nil_of_counted {token : Token} (hv : Stops v)
    (h : counted ignoring (s ++ v) = some (token, k ++ v)) : Layout.skip ignoring s ≠ [] := by
  rw [counted_eq] at h
  obtain ⟨⟨least, rest⟩, hcount, h⟩ := Option.bind_eq_some_iff.1 h
  have hrest : k ++ v <:+ Layout.skip ignoring (s ++ v) :=
    ((local_afterLeast ignoring least).suffix h).trans ((local_count ignoring).suffix hcount)
  obtain ⟨m, hm⟩ := exists_eq_append_of_suffix hrest
  rw [hm] at hcount
  rw [Layout.skip_of_append hv hm]
  rintro rfl
  cases (count_of_stops hv).symm.trans hcount

/-! ## Groups -/

/-- Switches end before a colon or a closing parenthesis, and nothing else counts behind them. -/
theorem switches_taken {thrown changes : FlagChanges} {off last : Bool}
    (h : switches thrown off last s = some (changes, k)) :
    ∃ t d r, s = t ++ d :: r ∧ k = d :: r ∧
      ∀ r', switches thrown off last (t ++ d :: r') = some (changes, d :: r') := by
  induction s generalizing thrown off last with
  | nil => cases h
  | cons c s ih =>
    rw [switches] at h
    split at h
    · next hend =>
      split at h
      · cases h
      · next hlast =>
        obtain ⟨rfl, rfl⟩ := Prod.mk.inj (Option.some.inj h)
        exact ⟨[], c, s, rfl, rfl, fun r' => by
          rw [List.nil_append, switches, if_pos hend, if_neg hlast]⟩
    · next hend =>
      split at h
      · next hminus =>
        split at h
        · cases h
        · next hoff =>
          obtain ⟨t, d, r, rfl, hk, ht⟩ := ih h
          exact ⟨c :: t, d, r, rfl, hk, fun r' => by
            rw [List.cons_append, switches, if_neg hend, if_pos hminus, if_neg hoff, ht]⟩
      · next hminus =>
        obtain ⟨flag, hflag, h⟩ := Option.bind_eq_some_iff.1 h
        split at h
        · cases h
        · next hthrown =>
          obtain ⟨t, d, r, rfl, hk, ht⟩ := ih h
          exact ⟨c :: t, d, r, rfl, hk, fun r' => by
            rw [List.cons_append, switches, if_neg hend, if_neg hminus, hflag]
            exact (if_neg hthrown).trans (ht r')⟩

/-- A group's name ends with its bracket, and nothing else counts behind it. -/
theorem groupName_taken {name : List Char} (h : groupName s = some (name, k)) :
    ∃ c t, s = c :: t ++ k ∧ c ∉ ['=', '!'] ∧ ∀ r, groupName (c :: t ++ r) = some (name, r) := by
  have hsplit : s.takeWhile (· != '>') ++ s.drop (s.takeWhile (· != '>')).length = s :=
    List.prefix_iff_eq_append.1 (List.takeWhile_prefix _)
  rw [groupName] at h
  split at h
  · next first more rest hname hrest =>
    split at h
    · next hok =>
      obtain ⟨rfl, rfl⟩ := Prod.mk.inj (Option.some.inj h)
      rw [hrest] at hsplit
      have hmark : ∀ d ∈ first :: more, (d != '>') = true := fun d hd =>
        List.mem_takeWhile_imp (p := (· != '>')) (hname ▸ hd)
      refine ⟨first, more ++ ['>'], ?_, ?_, fun r => ?_⟩
      · rw [← hsplit, hname]
        simp
      · intro hfirst
        simp only [List.mem_cons, List.not_mem_nil, or_false] at hfirst
        rcases hfirst with rfl | rfl <;> cases hok
      · have htext : first :: (more ++ ['>']) ++ r = (first :: more) ++ '>' :: r := by simp
        have hfront : ((first :: more) ++ '>' :: r).takeWhile (· != '>') = first :: more := by
          rw [List.takeWhile_append_of_pos hmark]
          simp
        rw [htext, groupName]
        simp only [hfront, List.drop_left]
        rw [if_pos hok, hname]
    · cases h
  · cases h

/-! ### What a question mark after the parenthesis begins -/

theorem skip_question (s : List Char) : Layout.skip ignoring ('?' :: s) = '?' :: s := by
  cases ignoring <;> rfl

theorem parenthesis_name (s : List Char) :
    parenthesis ignoring ('?' :: 'P' :: '<' :: s) =
      (groupName s).map fun (name, rest) => (opened (some name) [], rest) := by
  cases ignoring <;> rfl

theorem parenthesis_angle (hc : c ∉ ['=', '!']) (s : List Char) :
    parenthesis ignoring ('?' :: '<' :: c :: s) =
      (groupName (c :: s)).map fun (name, rest) => (opened (some name) [], rest) := by
  rw [parenthesis, skip_question]
  split
  · next h => cases h
  · next h => cases h
  · next h =>
    cases h
    exact absurd (List.mem_cons_self) hc
  · next h =>
    cases h
    exact absurd (List.mem_cons_of_mem _ List.mem_cons_self) hc
  · next h => cases h
  · next h =>
    cases h
    rfl
  · next hangle h =>
    cases h
    exact absurd rfl (hangle _)
  · next hmark =>
    exact absurd rfl (hmark _)

/-- What follows the switches that a question mark begins. -/
def afterSwitches : FlagChanges × List Char → Option (Token × List Char)
  | (changes, ':' :: rest) => some (opened none changes, rest)
  | (changes, ')' :: rest) => if changes = [] then none else some (switched changes, rest)
  | _ => none

theorem parenthesis_switches (hs : ∀ c ∈ s.head?, c ∉ ['=', '!', '<'])
    (hname : ∀ t, s ≠ 'P' :: '<' :: t) :
    parenthesis ignoring ('?' :: s) = switches [] false false s >>= afterSwitches := by
  have hfirst : ∀ c ∈ ['=', '!', '<'], ∀ t, '?' :: s ≠ '?' :: c :: t := fun c hc t h =>
    hs c (by rw [(List.cons.inj h).2]; rfl) hc
  rw [parenthesis, skip_question]
  split
  · next h => exact absurd h (hfirst '=' (by decide) _)
  · next h => exact absurd h (hfirst '!' (by decide) _)
  · next h => exact absurd h (hfirst '<' (by decide) _)
  · next h => exact absurd h (hfirst '<' (by decide) _)
  · next h => exact absurd (List.cons.inj h).2 (hname _)
  · next h => exact absurd h (hfirst '<' (by decide) _)
  · next h =>
    obtain ⟨-, rfl⟩ := List.cons.inj h
    refine Option.bind_congr fun ⟨changes, rest⟩ _ => ?_
    dsimp only
    unfold afterSwitches
    split
    · rfl
    · rfl
    · split <;> simp_all
  · next hmark => exact absurd rfl (hmark _)

theorem afterSwitches_taken {changes : FlagChanges} {d : Char} {r : List Char} {token : Token}
    (h : afterSwitches (changes, d :: r) = some (token, k)) :
    k = r ∧ ∀ r', afterSwitches (changes, d :: r') = some (token, r') := by
  unfold afterSwitches at h
  split at h
  · next heq =>
    cases heq
    cases h
    exact ⟨rfl, fun r' => rfl⟩
  · next heq =>
    cases heq
    split at h
    · cases h
    · next hne =>
      cases h
      exact ⟨rfl, fun r' => if_neg hne⟩
  · cases h

theorem parenthesis_of_name {token : Token} (h : (groupName s).map
      (fun (name, rest) => (opened (some name) [], rest)) = some (token, k)) :
    ∃ c t, s = c :: t ++ k ∧ c ∉ ['=', '!'] ∧ ∀ r, (groupName (c :: t ++ r)).map
      (fun (name, rest) => (opened (some name) [], rest)) = some (token, r) := by
  obtain ⟨⟨name, rest⟩, hname, heq⟩ := Option.map_eq_some_iff.1 h
  cases heq
  obtain ⟨c, t, htext, hc, ht⟩ := groupName_taken hname
  exact ⟨c, t, htext, hc, fun r => by rw [ht]; rfl⟩

/-- What a question mark after the parenthesis begins does not depend on what follows it. -/
theorem parenthesis_taken {token : Token}
    (h : parenthesis ignoring ('?' :: s) = some (token, k)) :
    ∃ t, s = t ++ k ∧ ∀ r, parenthesis ignoring ('?' :: (t ++ r)) = some (token, r) := by
  by_cases hs : ∀ c ∈ s.head?, c ∉ ['=', '!', '<']
  · by_cases hname : ∃ s', s = 'P' :: '<' :: s'
    · obtain ⟨s, rfl⟩ := hname
      rw [parenthesis_name] at h
      obtain ⟨c, t, rfl, -, ht⟩ := parenthesis_of_name h
      exact ⟨'P' :: '<' :: c :: t, rfl, fun r => (parenthesis_name (c :: t ++ r)).trans (ht r)⟩
    · rw [parenthesis_switches hs fun t ht => hname ⟨t, ht⟩] at h
      obtain ⟨⟨changes, rest⟩, hswitches, h⟩ := Option.bind_eq_some_iff.1 h
      obtain ⟨t, d, r, rfl, rfl, ht⟩ := switches_taken hswitches
      obtain ⟨rfl, hafter⟩ := afterSwitches_taken h
      refine ⟨t ++ [d], by simp, fun r' => ?_⟩
      have hhead : ∀ c ∈ (t ++ d :: r').head?, c ∉ ['=', '!', '<'] := by
        cases t <;> exact hs
      -- no switch is named by the letter that may begin a name
      have hname' : ∀ u, t ++ d :: r' ≠ 'P' :: '<' :: u := fun u hu => by
        have hnone : switches [] false false ('P' :: '<' :: u) = none := rfl
        rw [← hu, ht] at hnone
        cases hnone
      rw [List.append_assoc, List.singleton_append, parenthesis_switches hhead hname']
      exact Option.bind_eq_some_iff.2 ⟨_, ht r', hafter r'⟩
  · obtain ⟨c, s, rfl⟩ : ∃ c s', s = c :: s' := by
      cases s with
      | nil => simp at hs
      | cons c s => exact ⟨c, s, rfl⟩
    have hc : c ∈ ['=', '!', '<'] := by
      by_contra hc
      exact hs fun d hd => Option.some.inj hd ▸ hc
    simp only [List.mem_cons, List.not_mem_nil, or_false] at hc
    rcases hc with rfl | rfl | rfl
    · rw [parenthesis, skip_question] at h
      cases h
    · rw [parenthesis, skip_question] at h
      cases h
    · cases s with
      | nil => cases ignoring <;> cases h
      | cons d s =>
        by_cases hd : d ∈ ['=', '!']
        · rw [parenthesis, skip_question] at h
          simp only [List.mem_cons, List.not_mem_nil, or_false] at hd
          rcases hd with rfl | rfl <;> cases h
        · rw [parenthesis_angle hd] at h
          obtain ⟨e, t, htext, he, ht⟩ := parenthesis_of_name h
          exact ⟨'<' :: e :: t, congrArg ('<' :: ·) htext, fun r =>
            (parenthesis_angle he (t ++ r)).trans (ht r)⟩

/-- A parenthesis begins a group or throws switches. -/
theorem opened_or_switched_of_parenthesis {token : Token}
    (h : parenthesis ignoring s = some (token, k)) :
    (∃ name changes, token = opened name changes) ∨ ∃ changes, token = switched changes := by
  unfold parenthesis at h
  split at h
  · cases h
  · cases h
  · cases h
  · cases h
  · obtain ⟨_, -, heq⟩ := Option.map_eq_some_iff.1 h
    cases heq
    exact .inl ⟨_, _, rfl⟩
  · obtain ⟨_, -, heq⟩ := Option.map_eq_some_iff.1 h
    cases heq
    exact .inl ⟨_, _, rfl⟩
  · obtain ⟨⟨_, _⟩, -, h⟩ := Option.bind_eq_some_iff.1 h
    dsimp only at h
    split at h
    · cases h
      exact .inl ⟨_, _, rfl⟩
    · split at h <;> cases h
      exact .inr ⟨_, rfl⟩
    · cases h
  · cases h
    exact .inl ⟨_, _, rfl⟩

theorem local_parenthesis (ignoring : Bool) : Local [] (parenthesis ignoring) := by
  have hne : ∀ s, Layout.skip ignoring s = s → s.head? ≠ some '?' →
      parenthesis ignoring s = some (opened none [], s) := fun s hs hne => by
    rw [parenthesis, hs]
    split
    all_goals first | rfl | exact absurd rfl hne
  refine .of_cons ignoring (fun s => ?_) (fun x k h => ?_) (fun x s _ h => ?_)
    (fun x c s _ hc hs h => ?_) fun c hc => ?_
  · rw [parenthesis, parenthesis, Layout.skip_skip]
  · rw [hne [] (Layout.skip_nil _) (by simp)] at h
    cases h
    rfl
  · rw [hne _ (Layout.skip_closing _ s) (by simp)] at h
    cases h
    exact hne [] (Layout.skip_nil _) (by simp)
  · have hmark : (c :: s).head? ≠ some '?' := by rcases hc with rfl | rfl <;> simp
    rw [hne [] (Layout.skip_nil _) (by simp)] at h
    cases h
    exact hne _ hs hmark
  · by_cases hmark : c = '?'
    · subst hmark
      exact .of_taken fun s token k h => parenthesis_taken h
    · have hother : ∀ s, parenthesis ignoring (c :: s) = some (opened none [], [c] ++ s) :=
        fun s => hne _ (hc s) fun h => hmark (Option.some.inj h)
      simp only [hother]
      exact .leave List.suffix_rfl (opened none [])

/-! ## All tokens -/

/-- The escape of a word edge has to be read well. -/
def Settled (ignoring : Bool) (token : Token) (k : List Char) : Prop :=
  ∀ e, token = .atom (.escape e) → Escape.Settled ignoring e k

/-- All other tokens are the character alone. -/
theorem next_single (hc : c ∉ ['(', '[', '?', '*', '+', '\x7b', '\\']) (s : List Char) :
    next ignoring c s = (next ignoring c []).map fun (token, _) => (token, s) := by
  unfold next
  split <;> first | rfl | simp at hc

/-- **The token that begins with a character is read locally.** -/
theorem localOn_next (ignoring : Bool) (c : Char) :
    LocalOn (Settled ignoring) [] (next ignoring c) := by
  by_cases hc : c ∈ ['(', '[', '?', '*', '+', '\x7b', '\\']
  · simp only [List.mem_cons, List.not_mem_nil, or_false] at hc
    rcases hc with rfl | rfl | rfl | rfl | rfl | rfl | rfl
    · exact .mono (local_parenthesis ignoring)
    · exact .mono ((Bracket.local_read ignoring).map fun b => ⟨atom (.bracket b), fun _ => rfl⟩)
    · exact localOn_preference (repeated 0 (some 1))
    · exact localOn_preference (repeated 0 none)
    · exact localOn_preference (repeated 1 none)
    · exact .mono (local_counted ignoring)
    · have hbind : next ignoring '\\' = fun s => Escape.read ignoring s >>= fun y =>
          some (atom (.escape y.1), y.2) := funext fun s => Option.map_eq_bind
      rw [hbind]
      refine .bindOn (Escape.localOn_read ignoring) (fun e => .done (atom (.escape e))) ?_
      intro e m v token k _ hk h
      obtain ⟨rfl, htext⟩ := Prod.mk.inj (Option.some.inj h)
      obtain rfl : m = k := List.append_cancel_right htext
      exact hk e rfl
  · rw [show next ignoring c = _ from funext (next_single hc)]
    cases next ignoring c [] with
    | none => exact .fail
    | some y => exact .done y.1

/-! ## Switches without a hyphen -/

/-- Switches are thrown on, if they are thrown at all. -/
def ThrowsOn : Token → Prop
  | opened _ changes | switched changes => ∀ change ∈ changes, change.2 = true
  | _ => True

/-- Only behind a hyphen is a switch thrown off. -/
theorem snd_of_switches {thrown changes : FlagChanges} {last : Bool} (hs : '-' ∉ s)
    (hthrown : ∀ change ∈ thrown, change.2 = true)
    (h : switches thrown false last s = some (changes, k)) :
    ∀ change ∈ changes, change.2 = true := by
  induction s generalizing thrown last with
  | nil => cases h
  | cons c s ih =>
    rw [switches] at h
    split at h
    · split at h
      · cases h
      · obtain ⟨rfl, -⟩ := Prod.mk.inj (Option.some.inj h)
        exact fun change hmem => hthrown change (List.mem_reverse.1 hmem)
    · split at h
      · next hminus => exact absurd (hminus ▸ List.mem_cons_self) hs
      · obtain ⟨flag, -, h⟩ := Option.bind_eq_some_iff.1 h
        split at h
        · cases h
        · refine ih (fun hmem => hs (List.mem_cons_of_mem c hmem)) ?_ h
          exact List.forall_mem_cons.2 ⟨rfl, hthrown⟩

theorem throwsOn_of_parenthesis (hs : '-' ∉ s) (h : parenthesis ignoring s = some (token, k)) :
    token.ThrowsOn := by
  have hskip : '-' ∉ Layout.skip ignoring s := fun hmem =>
    hs ((Layout.skip_suffix ignoring s).subset hmem)
  unfold parenthesis at h
  split at h
  · cases h
  · cases h
  · cases h
  · cases h
  · obtain ⟨_, -, heq⟩ := Option.map_eq_some_iff.1 h
    cases heq
    exact List.forall_mem_nil _
  · obtain ⟨_, -, heq⟩ := Option.map_eq_some_iff.1 h
    cases heq
    exact List.forall_mem_nil _
  · next rest _ _ _ _ heq =>
    obtain ⟨⟨changes, _⟩, hswitches, h⟩ := Option.bind_eq_some_iff.1 h
    have hon : ∀ change ∈ changes, change.2 = true := by
      refine snd_of_switches (fun hmem => hskip ?_) (List.forall_mem_nil _) hswitches
      rw [heq]
      exact List.mem_cons_of_mem '?' hmem
    dsimp only at h
    split at h
    · cases h
      exact hon
    · split at h <;> cases h
      exact hon
    · cases h
  · cases h
    exact List.forall_mem_nil _

/-- **A token without a hyphen throws no switch off.** -/
theorem throwsOn_of_next (hs : '-' ∉ s) (h : next ignoring c s = some (token, k)) :
    token.ThrowsOn := by
  unfold next at h
  split at h
  · exact throwsOn_of_parenthesis hs h
  · cases h
    trivial
  · cases h
    trivial
  · obtain ⟨_, -, heq⟩ := Option.map_eq_some_iff.1 h
    cases heq
    trivial
  · cases h
    trivial
  · cases h
    trivial
  · cases h
    trivial
  · obtain ⟨_, _, rfl, -⟩ := exists_repeated_of_counted h
    trivial
  · obtain ⟨_, -, heq⟩ := Option.map_eq_some_iff.1 h
    cases heq
    trivial
  all_goals
    cases h
    trivial

end TreeRules.Pattern.Token
