import Mathlib.Data.List.TakeWhile
import TreeRules.Pattern.Bracket
import TreeRules.Proofs.Pattern.Escape

/-!
# Proofs/Pattern/Bracket — classes in brackets are read locally

A class ends with its bracket, so it does not depend on what stands from a later closing parenthesis
on (`Bracket.local_read`).  Inside the brackets an item does look further, to see whether a range
goes on; the bracket that has to follow it makes up for this (`Bracket.localOn_itemOrRange`).
-/

namespace TreeRules.Pattern

variable {ignoring : Bool} {c : Char} {s t u v : List Char}

/-! ## What comes next -/

namespace Layout

/-- The first character is a blank or the first one that is none. -/
theorem isBlank_or_head?_dropWhile (h : s.head? = some c) :
    Text.isBlank c = true ∨ (s.dropWhile Text.isBlank).head? = some c := by
  obtain ⟨t, rfl⟩ := List.head?_eq_some_iff.1 h
  by_cases hblank : Text.isBlank c = true
  · exact .inl hblank
  · exact .inr (by rw [List.dropWhile_cons_of_neg hblank]; rfl)

/-- The first mark after blanks does not depend on a closing parenthesis or a line end. -/
theorem head?_dropBlanks_append (hc : ¬(c = ')' ∨ c = '\n')) (hv : Halts v) :
    ((u ++ v).dropWhile Text.isBlank).head? = some c ↔
      (u.dropWhile Text.isBlank).head? = some c := by
  rw [List.dropWhile_append]
  split
  · next hu =>
    refine iff_of_false (fun h => hc (.inl ?_)) (by rw [List.isEmpty_iff.1 hu]; simp)
    rcases hv with hv | ⟨w, rfl, hw⟩
    · exact hv c (dropBlanks_of_stops hv ▸ h)
    · exact hw c (dropBlanks_of_stops hw ▸ h)
  · exact hv.head?_append hc

/-- What comes next, if it is a mark, is the first character after blanks, or after a mark of a
comment and more blanks. -/
theorem peek?_eq_some_iff (hblank : Text.isBlank c = false) (hmark : c ≠ '#') :
    peek? true s = some c ↔ (s.dropWhile Text.isBlank).head? = some c ∨
      ∃ r, s.dropWhile Text.isBlank = '#' :: r ∧ (r.dropWhile Text.isBlank).head? = some c := by
  -- the first character, which may stand in, is a blank or the mark of the comment
  have hhead : (s.dropWhile Text.isBlank).head? ≠ some c → s.head? ≠ some c := fun hne h =>
    (isBlank_or_head?_dropWhile h).elim (fun h => by cases hblank.symm.trans h) hne
  rw [peek?, if_pos rfl]
  cases hs : s.dropWhile Text.isBlank with
  | nil =>
    rw [hs] at hhead
    simpa using hhead
  | cons d r =>
    rw [hs] at hhead
    by_cases hd : d = '#'
    · subst hd
      have hhead := hhead fun h => hmark (Option.some.inj h).symm
      simp [Option.or_eq_some_iff, hhead, hmark.symm]
    · split
      · next heq => exact absurd (List.cons.inj heq).1 hd
      · next heq =>
        obtain ⟨rfl, rfl⟩ := List.cons.inj heq
        simp [hd]
      · next heq => cases heq

/-- Whether a bracket or a hyphen comes next does not depend on a closing parenthesis. -/
theorem peek?_append (hblank : Text.isBlank c = false) (hmark : c ≠ '#')
    (hc : ¬(c = ')' ∨ c = '\n')) (hv : Halts v) :
    peek? ignoring (u ++ v) = some c ↔ peek? ignoring u = some c := by
  cases ignoring with
  | false => exact hv.head?_append hc
  | true =>
    rw [peek?_eq_some_iff hblank hmark, peek?_eq_some_iff hblank hmark,
      head?_dropBlanks_append hc hv]
    have hcons : ∀ {r}, u.dropWhile Text.isBlank = '#' :: r →
        (u ++ v).dropWhile Text.isBlank = '#' :: (r ++ v) := fun h => by
      rw [List.dropWhile_append, h]
      rfl
    refine or_congr_right ⟨?_, ?_⟩
    · rintro ⟨r, hr, h⟩
      have hu : (u.dropWhile Text.isBlank).head? = some '#' :=
        (head?_dropBlanks_append (by decide) hv).1 (by rw [hr]; rfl)
      obtain ⟨r', hr'⟩ := List.head?_eq_some_iff.1 hu
      obtain rfl : r = r' ++ v := (List.cons.inj (hr.symm.trans (hcons hr'))).2
      exact ⟨r', hr', (head?_dropBlanks_append hc hv).1 h⟩
    · rintro ⟨r, hr, h⟩
      exact ⟨r ++ v, hcons hr, (head?_dropBlanks_append hc hv).2 h⟩

end Layout

namespace Bracket

/-! ## Items -/

/-- An item is read locally, as an escape is. -/
theorem localOn_item (ignoring : Bool) : LocalOn (Escape.Settled ignoring) [] (item ignoring) := by
  refine .of_cons_taking false (fun _ => rfl) rfl (fun x s h => ?_) fun c _ => ?_
  · have hlen := congrArg List.length (Prod.mk.inj (Option.some.inj h)).2
    rw [List.length_cons] at hlen
    omega
  · by_cases hc : c = '\\'
    · subst hc
      exact (Escape.localOn_read ignoring).weaken _
    · have hitem : ∀ s, item ignoring (c :: s) = some (.literal ⟨c, false⟩, s) := fun s => by
        unfold item
        split <;> simp_all
      simp only [hitem]
      exact .done (Escape.literal ⟨c, false⟩)

theorem length_lt_of_item {e : Escape} {k : List Char} (h : item ignoring s = some (e, k)) :
    k.length < s.length := by
  unfold item at h
  split at h
  · cases h
  · exact Nat.lt_succ_of_le ((Escape.localOn_read ignoring).suffix h).length_le
  · cases h
    exact Nat.lt_succ_self _

/-- The range between two items. -/
def range? : Escape → Escape → Option Bracket
  | .literal a, .literal b => if a.char ≤ b.char then some (range a b) else none
  | _, _ => none

/-- An item or a range, once its first item is read. -/
def afterItem (ignoring : Bool) (first : Escape) (s : List Char) : Option (Bracket × List Char) :=
  match Layout.skip ignoring s with
  | [] => none
  | '-' :: s =>
    if Layout.peek? ignoring s = some ']' ∨ Layout.peek? ignoring s = some '-' then
      ofEscape? first >>= fun b => some (b, ['-'] ++ s)
    else
      item ignoring (Layout.skip ignoring s) >>= fun (last, s) =>
        range? first last >>= fun b => some (b, s)
  | s => ofEscape? first >>= fun b => some (b, s)

/-- A range is an item with a hyphen and another item behind it. -/
theorem itemOrRange_eq (ignoring : Bool) (s : List Char) :
    itemOrRange ignoring s =
      item ignoring s >>= fun (first, rest) => afterItem ignoring first rest := by
  rw [itemOrRange]
  refine Option.bind_congr fun y _ => ?_
  obtain ⟨first, rest⟩ := y
  dsimp only
  rw [afterItem]
  generalize Layout.skip ignoring rest = t
  split
  · rfl
  · next t =>
    by_cases hpeek : Layout.peek? ignoring t = some ']' ∨ Layout.peek? ignoring t = some '-'
    · simp only [if_pos hpeek]
      rfl
    · simp only [if_neg hpeek]
      refine Option.bind_congr fun y _ => ?_
      obtain ⟨last, rest⟩ := y
      dsimp only
      unfold range?
      cases first <;> cases last <;> first | rfl | (dsimp only; split <;> rfl)
  · simp_all

/-- A condition on a place is no item. -/
theorem afterItem_assertion (a : Assertion) (s : List Char) :
    afterItem ignoring (.assertion a) s = none := by
  unfold afterItem
  split
  · rfl
  · split
    · rfl
    · exact Option.bind_eq_none_iff.2 fun y _ => rfl
  · rfl

/-- After an item something has to follow, which stands before a closing parenthesis or is one. -/
theorem localOn_afterItem (ignoring : Bool) (first : Escape) :
    LocalOn (fun _ k => k ≠ []) [] (afterItem ignoring first) := by
  refine .of_cons ignoring (fun s => ?_) (fun x k h => ?_) (fun x s h => absurd rfl h)
    (fun x c s h => absurd rfl h) fun c hc => ?_
  · rw [afterItem, afterItem, Layout.skip_skip]
  · rw [afterItem, Layout.skip_nil] at h
    cases h
  · by_cases hhyphen : c = '-'
    · subst hhyphen
      have hafter : ∀ s, afterItem ignoring first ('-' :: s) =
          if Layout.peek? ignoring s = some ']' ∨ Layout.peek? ignoring s = some '-' then
            ofEscape? first >>= fun b => some (b, ['-'] ++ s)
          else
            item ignoring (Layout.skip ignoring s) >>= fun (last, s) =>
              range? first last >>= fun b => some (b, s) := fun s => by
        rw [afterItem, hc]
        rfl
      simp only [hafter]
      refine .ite (fun u v hv => ?_) (.given (ofEscape? first) (.leave List.suffix_rfl)) ?_
      · rw [Layout.peek?_append (by decide) (by decide) (by decide) hv,
          Layout.peek?_append (by decide) (by decide) (by decide) hv]
      · refine .weaken (.skip (.bindOn (localOn_item ignoring) (fun last => ?_) ?_) _) _
        · exact .given (range? first last) .done
        · intro last m v b k _ _ h a j hlast
          subst hlast
          obtain ⟨_, hrange, -⟩ := Option.bind_eq_some_iff.1 h
          cases first <;> cases hrange
    · have hafter : ∀ s, afterItem ignoring first (c :: s) =
          ofEscape? first >>= fun b => some (b, [c] ++ s) := fun s => by
        rw [afterItem, hc]
        split
        · next h => cases h
        · next h => exact absurd (List.cons.inj h).1 hhyphen
        · rfl
      simp only [hafter]
      exact .given (ofEscape? first) (.leave List.suffix_rfl)

/-- Whether a hyphen makes a range is seen by what stands behind it, so something has to. -/
theorem localOn_itemOrRange (ignoring : Bool) :
    LocalOn (fun _ k => k ≠ []) [] (itemOrRange ignoring) := by
  rw [show itemOrRange ignoring = _ from funext (itemOrRange_eq ignoring)]
  refine .bindOn (localOn_item ignoring) (localOn_afterItem ignoring) ?_
  intro first m v b k _ _ h a j hfirst
  subst hfirst
  cases (afterItem_assertion a (m ++ v)).symm.trans h

theorem length_lt_of_itemOrRange {b : Bracket} {k : List Char}
    (h : itemOrRange ignoring s = some (b, k)) : k.length < s.length := by
  rw [itemOrRange_eq] at h
  obtain ⟨⟨first, rest⟩, hitem, h⟩ := Option.bind_eq_some_iff.1 h
  exact Nat.lt_of_le_of_lt ((localOn_afterItem ignoring first).suffix h).length_le
    (length_lt_of_item hitem)

/-! ## Names -/

/-- A name is not empty, holds no closing parenthesis or line end and begins with no circumflex. -/
theorem letters_of_asciiNamed? {name : List Char} {set : CharSet}
    (h : CharSet.asciiNamed? (String.ofList name) = some set) :
    name ≠ [] ∧ (∀ c ∈ name, ¬(c = ')' ∨ c = '\n')) ∧ name.head? ≠ some '^' := by
  have hall : asciiClasses.all (fun entry => entry.1.toList != [] &&
      entry.1.toList.all (fun c => !(c == ')' || c == '\n')) &&
      entry.1.toList.head? != some '^') = true := by decide
  obtain ⟨ranges, hlookup, -⟩ := Option.map_eq_some_iff.1 h
  obtain ⟨_, _, htable, -⟩ := List.lookup_eq_some_iff.1 hlookup
  have hentry := List.all_eq_true.1 hall (String.ofList name, ranges) (by simp [htable])
  simpa [and_assoc] using hentry

/-- The name up to its colon, and the bracket after it. -/
def asciiRest (negated : Bool) (s : List Char) : Option (Bracket × List Char) :=
  match s.dropWhile (· != ':') with
  | ':' :: ']' :: rest =>
    (CharSet.asciiNamed? (String.ofList (s.takeWhile (· != ':')))).map fun _ =>
      (ascii negated (String.ofList (s.takeWhile (· != ':'))), rest)
  | _ => none

theorem asciiName?_caret (s : List Char) : asciiName? (':' :: '^' :: s) = asciiRest true s := rfl

theorem asciiName?_colon (h : s.head? ≠ some '^') :
    asciiName? (':' :: s) = asciiRest false s := by
  rw [asciiName?]
  · rfl
  · exact fun t ht => h (ht ▸ rfl)

/-- A name between colons is what stands there, and it is read from these characters alone. -/
theorem asciiRest_taken {negated : Bool} {b : Bracket} {k : List Char}
    (h : asciiRest negated s = some (b, k)) :
    ∃ name, name ≠ [] ∧ (∀ c ∈ name, ¬(c = ')' ∨ c = '\n')) ∧ name.head? ≠ some '^' ∧
      s = name ++ ':' :: ']' :: k ∧
      ∀ r, asciiRest negated (name ++ ':' :: ']' :: r) = some (b, r) := by
  rw [asciiRest] at h
  split at h
  · next rest hrest =>
    obtain ⟨set, hset, heq⟩ := Option.map_eq_some_iff.1 h
    obtain ⟨rfl, rfl⟩ := Prod.mk.inj heq
    obtain ⟨hne, hclose, hcaret⟩ := letters_of_asciiNamed? hset
    refine ⟨s.takeWhile (· != ':'), hne, hclose, hcaret, ?_, fun r => ?_⟩
    · rw [← hrest, List.takeWhile_append_dropWhile]
    · have hname : ∀ d ∈ s.takeWhile (· != ':'), (d != ':') = true := fun d hd =>
        List.mem_takeWhile_imp (p := (· != ':')) hd
      rw [asciiRest, List.dropWhile_append_of_pos hname, List.takeWhile_append_of_pos hname]
      simp only [List.dropWhile_cons_of_neg, List.takeWhile_cons_of_neg, bne_self_eq_false,
        Bool.false_eq_true, not_false_iff, List.append_nil, hset, Option.map_some]
  · cases h

/-- A name between colons holds no parenthesis, so it ends before one or is none. -/
theorem contained_asciiName? : Contained asciiName? := by
  intro s b k h
  have hcolon : ∃ r, s = ':' :: r := by
    unfold asciiName? at h
    split at h
    · exact ⟨_, rfl⟩
    · cases h
  obtain ⟨s, rfl⟩ := hcolon
  by_cases hcaret : s.head? = some '^'
  · obtain ⟨s, rfl⟩ := List.head?_eq_some_iff.1 hcaret
    obtain ⟨name, -, hclose, -, rfl, hr⟩ := asciiRest_taken (asciiName?_caret s ▸ h)
    refine ⟨':' :: '^' :: (name ++ [':', ']']), by simp, ?_, fun r => ?_⟩
    · simpa [or_imp, forall_and] using hclose
    · rw [List.cons_append, List.cons_append, List.append_assoc, asciiName?_caret]
      exact hr r
  · obtain ⟨name, hne, hclose, hhead, rfl, hr⟩ := asciiRest_taken (asciiName?_colon hcaret ▸ h)
    refine ⟨':' :: (name ++ [':', ']']), by simp, ?_, fun r => ?_⟩
    · simpa [or_imp, forall_and] using hclose
    · rw [List.cons_append, List.append_assoc, asciiName?_colon]
      · exact hr r
      · rw [List.head?_append_of_ne_nil _ hne]
        exact hhead

/-! ## The beginning of brackets -/

theorem leadingHyphens_of_ne {fuel : Nat} (h : s.head? ≠ some '-') :
    leadingHyphens ignoring fuel s = ([], s) := by
  unfold leadingHyphens
  split
  · exact absurd rfl h
  · rfl

theorem leadingHyphens_of_length_le {fuel : Nat} (h : s.length ≤ fuel) :
    leadingHyphens ignoring fuel s = leadingHyphens ignoring s.length s := by
  induction fuel using Nat.strongRecOn generalizing s with
  | ind fuel ih =>
    by_cases hhead : s.head? = some '-'
    · obtain ⟨s, rfl⟩ := List.head?_eq_some_iff.1 hhead
      cases fuel with
      | zero => cases h
      | succ fuel =>
        have hlen := Layout.length_skip_le ignoring s
        rw [List.length_cons, leadingHyphens, leadingHyphens,
          ih fuel (Nat.lt_succ_self fuel) (hlen.trans (Nat.le_of_succ_le_succ h)),
          ih s.length h hlen]
    · rw [leadingHyphens_of_ne hhead, leadingHyphens_of_ne hhead]

/-- Leading hyphens are read locally. -/
theorem local_leadingHyphens (ignoring : Bool) (fuel : Nat) :
    Local [] fun s => some (leadingHyphens ignoring fuel s) := by
  induction fuel with
  | zero =>
    have hnone : ∀ s, leadingHyphens ignoring 0 s = ([], s) := fun s => by
      unfold leadingHyphens
      rfl
    simp only [hnone]
    exact .done []
  | succ fuel ih =>
    refine .of_head (d := '-') (by decide) (fun _ => rfl)
      (fun s hs => congrArg some (leadingHyphens_of_ne hs)) ?_ (.done [])
    exact (ih.skip ignoring).map (F := fun y => (plain ⟨'-', false⟩ :: y.1, y.2))
      fun hyphens => ⟨plain ⟨'-', false⟩ :: hyphens, fun _ => rfl⟩

/-- What may stand first in brackets and stands for itself: hyphens, or else a closing bracket. -/
def initial (ignoring : Bool) (s : List Char) : List Bracket × List Char :=
  match leadingHyphens ignoring s.length s with
  | ([], ']' :: rest) => ([plain ⟨']', false⟩], Layout.skip ignoring rest)
  | (hyphens, rest) => (hyphens, rest)

theorem initial_bracket (s : List Char) :
    initial ignoring (']' :: s) = ([plain ⟨']', false⟩], Layout.skip ignoring s) := by
  rw [initial, leadingHyphens_of_ne (by simp)]
  rfl

theorem initial_of_ne (h : s.head? ≠ some ']') :
    initial ignoring s = leadingHyphens ignoring s.length s := by
  rw [initial]
  split
  · next rest hr =>
    by_cases hhead : s.head? = some '-'
    · obtain ⟨s, rfl⟩ := List.head?_eq_some_iff.1 hhead
      cases (Prod.mk.inj hr).1
    · rw [leadingHyphens_of_ne hhead] at hr
      rw [(Prod.mk.inj hr).2] at h
      exact absurd rfl h
  · next hr => exact hr.symm

/-- So is what may stand first in a bracket. -/
theorem local_initial (ignoring : Bool) : Local [] fun s => some (initial ignoring s) := by
  refine .of_head (d := ']') (by decide) (fun s => congrArg some (initial_bracket s))
    (fun s hs => congrArg some (initial_of_ne hs)) ?_ ?_
  · exact .skip (.done [plain ⟨']', false⟩]) ignoring
  · exact .of_fuel (local_leadingHyphens ignoring) fun n s hn =>
      congrArg some (leadingHyphens_of_length_le hn)

/-- Whether brackets are negated, and what follows. -/
def afterCaret (ignoring : Bool) (s : List Char) : Bool × List Char :=
  match s with
  | '^' :: rest => (true, Layout.skip ignoring rest)
  | _ => (false, s)

theorem afterCaret_of_ne (h : s.head? ≠ some '^') : afterCaret ignoring s = (false, s) := by
  unfold afterCaret
  split
  · exact absurd rfl h
  · rfl

theorem opening_eq (s : List Char) :
    opening ignoring s = ((afterCaret ignoring (Layout.skip ignoring s)).1,
      initial ignoring (afterCaret ignoring (Layout.skip ignoring s)).2) := by
  rw [opening]
  generalize Layout.skip ignoring s = t
  split
  next negated r hcaret =>
    rw [show afterCaret ignoring t = (negated, r) from hcaret]
    dsimp only
    rw [initial]
    split <;> simp_all

/-- The first of two closing brackets stands for itself, and the second one closes. -/
example : (opening false "^]]a".toList).2.2 = [']', 'a'] := by decide +kernel

theorem local_afterCaret (ignoring : Bool) : Local [] fun s => some (afterCaret ignoring s) :=
  .of_head (d := '^') (by decide) (fun _ => rfl) (fun _ hs => congrArg some (afterCaret_of_ne hs))
    (.skip (.done true) ignoring) (.done false)

/-- The beginning of brackets as a reader. -/
def opened (ignoring : Bool) (s : List Char) : Option ((Bool × List Bracket) × List Char) :=
  some (((opening ignoring s).1, (opening ignoring s).2.1), (opening ignoring s).2.2)

/-- And so is the front of a bracket as a whole. -/
theorem local_opened (ignoring : Bool) : Local [] (opened ignoring) := by
  have hopened : opened ignoring = fun s =>
      some (afterCaret ignoring (Layout.skip ignoring s)) >>= fun y =>
        some (initial ignoring y.2) >>= fun z => some ((y.1, z.1), z.2) :=
    funext fun s => by
      rw [opened, opening_eq]
      rfl
  rw [hopened]
  refine .bind (.skip (local_afterCaret ignoring) ignoring) fun negated => ?_
  dsimp only
  exact .bind (local_initial ignoring) fun items => .done (negated, items)

/-! ## The end of brackets -/

/-- The sets that a doubled mark combines. -/
def operation? : Char → Option SetOperation
  | '&' => some .intersection
  | '-' => some .difference
  | '~' => some .symmetricDifference
  | _ => none

/-- A character inside brackets closes them, opens others, is doubled or begins an item. -/
theorem mark_cases (c : Char) (t : List Char) :
    c = ']' ∨ c = '[' ∨ (∃ operation t', operation? c = some operation ∧ t = c :: t') ∨
      c ≠ ']' ∧ c ≠ '[' ∧ (operation? c ≠ none → t.head? ≠ some c) := by
  by_cases hclose : c = ']'
  · exact .inl hclose
  by_cases hopen : c = '['
  · exact .inr (.inl hopen)
  by_cases hop : operation? c ≠ none ∧ t.head? = some c
  · obtain ⟨operation, hoperation⟩ := Option.ne_none_iff_exists'.1 hop.1
    obtain ⟨t', ht⟩ := List.head?_eq_some_iff.1 hop.2
    exact .inr (.inr (.inl ⟨operation, t', hoperation, ht⟩))
  · exact .inr (.inr (.inr ⟨hclose, hopen, fun h1 h2 => hop ⟨h1, h2⟩⟩))

section

variable {fuel : Nat} {pending : Option (SetOperation × Bracket)} {items : List Bracket}

theorem body_skip :
    body ignoring fuel pending items (Layout.skip ignoring s) =
      body ignoring fuel pending items s := by
  cases fuel with
  | zero => rfl
  | succ fuel => rw [body, body, Layout.skip_skip]

theorem body_nil : body ignoring fuel pending items [] = none := by
  cases fuel with
  | zero => rfl
  | succ fuel => rw [body, Layout.skip_nil]

/-- A closing bracket ends the innermost body. -/
theorem body_close (hs : Layout.skip ignoring (']' :: s) = ']' :: s) :
    body ignoring (fuel + 1) pending items (']' :: s) =
      some (after pending (joined items.reverse), s) := by
  rw [body, hs]
  rfl

/-- A doubled mark is an operation between sets. -/
theorem body_operation {operation : SetOperation} (hop : operation? c = some operation)
    (hs : ∀ s, Layout.skip ignoring (c :: s) = c :: s) (s : List Char) :
    body ignoring (fuel + 1) pending items (c :: c :: s) =
      body ignoring fuel (some (operation, after pending (joined items.reverse))) [] s := by
  rw [body, hs]
  unfold operation? at hop
  split at hop <;> cases hop <;> rfl

theorem body_bracket (s : List Char) (hs : Layout.skip ignoring ('[' :: s) = '[' :: s) :
    body ignoring (fuel + 1) pending items ('[' :: s) =
      (asciiName? s).elim
        (opened ignoring s >>= fun ((negated, initial), rest) =>
          body ignoring fuel none initial.reverse rest >>= fun (inner, rest) =>
            body ignoring fuel pending (nested negated inner :: items) rest)
        fun (named, rest) => body ignoring fuel pending (named :: items) rest := by
  rw [body, hs]
  split
  · next h => cases h
  · next h => cases (List.cons.inj h).1
  · next h => cases (List.cons.inj h).1
  · next h => cases (List.cons.inj h).1
  · next h => cases (List.cons.inj h).1
  · next h =>
    obtain ⟨-, rfl⟩ := List.cons.inj h
    cases asciiName? s <;> rfl
  · next hopen => exact absurd rfl (hopen s)

/-- Whatever is no mark of a bracket is an item or a range. -/
theorem body_item (hs : Layout.skip ignoring (c :: s) = c :: s) (hclose : c ≠ ']') (hopen : c ≠ '[')
    (hop : operation? c ≠ none → s.head? ≠ some c) :
    body ignoring (fuel + 1) pending items (c :: s) =
      itemOrRange ignoring (c :: s) >>= fun (next, rest) =>
        body ignoring fuel pending (next :: items) rest := by
  have hdouble : ∀ d t, operation? d ≠ none → c :: s ≠ d :: d :: t := by
    rintro d t hd h
    obtain ⟨rfl, rfl⟩ := List.cons.inj h
    exact hop hd rfl
  rw [body, hs]
  split
  · next h => cases h
  · next h => exact absurd (List.cons.inj h).1 hclose
  · next h => exact absurd h (hdouble '&' _ (by decide))
  · next h => exact absurd h (hdouble '-' _ (by decide))
  · next h => exact absurd h (hdouble '~' _ (by decide))
  · next h => exact absurd (List.cons.inj h).1 hopen
  · rfl

/-- What is left after the closing bracket is shorter. -/
theorem length_lt_of_body {b : Bracket} {k : List Char}
    (h : body ignoring fuel pending items s = some (b, k)) : k.length < s.length := by
  induction fuel generalizing pending items s b k with
  | zero => cases h
  | succ fuel ih =>
    rw [← body_skip] at h
    cases hs : Layout.skip ignoring s with
    | nil =>
      rw [hs, body_nil] at h
      cases h
    | cons c t =>
      have hc := Layout.skip_cons_of_eq_cons hs
      refine Nat.lt_of_lt_of_le ?_ (hs ▸ Layout.length_skip_le ignoring s : (c :: t).length ≤ _)
      rw [hs] at h
      rcases mark_cases c t with rfl | rfl | ⟨operation, t, hop, rfl⟩ | ⟨hclose, hopen, hop⟩
      · cases (body_close (hc t)).symm.trans h
        exact Nat.lt_succ_self _
      · rw [body_bracket t (hc t)] at h
        cases hname : asciiName? t with
        | some y =>
          rw [hname] at h
          obtain ⟨t', rfl, -⟩ := contained_asciiName? _ _ _ hname
          have := ih h
          simp only [List.length_cons, List.length_append]
          omega
        | none =>
          rw [hname, Option.elim_none] at h
          obtain ⟨⟨_, rest⟩, hrest, h⟩ := Option.bind_eq_some_iff.1 h
          obtain ⟨⟨inner, rest'⟩, hinner, h⟩ := Option.bind_eq_some_iff.1 h
          have := ((local_opened ignoring).suffix hrest).length_le
          have := ih hinner
          have := ih h
          simp only [List.nil_append] at *
          simp only [List.length_cons]
          omega
      · rw [body_operation hop hc] at h
        have := ih h
        simp only [List.length_cons]
        omega
      · rw [body_item (hc t) hclose hopen hop] at h
        obtain ⟨⟨next, rest⟩, hnext, h⟩ := Option.bind_eq_some_iff.1 h
        have := ((localOn_itemOrRange ignoring).suffix hnext).length_le
        exact Nat.lt_of_lt_of_le (ih h) this

/-- **The inside of a bracket is read locally**, to its closing bracket. -/
theorem local_body (ignoring : Bool) (fuel : Nat) (pending : Option (SetOperation × Bracket))
    (items : List Bracket) : Local [] (body ignoring fuel pending items) := by
  induction fuel generalizing pending items with
  | zero => exact .fail
  | succ fuel ih =>
    refine .of_cons_taking ignoring (fun s => body_skip) body_nil (fun x s h => ?_) fun c hc => ?_
    · exact absurd (length_lt_of_body h) (Nat.lt_irrefl _)
    by_cases hclose : c = ']'
    · subst hclose
      simp only [body_close (hc _)]
      exact .done _
    by_cases hopen : c = '['
    · subst hopen
      simp only [body_bracket _ (hc _)]
      refine .orElse contained_asciiName? (fun named => ih pending (named :: items)) ?_
      refine .weaken (.bind (local_opened ignoring) fun ⟨negated, initial⟩ => ?_) _
      dsimp only
      refine .bind (ih none initial.reverse) fun inner => ?_
      exact ih pending (nested negated inner :: items)
    -- an item is followed by something, as the brackets end behind it
    have hitem : LocalOn (fun _ _ => True) [] fun s => itemOrRange ignoring s >>=
        fun (next, rest) => body ignoring fuel pending (next :: items) rest := by
      refine .bindOn (localOn_itemOrRange ignoring) (fun next => ih pending (next :: items)) ?_
      rintro next m v b k hv - h rfl
      rcases hv.nil_or_closing with rfl | hv
      · cases body_nil.symm.trans h
      · have := length_lt_of_body h
        rw [List.length_append, List.nil_append] at this
        omega
    cases hop : operation? c with
    | none =>
      simp only [body_item (hc _) hclose hopen (fun h => absurd hop h)]
      exact hitem.cons c
    | some operation =>
      have hc' : ¬(c = ')' ∨ c = '\n') := by
        rintro (rfl | rfl) <;> cases hop
      refine .of_head hc' (body_operation hop hc)
        (fun s hs => body_item (hc s) hclose hopen fun _ => hs) ?_ (hitem.cons c)
      exact .weaken (ih _ []) _

/-- With more time than the text has characters, brackets are read alike. -/
theorem body_of_length_lt {fuel' : Nat} (h : s.length < fuel) (h' : s.length < fuel') :
    body ignoring fuel pending items s = body ignoring fuel' pending items s := by
  induction fuel generalizing fuel' pending items s with
  | zero => omega
  | succ fuel ih =>
    obtain ⟨fuel', rfl⟩ : ∃ n, fuel' = n + 1 := ⟨fuel' - 1, by omega⟩
    rw [← body_skip, ← @body_skip _ s (fuel' + 1)]
    have hlen := Layout.length_skip_le ignoring s
    cases hs : Layout.skip ignoring s with
    | nil => rw [body_nil, body_nil]
    | cons c t =>
      have hc := Layout.skip_cons_of_eq_cons hs
      rw [hs, List.length_cons] at hlen
      rcases mark_cases c t with rfl | rfl | ⟨operation, t, hop, rfl⟩ | ⟨hclose, hopen, hop⟩
      · rw [body_close (hc t), body_close (hc t)]
      · rw [body_bracket t (hc t), body_bracket t (hc t)]
        cases hname : asciiName? t with
        | some y =>
          obtain ⟨t', rfl, -⟩ := contained_asciiName? _ _ _ hname
          rw [List.length_append] at hlen
          exact ih (by omega) (by omega)
        | none =>
          rw [Option.elim_none, Option.elim_none]
          refine Option.bind_congr fun ⟨_, rest⟩ hrest => ?_
          have hrest := ((local_opened ignoring).suffix hrest).length_le
          rw [List.nil_append] at hrest
          dsimp only
          rw [ih (by omega) (by omega : rest.length < fuel')]
          refine Option.bind_congr fun ⟨inner, rest'⟩ hinner => ?_
          have hrest' : rest'.length < rest.length := length_lt_of_body hinner
          exact ih (by dsimp only; omega) (by dsimp only; omega)
      · rw [List.length_cons] at hlen
        rw [body_operation hop hc, body_operation hop hc]
        exact ih (by omega) (by omega)
      · rw [body_item (hc t) hclose hopen hop, body_item (hc t) hclose hopen hop]
        refine Option.bind_congr fun ⟨next, rest⟩ hnext => ?_
        have hrest : rest.length < (c :: t).length := length_lt_of_itemOrRange hnext
        rw [List.length_cons] at hrest
        exact ih (by omega) (by omega)

end

/-- A class, given the time that reading takes. -/
def readWithin (ignoring : Bool) (fuel : Nat) (s : List Char) : Option (Bracket × List Char) :=
  opened ignoring s >>= fun ((negated, initial), rest) =>
    body ignoring (fuel + 1) none initial.reverse rest >>= fun (inner, rest) =>
      some (nested negated inner, rest)

theorem readWithin_of_length_le {fuel : Nat} (h : s.length ≤ fuel) :
    readWithin ignoring fuel s = read ignoring s := by
  have hread : read ignoring s = readWithin ignoring s.length s := by
    rw [read]
    exact Option.map_eq_bind
  rw [hread, readWithin, readWithin]
  refine Option.bind_congr fun ⟨_, rest⟩ hrest => ?_
  have hlen : rest.length ≤ s.length := ((local_opened ignoring).suffix hrest).length_le
  dsimp only
  rw [body_of_length_lt (Nat.lt_succ_of_le (hlen.trans h)) (Nat.lt_succ_of_le hlen)]

/-- **Classes in brackets are read locally.** -/
theorem local_read (ignoring : Bool) : Local [] (read ignoring) := by
  refine .of_fuel (fun fuel => ?_) fun _ _ => readWithin_of_length_le
  refine .bind (local_opened ignoring) fun ⟨negated, initial⟩ => ?_
  dsimp only
  exact .bind (local_body ignoring (fuel + 1) none initial.reverse) fun inner =>
    .done (nested negated inner)

end Bracket

end TreeRules.Pattern
