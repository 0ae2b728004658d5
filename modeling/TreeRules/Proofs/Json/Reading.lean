import Mathlib.Data.List.Forall2
import TreeRules.Proofs.Json.Legible
import TreeRules.Proofs.Json.Number

/-!
# Proofs/Json/Reading — what is printed is read again

A text is read as a document wherever it stands, that is, in front of anything that does not go on
with a number (`Reads`).  Blanks in front make no difference to that, so an array or an object can be
laid out over lines or not: its text is made of the texts of what is in it, with commas in between
and blanks at the end (`Brackets.reads`).  By induction on the value this is so of its
printed text, on one line (`reads_compact`) and laid out (`reads_prettyAt`), and the whole text
denotes the value (`ofText?_of_prints`).
-/

namespace TreeRules.Json

open Text (Stops stops_nil stops_cons stops_of_all)

variable {b s t rest : List Char} {w : Written}

/-! ## Blanks -/

/-- All of them are blanks of the format. -/
def Spaces (b : List Char) : Prop := ∀ c ∈ b, isSpace c = true

theorem skipSpace_append (hb : Spaces b) (s : List Char) : skipSpace (b ++ s) = skipSpace s :=
  List.dropWhile_append_of_pos hb

theorem skipSpace_cons {c : Char} (hc : isSpace c = false) (s : List Char) :
    skipSpace (c :: s) = c :: s :=
  List.dropWhile_cons_of_neg (by rw [hc]; exact Bool.false_ne_true)

theorem skipSpace_skipSpace (s : List Char) : skipSpace (skipSpace s) = skipSpace s :=
  (Text.stops_dropWhile isSpace s).dropWhile

/-- No number goes on with a blank. -/
theorem Spaces.stops (hb : Spaces b) : Stops continuesNumber b := by
  refine stops_of_all fun c hc => ?_
  have hspace := hb c hc
  rw [isSpace, Bool.or_eq_true, Bool.or_eq_true, Bool.or_eq_true, beq_iff_eq, beq_iff_eq,
    beq_iff_eq, beq_iff_eq] at hspace
  rcases hspace with ((rfl | rfl) | rfl) | rfl <;> decide

/-- The readers see no blanks in front. -/
theorem read_congr (h : skipSpace s = skipSpace t) (fuel : Nat) :
    Written.read fuel s = Written.read fuel t := by
  cases fuel with
  | zero => rfl
  | succ fuel => rw [Written.read, Written.read, h]

theorem readItems_skipSpace (fuel : Nat) (acc : List Written) (s : List Char) :
    Written.readItems fuel acc (skipSpace s) = Written.readItems fuel acc s := by
  cases fuel with
  | zero => rfl
  | succ fuel =>
    rw [Written.readItems, Written.readItems, read_congr (skipSpace_skipSpace s)]

theorem readMembers_skipSpace (fuel : Nat) (acc : Option (List (String × Written)))
    (s : List Char) : Written.readMembers fuel acc (skipSpace s) =
      Written.readMembers fuel acc s := by
  cases fuel with
  | zero => rfl
  | succ fuel => rw [Written.readMembers, Written.readMembers, skipSpace_skipSpace]

/-! ## Texts of a document -/

/-- The text is read as the document wherever it stands. -/
def Reads (s : List Char) (w : Written) : Prop := ∀ rest fuel, Stops continuesNumber rest →
  s.length < fuel → Written.read fuel (s ++ rest) = some (w, rest)

/-- Blanks in front of a text make no difference. -/
theorem Reads.space (h : Reads s w) (hb : Spaces b) : Reads (b ++ s) w := by
  intro rest fuel hrest hfuel
  rw [List.append_assoc, read_congr (skipSpace_append hb (s ++ rest))]
  rw [List.length_append] at hfuel
  exact h rest fuel hrest (by omega)

/-! ### Literals and numbers -/

theorem reads_null : Reads "null".toList .null := by
  intro rest fuel _ hfuel
  obtain ⟨fuel, rfl⟩ := Nat.exists_eq_add_of_lt hfuel
  rfl

theorem reads_bool (b : Bool) : Reads (if b then "true" else "false").toList (.bool b) := by
  intro rest fuel _ hfuel
  obtain ⟨fuel, rfl⟩ := Nat.exists_eq_add_of_lt hfuel
  cases b <;> rfl

/-- Nothing but a number starts with a minus or a digit. -/
theorem read_of_front {c : Char} (hc : c = '-' ∨ c.isDigit = true) (s : List Char) (fuel : Nat) :
    Written.read (fuel + 1) (c :: s) =
      (readNumber? (c :: s)).map fun p => (p.1.written, p.2) := by
  have hne {d : Char} (hd : (d != '-' && !d.isDigit) = true) : c ≠ d := by
    rintro rfl
    rcases hc with rfl | hdigit
    · exact absurd hd (by decide)
    · rw [hdigit, Bool.not_true, Bool.and_false] at hd
      exact absurd hd nofun
  have hspace : isSpace c = false := by
    rw [isSpace, beq_eq_false_iff_ne.2 (hne (d := ' ') rfl),
      beq_eq_false_iff_ne.2 (hne (d := '\n') rfl), beq_eq_false_iff_ne.2 (hne (d := '\t') rfl),
      beq_eq_false_iff_ne.2 (hne (d := '\r') rfl)]
    rfl
  rw [Written.read, skipSpace_cons hspace]
  split
  iterate 6 · next heq => exact absurd (List.cons.inj heq).1 (hne rfl)
  rfl

/-- **A number is read** if its text is one to the end. -/
theorem reads_number {t : NumberText} {v : Json} (h : readNumber? s = some (t, []))
    (hv : t.value? = some v) : Reads s v.written := by
  intro rest fuel hrest hfuel
  obtain ⟨fuel, rfl⟩ := Nat.exists_eq_add_of_lt hfuel
  obtain ⟨c, u, rfl, hc⟩ := exists_front h
  have happend := readNumber?_append h hrest
  rw [List.cons_append] at happend ⊢
  rw [read_of_front hc, happend, Option.map_some, NumberText.written, hv]
  rfl

/-! ### Strings -/

theorem codeUnit?_hexDigit {n : Nat} (h : n < 0x20) :
    codeUnit? '0' '0' (hexDigit (n / 16)) (hexDigit (n % 16)) = some n := by
  have hall : ∀ k < 0x20, codeUnit? '0' '0' (hexDigit (k / 16)) (hexDigit (k % 16)) = some k := by
    decide
  exact hall n h

/-- A code unit that is no half of a pair is a character. -/
theorem readString_unit {a b c d : Char} {u : Nat} (hunit : codeUnit? a b c d = some u)
    (hlead : isLeading u = false) (htrail : isTrailing u = false) (acc s : List Char) :
    readString true none acc ('\\' :: 'u' :: a :: b :: c :: d :: s) =
      readString true none (Char.ofNat u :: acc) s := by
  rw [readString.eq_def]
  simp only [hunit, hlead, htrail, Bool.false_eq_true, if_false]

/-- A character is read from what stands for it between quotes, be it escaped or not. -/
theorem readString_quotedChar (acc : List Char) (c : Char) (s : List Char) :
    readString true none acc (quotedChar c ++ s) = readString true none (c :: acc) s := by
  unfold quotedChar
  split
  iterate 7 · rfl
  next hquote hback _ _ _ _ _ =>
  split
  · next hc =>
    have hlead : isLeading c.toNat = false :=
      Bool.and_eq_false_iff.2 (.inl (decide_eq_false (by omega)))
    have htrail : isTrailing c.toNat = false :=
      Bool.and_eq_false_iff.2 (.inl (decide_eq_false (by omega)))
    have hread := readString_unit (codeUnit?_hexDigit hc) hlead htrail acc s
    rwa [Char.ofNat_toNat] at hread
  · next hc =>
    have hplain : (c.toNat < 0x20 || c == '\\') = false := by
      rw [Bool.or_eq_false_iff]
      exact ⟨decide_eq_false hc, beq_eq_false_iff_ne.2 hback⟩
    rw [List.singleton_append, readString, hplain]
    · rfl
    · exact hquote
    · exact fun _ _ _ _ _ h _ => hback h
    · exact fun _ _ h _ => hback h

/-- So are all of them, up to the closing quote. -/
theorem readString_quoted (u acc rest : List Char) :
    readString true none acc (u.flatMap quotedChar ++ '"' :: rest) =
      some (some (String.ofList (acc.reverse ++ u)), rest) := by
  induction u generalizing acc with
  | nil =>
    rw [List.flatMap_nil, List.nil_append, List.append_nil]
    rfl
  | cons c u ih =>
    rw [List.flatMap_cons, List.append_assoc, readString_quotedChar, ih, List.reverse_cons,
      List.append_assoc]
    rfl

theorem toList_quoted (s : String) :
    (quoted s).toList = '"' :: (s.toList.flatMap quotedChar ++ ['"']) := by
  rw [quoted, String.toList_ofList]
  rfl

/-- **A string is read from its quoted text.** -/
theorem reads_string (s : String) : Reads (quoted s).toList (.string s) := by
  intro rest fuel _ hfuel
  obtain ⟨fuel, rfl⟩ := Nat.exists_eq_add_of_lt hfuel
  have hread := readString_quoted s.toList [] rest
  rw [List.reverse_nil, List.nil_append, String.ofList_toList] at hread
  rw [toList_quoted, List.cons_append, List.append_assoc, List.singleton_append, Written.read,
    skipSpace_cons rfl]
  simp only [hread]

/-! ### Arrays and objects -/

theorem Spaces.stops_append {c : Char} (hb : Spaces b) (hc : continuesNumber c = false)
    (r : List Char) : Stops continuesNumber (b ++ c :: r) :=
  hb.stops.append (stops_cons hc r)

/-- How a loop reads what stands in brackets of a kind, items or members: it begins behind the first
bracket, and takes the text of one thing and the comma behind it, or the last one and the bracket. -/
structure Brackets {α : Type} (opening closing : Char) (IsText : List Char → α → Prop)
    (made : List α → Written) (loop : Nat → List α → List Char → Option (Written × List Char)) :
    Prop where
  ends : isSpace closing = false ∧ continuesNumber closing = false
  opens {s : List Char} {fuel : Nat} {x : Written × List Char} (h : loop fuel [] s = some x) :
    Written.read (fuel + 1) (opening :: s) = some x
  comma {s rest r : List Char} {a : α} (h : IsText s a) (hrest : Stops continuesNumber rest)
    (hr : skipSpace rest = ',' :: r) {fuel : Nat} (hfuel : s.length < fuel) (acc : List α) :
    loop (fuel + 1) acc (s ++ rest) = loop fuel (a :: acc) r
  closes {s rest r : List Char} {a : α} (h : IsText s a) (hrest : Stops continuesNumber rest)
    (hr : skipSpace rest = closing :: r) {fuel : Nat} (hfuel : s.length < fuel) (acc : List α) :
    loop (fuel + 1) acc (s ++ rest) = some (made (a :: acc).reverse, r)

section

variable {α : Type} {opening closing : Char} {IsText : List Char → α → Prop}
  {made : List α → Written} {loop : Nat → List α → List Char → Option (Written × List Char)}
  {ls : List (List Char)} {as : List α}

/-- The loop goes through the texts one by one, and each comma goes on with it. -/
theorem Brackets.loop_eq_some (hloop : Brackets opening closing IsText made loop)
    (h : List.Forall₂ IsText ls as) (ne : ls ≠ []) (hb : Spaces b) {acc : List α} {fuel : Nat}
    (hfuel : ([','].intercalate ls).length + 1 < fuel) :
    loop fuel acc ([','].intercalate ls ++ (b ++ closing :: rest)) =
      some (made (acc.reverse ++ as), rest) := by
  induction h generalizing acc fuel with
  | nil => exact absurd rfl ne
  | @cons l a ls as hhead htail ih =>
    obtain ⟨fuel, rfl⟩ : ∃ k, fuel = k + 1 := ⟨fuel - 1, by omega⟩
    cases htail with
    | nil =>
      rw [List.intercalate_singleton] at hfuel ⊢
      have hskip : skipSpace (b ++ closing :: rest) = closing :: rest :=
        (skipSpace_append hb _).trans (skipSpace_cons hloop.ends.1 rest)
      have hstop := hb.stops_append hloop.ends.2 rest
      rw [hloop.closes hhead hstop hskip (by omega), List.reverse_cons]
    | @cons l' a' ls as hnext htail =>
      rw [List.intercalate_cons_cons] at hfuel ⊢
      rw [List.length_append, List.length_append, List.length_singleton] at hfuel
      rw [List.append_assoc, List.append_assoc, List.singleton_append,
        hloop.comma hhead (stops_cons rfl _) (skipSpace_cons rfl _) (by omega),
        ih (List.cons_ne_nil _ _) (by omega), List.reverse_cons, List.append_assoc]
      rfl

/-- **What stands in brackets is read** if the texts between its commas are. -/
theorem Brackets.reads (hloop : Brackets opening closing IsText made loop)
    (h : List.Forall₂ IsText ls as) (ne : ls ≠ []) (hb : Spaces b) :
    Reads (opening :: ([','].intercalate ls ++ (b ++ [closing]))) (made as) := by
  intro rest fuel _ hfuel
  obtain ⟨fuel, rfl⟩ : ∃ k, fuel = k + 1 := ⟨fuel - 1, by omega⟩
  rw [List.length_cons, List.length_append, List.length_append, List.length_singleton] at hfuel
  rw [List.cons_append, List.append_assoc, List.append_assoc, List.singleton_append]
  exact hloop.opens (hloop.loop_eq_some h ne hb (by omega))

end

theorem read_of_close {r : List Char} (h : skipSpace s = ']' :: r) (fuel : Nat) :
    Written.read fuel s = none := by
  cases fuel with
  | zero => rfl
  | succ fuel =>
    rw [Written.read, h]
    rfl

/-- Items are not looked for where the bracket closes at once. -/
theorem read_bracket {fuel : Nat} {x : Written × List Char}
    (h : Written.readItems fuel [] s = some x) : Written.read (fuel + 1) ('[' :: s) = some x := by
  have hne (r : List Char) : skipSpace s ≠ ']' :: r := by
    intro hskip
    cases fuel with
    | zero => exact absurd h nofun
    | succ fuel =>
      rw [Written.readItems, read_of_close hskip] at h
      exact absurd h nofun
  rw [Written.read, skipSpace_cons rfl]
  simp only
  rw [readItems_skipSpace, h]

/-- The items of an array stand in brackets. -/
theorem brackets_items : Brackets '[' ']' Reads .array Written.readItems where
  ends := ⟨rfl, rfl⟩
  opens := read_bracket
  comma h hrest hr fuel hfuel acc := by
    rw [Written.readItems, h _ fuel hrest hfuel]
    simp only [hr]
  closes h hrest hr fuel hfuel acc := by
    rw [Written.readItems, h _ fuel hrest hfuel]
    simp only [hr]

theorem reads_array_nil : Reads ['[', ']'] (.array []) := by
  intro rest fuel _ hfuel
  obtain ⟨fuel, rfl⟩ := Nat.exists_eq_add_of_lt hfuel
  rfl

/-- A name and a text of the value, with a colon in between. -/
inductive MemberText : List Char → String × Written → Prop where
  | intro {b : List Char} (k : String) {s : List Char} {w : Written} (hb : Spaces b)
    (hs : Reads s w) : MemberText (b ++ ((quoted k).toList ++ ':' :: s)) (k, w)

/-- The parts of a member are found one after the other. -/
theorem MemberText.exists_parts {m : String × Written} (h : MemberText s m)
    (hrest : Stops continuesNumber rest) {fuel : Nat} (hfuel : s.length < fuel) :
    ∃ u r r', skipSpace (s ++ rest) = '"' :: u ∧ readString true none [] u = some (some m.1, r) ∧
      skipSpace r = ':' :: r' ∧ Written.read fuel r' = some (m.2, rest) := by
  obtain @⟨b, k, s, w, hb, hs⟩ := h
  have hlength : s.length < fuel := by
    rw [List.length_append, List.length_append, List.length_cons] at hfuel
    omega
  have hname := readString_quoted k.toList [] (':' :: (s ++ rest))
  rw [List.reverse_nil, List.nil_append, String.ofList_toList] at hname
  refine ⟨_, _, _, ?_, hname, skipSpace_cons rfl _, hs rest fuel hrest hlength⟩
  rw [List.append_assoc, skipSpace_append hb, toList_quoted, List.append_assoc, List.cons_append,
    skipSpace_cons rfl, List.append_assoc]
  rfl

/-- Members are not looked for where the brace closes at once. -/
theorem read_brace {fuel : Nat} {x : Written × List Char}
    (h : Written.readMembers fuel (some []) s = some x) :
    Written.read (fuel + 1) ('{' :: s) = some x := by
  have hne (r : List Char) : skipSpace s ≠ '}' :: r := by
    intro hskip
    cases fuel with
    | zero => exact absurd h nofun
    | succ fuel =>
      rw [Written.readMembers, hskip] at h
      exact absurd h nofun
  rw [Written.read, skipSpace_cons rfl]
  simp only
  rw [readMembers_skipSpace, h]

/-- The members of an object stand in braces. -/
theorem brackets_members : Brackets '{' '}' MemberText .object
    fun fuel acc s => Written.readMembers fuel (some acc) s where
  ends := ⟨rfl, rfl⟩
  opens := read_brace
  comma h hrest hr fuel hfuel acc := by
    obtain ⟨u, r₁, r₂, hquote, hname, hcolon, hvalue⟩ := h.exists_parts hrest hfuel
    rw [Written.readMembers, hquote]
    simp only [hname, hcolon, hvalue, hr]
    rfl
  closes h hrest hr fuel hfuel acc := by
    obtain ⟨u, r₁, r₂, hquote, hname, hcolon, hvalue⟩ := h.exists_parts hrest hfuel
    rw [Written.readMembers, hquote]
    simp only [hname, hcolon, hvalue, hr]
    rfl

theorem reads_object_nil : Reads ['{', '}'] (.object []) := by
  intro rest fuel _ hfuel
  obtain ⟨fuel, rfl⟩ := Nat.exists_eq_add_of_lt hfuel
  rfl

/-! ## Printed values -/

/-- The texts of the items, with commas in between and blanks before the bracket. -/
theorem reads_items {text : Json → List Char} {items : List Json} (ne : items ≠ [])
    (h : ∀ v ∈ items, Reads (text v) v.written) (hb : Spaces b) :
    Reads ('[' :: ([','].intercalate (items.map text) ++ (b ++ [']'])))
      (.array (items.map written)) := by
  refine brackets_items.reads ?_ (mt List.map_eq_nil_iff.1 ne) hb
  rw [List.forall₂_map_left_iff, List.forall₂_map_right_iff, List.forall₂_same]
  exact h

/-- And an object from the texts of its members. -/
theorem reads_members {text : String × Json → List Char} {members : List (String × Json)}
    (ne : members ≠ []) (h : ∀ m ∈ members, MemberText (text m) (m.1, m.2.written))
    (hb : Spaces b) :
    Reads ('{' :: ([','].intercalate (members.map text) ++ (b ++ ['}'])))
      (.object (members.map fun m => (m.1, m.2.written))) := by
  refine brackets_members.reads ?_ (mt List.map_eq_nil_iff.1 ne) hb
  rw [List.forall₂_map_left_iff, List.forall₂_map_right_iff, List.forall₂_same]
  exact h

/-! ### On one line -/

@[simp] theorem compactItems_eq_map (items : List Json) :
    compactItems items = items.map compact := by
  induction items with
  | nil => rfl
  | cons v rest ih => rw [compactItems, ih, List.map_cons]

@[simp] theorem compactMembers_eq_map (members : List (String × Json)) :
    compactMembers members = members.map fun m => quoted m.1 ++ ":" ++ compact m.2 := by
  induction members with
  | nil => rfl
  | cons m rest ih => rw [compactMembers, ih, List.map_cons]

theorem toList_line (opening closing : String) (parts : List String) :
    (opening ++ String.intercalate "," parts ++ closing).toList = opening.toList ++
      ([','].intercalate (parts.map String.toList) ++ closing.toList) := by
  rw [String.toList_append, String.toList_append, String.toList_intercalate, List.append_assoc]
  rfl

/-- **A value printed on one line is read as it was.** -/
theorem reads_compact {levels : Nat} {v : Json} (h : v.Legible levels) :
    Reads v.compact.toList v.written := by
  have hnone : Spaces [] := List.forall_mem_nil _
  induction h with
  | null => exact reads_null
  | bool b => exact reads_bool b
  | int low high =>
    obtain ⟨t, ht, hvalue⟩ := exists_readNumber?_int low high
    exact reads_number ht hvalue
  | float back =>
    obtain ⟨t, ht, hvalue⟩ := back
    exact reads_number ht hvalue
  | string s => exact reads_string s
  | @array _ items _ ih =>
    rw [compact, compactItems_eq_map, written, writtenItems_eq_map, toList_line, List.map_map]
    by_cases hnil : items = []
    · rw [hnil]
      exact reads_array_nil
    · exact reads_items hnil ih hnone
  | @object _ members _ _ ih =>
    rw [compact, compactMembers_eq_map, written, writtenMembers_eq_map, toList_line, List.map_map]
    by_cases hnil : members = []
    · rw [hnil]
      exact reads_object_nil
    · refine reads_members hnil (fun m hm => ?_) hnone
      have hmember := MemberText.intro m.1 hnone (ih m hm)
      rw [List.nil_append] at hmember
      rw [Function.comp_apply, String.toList_append, String.toList_append, List.append_assoc]
      exact hmember

/-! ### Laid out over lines -/

theorem spaces_indent (level : Nat) : Spaces (indent level).toList := by
  rw [indent, String.toList_ofList]
  exact fun c hc => List.eq_of_mem_replicate hc ▸ rfl

/-- Blanks that stand behind each comma and in front of the first item stand in front of every
item. -/
theorem append_intercalate (b : List Char) (sep : List Char) (ls : List (List Char)) (ne : ls ≠ []) :
    b ++ (sep ++ b).intercalate ls = sep.intercalate (ls.map (b ++ ·)) := by
  induction ls with
  | nil => exact absurd rfl ne
  | cons l ls ih =>
    cases ls with
    | nil => rw [List.intercalate_singleton]; exact List.intercalate_singleton.symm
    | cons l' ls =>
      rw [List.intercalate_cons_cons, List.map_cons, List.map_cons, List.intercalate_cons_cons,
        ← List.map_cons, ← ih (List.cons_ne_nil _ _)]
      simp only [List.append_assoc]

theorem toList_block_nil (level : Nat) (opening closing : String) :
    (block level opening closing []).toList = opening.toList ++ closing.toList :=
  String.toList_append

/-- The breaks and blanks of a block, each given to the line that it stands in front of. -/
theorem toList_block {lines : List String} (ne : lines ≠ []) (level : Nat)
    (opening closing : String) :
    (block level opening closing lines).toList = opening.toList ++
      ([','].intercalate (lines.map fun l => '\n' :: (indent (level + 1)).toList ++ l.toList) ++
        ('\n' :: (indent level).toList ++ closing.toList)) := by
  have hempty : lines.isEmpty = false := List.isEmpty_eq_false_iff.2 ne
  have hlines : (lines.map (indent (level + 1) ++ ·)).map String.toList =
      lines.map fun l => (indent (level + 1)).toList ++ l.toList := by
    rw [List.map_map]
    exact List.map_congr_left fun l _ => String.toList_append
  have hbreak := append_intercalate ['\n'] [',']
    (lines.map fun l => (indent (level + 1)).toList ++ l.toList) (mt List.map_eq_nil_iff.1 ne)
  rw [List.map_map] at hbreak
  have hmap : (lines.map fun l => '\n' :: (indent (level + 1)).toList ++ l.toList) =
      lines.map ((['\n'] ++ ·) ∘ fun l => (indent (level + 1)).toList ++ l.toList) := rfl
  rw [block, hempty, hmap, ← hbreak]
  simp only [Bool.false_eq_true, if_false, String.toList_append, String.toList_intercalate, hlines,
    List.append_assoc]
  rfl

@[simp] theorem prettyItems_eq_map (level : Nat) (items : List Json) :
    prettyItems level items = items.map (prettyAt level) := by
  induction items with
  | nil => rfl
  | cons v rest ih => rw [prettyItems, ih, List.map_cons]

@[simp] theorem prettyMembers_eq_map (level : Nat) (members : List (String × Json)) :
    prettyMembers level members =
      members.map fun m => quoted m.1 ++ ": " ++ prettyAt level m.2 := by
  induction members with
  | nil => rfl
  | cons m rest ih => rw [prettyMembers, ih, List.map_cons]

/-- A line break with the indentation behind it is blank. -/
theorem spaces_break (level : Nat) : Spaces ('\n' :: (indent level).toList) :=
  List.forall_mem_cons.2 ⟨rfl, spaces_indent level⟩

/-- An array that is broken into lines is read all the same. -/
theorem reads_block_array {f : Json → String} {items : List Json}
    (h : ∀ v ∈ items, Reads (f v).toList v.written) (level : Nat) :
    Reads (block level "[" "]" (items.map f)).toList (.array (items.map written)) := by
  by_cases hnil : items = []
  · rw [hnil, List.map_nil, toList_block_nil]
    exact reads_array_nil
  · rw [toList_block (mt List.map_eq_nil_iff.1 hnil), List.map_map]
    refine reads_items hnil (fun v hv => ?_) (spaces_break level)
    exact (h v hv).space (spaces_break (level + 1))

/-- And so is an object. -/
theorem reads_block_object {f : Json → String} {members : List (String × Json)}
    (h : ∀ m ∈ members, Reads (f m.2).toList m.2.written) (level : Nat) :
    Reads (block level "\x7b" "\x7d" (members.map fun m => quoted m.1 ++ ": " ++ f m.2)).toList
      (.object (members.map fun m => (m.1, m.2.written))) := by
  by_cases hnil : members = []
  · rw [hnil, List.map_nil, toList_block_nil]
    exact reads_object_nil
  · rw [toList_block (mt List.map_eq_nil_iff.1 hnil), List.map_map]
    refine reads_members hnil (fun m hm => ?_) (spaces_break level)
    have hvalue : Reads (' ' :: (f m.2).toList) m.2.written :=
      (h m hm).space (List.forall_mem_singleton.2 rfl)
    have hmember := MemberText.intro m.1 (spaces_break (level + 1)) hvalue
    rw [Function.comp_apply, String.toList_append, String.toList_append, List.append_assoc]
    exact hmember

/-- **A printed value is read as it was**, at any indentation. -/
theorem reads_prettyAt {levels : Nat} {v : Json} (h : v.Legible levels) (level : Nat) :
    Reads (prettyAt level v).toList v.written := by
  induction h generalizing level with
  | null => exact reads_compact (@Legible.null 0)
  | bool b => exact reads_compact (@Legible.bool 0 b)
  | int low high => exact reads_compact (@Legible.int 0 _ low high)
  | float back => exact reads_compact (@Legible.float 0 _ back)
  | string s => exact reads_compact (@Legible.string 0 s)
  | array _ ih =>
    rw [prettyAt, prettyItems_eq_map, written, writtenItems_eq_map]
    exact reads_block_array (fun v hv => ih v hv (level + 1)) level
  | object _ _ ih =>
    rw [prettyAt, prettyMembers_eq_map, written, writtenMembers_eq_map]
    exact reads_block_object (fun m hm => ih m hm (level + 1)) level

/-! ## Whole texts -/

/-- The text prints the value, on one line or laid out. -/
inductive Prints (v : Json) : String → Prop where
  | compact : Prints v v.compact
  | pretty : Prints v v.pretty

/-- **A printed text is the document of its value.** -/
theorem Written.ofText?_of_prints {levels : Nat} {v : Json} {text : String} (h : v.Legible levels)
    (ht : v.Prints text) : Written.ofText? text = some v.written := by
  have hreads : Reads text.toList v.written := by
    cases ht with
    | compact => exact reads_compact h
    | pretty => exact reads_prettyAt h 0
  have hread := hreads [] _ (stops_nil _) (Nat.lt_succ_self _)
  rw [List.append_nil] at hread
  rw [Written.ofText?]
  simp only [hread]
  rfl

/-- **A value comes back from its text.** -/
theorem ofText?_of_prints {v : Json} {text : String} (h : v.Legible Written.maxDepth)
    (ht : v.Prints text) : ofText? text = some v := by
  rw [ofText?, Written.ofText?_of_prints h ht]
  exact value?_written h

end TreeRules.Json
