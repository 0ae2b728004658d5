import TreeRules.Selector.Basic
import TreeRules.Text.Alphanumeric
import TreeRules.Text.Blank

/-!
# Selector/Parser — reading a selector list

Each reader takes what it can from the front of the text and returns the rest, or the reason why it
stopped and the rest at which it did; the place of an error is counted from the length of that rest.
Whoever reads something returns a shorter text, which is why the repetitions end.
-/

namespace TreeRules

namespace Selector

/-! ## What can go wrong -/

/-- Why a text is no selector list. -/
inductive Reason where
  | unexpected (c : Char)
  | unsupported (c : Char)
  | expectedSelector
  | expectedIdentifier
  | expectedBracket
  | unterminatedString
  deriving DecidableEq, Repr

def Reason.message : Reason → String
  | unexpected c => "unexpected '" ++ c.toString ++ "'"
  | unsupported c => "unsupported token '" ++ c.toString ++ "'"
  | expectedSelector => "expected a selector"
  | expectedIdentifier => "expected an identifier"
  | expectedBracket => "expected ']'"
  | unterminatedString => "unterminated string"

/-- A reason, and what was left of the text. -/
structure Stop where
  reason : Reason
  rest : List Char
  deriving DecidableEq, Repr

/-- What a reader makes of a text. -/
abbrev Reading (α : Type) := Except Stop (α × List Char)

/-! ## Identifiers and quoted text -/

def isIdentifierChar (c : Char) : Bool := Text.isAlphanumeric c || c == '-' || c == '_'

def skipBlank (s : List Char) : List Char := s.dropWhile Text.isBlank

/-- The longest run of identifier characters, at least one. -/
def identifier (s : List Char) : Reading String :=
  match s.takeWhile isIdentifierChar with
  | [] => .error ⟨.expectedIdentifier, s⟩
  | name => .ok (String.ofList name, s.dropWhile isIdentifierChar)

/-- The text up to the closing quote. -/
def quotedRest (quote : Char) (s : List Char) : Reading String :=
  match s.dropWhile (· != quote) with
  | [] => .error ⟨.unterminatedString, []⟩
  | _ :: rest => .ok (String.ofList (s.takeWhile (· != quote)), rest)

/-- An attribute value, quoted or bare. -/
def attributeValue (s : List Char) : Reading String :=
  match s with
  | '"' :: r => quotedRest '"' r
  | '\'' :: r => quotedRest '\'' r
  | _ => identifier s

/-- What follows an equals sign, with the blanks around it. -/
def attributeTail (s : List Char) : Reading (Option String) :=
  match s with
  | '=' :: r =>
    match attributeValue (skipBlank r) with
    | .ok (v, r) => .ok (some v, skipBlank r)
    | .error e => .error e
  | _ => .ok (none, s)

/-- The inside of an attribute test and its closing bracket. -/
def attributeRest (s : List Char) : Reading AttributeTest :=
  match identifier (skipBlank s) with
  | .error e => .error e
  | .ok (name, r) =>
    match attributeTail (skipBlank r) with
    | .error e => .error e
    | .ok (value, ']' :: r) => .ok (⟨name, value⟩, r)
    | .ok (_, r) => .error ⟨.expectedBracket, r⟩

/-! ## Compounds -/

/-- One test after the tag. -/
inductive Suffix where
  | id (name : String)
  | class (name : String)
  | attribute (test : AttributeTest)
  deriving DecidableEq, Repr

/-- The compound with one more test at the end of its kind. -/
def Suffix.addTo (c : Compound) : Suffix → Compound
  | .id name => { c with ids := c.ids ++ [name] }
  | .class name => { c with classes := c.classes ++ [name] }
  | .attribute test => { c with attributes := c.attributes ++ [test] }

/-- One more test, if the text goes on with one. -/
def suffix? (s : List Char) : Option (Reading Suffix) :=
  match s with
  | '#' :: r => some ((identifier r).map fun (n, r) => (.id n, r))
  | '.' :: r => some ((identifier r).map fun (n, r) => (.class n, r))
  | '[' :: r => some ((attributeRest r).map fun (t, r) => (.attribute t, r))
  | _ => none

theorem skipBlank_length_le (s : List Char) : (skipBlank s).length ≤ s.length :=
  (List.dropWhile_suffix _).length_le

theorem identifier_length_lt {s r : List Char} {n : String} (h : identifier s = .ok (n, r)) :
    r.length < s.length := by
  unfold identifier at h
  split at h
  · simp at h
  · next name hn =>
    simp only [Except.ok.injEq, Prod.mk.injEq] at h
    obtain ⟨-, rfl⟩ := h
    have := congrArg List.length (List.takeWhile_append_dropWhile (p := isIdentifierChar) (l := s))
    have hpos : 0 < (s.takeWhile isIdentifierChar).length := by
      cases ht : s.takeWhile isIdentifierChar with
      | nil => simp_all
      | cons => simp
    simp only [List.length_append] at this
    omega

theorem quotedRest_length_le {q : Char} {s r : List Char} {t : String}
    (h : quotedRest q s = .ok (t, r)) : r.length ≤ s.length := by
  unfold quotedRest at h
  split at h
  · simp at h
  · next hd =>
    simp only [Except.ok.injEq, Prod.mk.injEq] at h
    obtain ⟨-, rfl⟩ := h
    have := (List.dropWhile_suffix (l := s) (· != q)).length_le
    rw [hd] at this
    simp only [List.length_cons] at this
    omega

theorem attributeValue_length_le {s r : List Char} {t : String}
    (h : attributeValue s = .ok (t, r)) : r.length ≤ s.length := by
  unfold attributeValue at h
  split at h
  · have := quotedRest_length_le h; simp only [List.length_cons]; omega
  · have := quotedRest_length_le h; simp only [List.length_cons]; omega
  · exact Nat.le_of_lt (identifier_length_lt h)

theorem attributeTail_length_le {s r : List Char} {v : Option String}
    (h : attributeTail s = .ok (v, r)) : r.length ≤ s.length := by
  unfold attributeTail at h
  split at h
  · next r' =>
    split at h
    · next t r'' hv =>
      simp only [Except.ok.injEq, Prod.mk.injEq] at h
      obtain ⟨-, rfl⟩ := h
      have h₁ := attributeValue_length_le hv
      have h₂ := skipBlank_length_le r'
      have h₃ := skipBlank_length_le r''
      simp only [List.length_cons]
      omega
    · simp at h
  · simp only [Except.ok.injEq, Prod.mk.injEq] at h
    obtain ⟨-, rfl⟩ := h
    exact Nat.le_refl _

theorem attributeRest_length_lt {s r : List Char} {t : AttributeTest}
    (h : attributeRest s = .ok (t, r)) : r.length < s.length := by
  unfold attributeRest at h
  split at h
  · simp at h
  · next name r' hi =>
    split at h
    · simp at h
    · next value r'' ht =>
      simp only [Except.ok.injEq, Prod.mk.injEq] at h
      obtain ⟨-, rfl⟩ := h
      have h₁ := attributeTail_length_le ht
      have h₂ := identifier_length_lt hi
      have h₃ := skipBlank_length_le s
      have h₄ := skipBlank_length_le r'
      simp only [List.length_cons] at h₁
      omega
    · simp at h

theorem suffix?_length_lt {s r : List Char} {x : Suffix} (h : suffix? s = some (.ok (x, r))) :
    r.length < s.length := by
  unfold suffix? at h
  split at h
  · next r' =>
    cases hi : identifier r' with
    | error e => simp [hi, Except.map] at h
    | ok p =>
      have := identifier_length_lt (n := p.1) (r := p.2) hi
      simp only [hi, Except.map, Option.some.injEq, Except.ok.injEq, Prod.mk.injEq] at h
      simp only [List.length_cons, ← h.2]
      omega
  · next r' =>
    cases hi : identifier r' with
    | error e => simp [hi, Except.map] at h
    | ok p =>
      have := identifier_length_lt (n := p.1) (r := p.2) hi
      simp only [hi, Except.map, Option.some.injEq, Except.ok.injEq, Prod.mk.injEq] at h
      simp only [List.length_cons, ← h.2]
      omega
  · next r' =>
    cases hi : attributeRest r' with
    | error e => simp [hi, Except.map] at h
    | ok p =>
      have := attributeRest_length_lt (t := p.1) (r := p.2) hi
      simp only [hi, Except.map, Option.some.injEq, Except.ok.injEq, Prod.mk.injEq] at h
      simp only [List.length_cons, ← h.2]
      omega
  · simp at h

/-- All the tests that follow, added to a compound. -/
def suffixes (c : Compound) (s : List Char) : Reading Compound :=
  match _h : suffix? s with
  | none => .ok (c, s)
  | some (.error e) => .error e
  | some (.ok (x, r)) => suffixes (x.addTo c) r
termination_by s.length
decreasing_by exact suffix?_length_lt _h

/-- The tag at the front: a star for any, a name in lower case, or nothing. -/
def tagPart (s : List Char) : Option String × List Char :=
  match s with
  | '*' :: r => (none, r)
  | _ =>
    match s.takeWhile isIdentifierChar with
    | [] => (none, s)
    | name => (some (String.ofList name).toLower, s.dropWhile isIdentifierChar)

/-- A compound; something of it must be there. -/
def compound (s : List Char) : Reading Compound :=
  let (tag, r) := tagPart s
  match suffixes ⟨tag, [], [], []⟩ r with
  | .error e => .error e
  | .ok (c, r) =>
    if r.length < s.length then .ok (c, r)
    else
      match s with
      | [] => .error ⟨.expectedSelector, s⟩
      | d :: _ => .error ⟨.unsupported d, s⟩

theorem compound_length_lt {s r : List Char} {c : Compound} (h : compound s = .ok (c, r)) :
    r.length < s.length := by
  unfold compound at h
  simp only at h
  split at h
  · simp at h
  · split at h
    · next hlt =>
      simp only [Except.ok.injEq, Prod.mk.injEq] at h
      exact h.2 ▸ hlt
    · split at h <;> simp at h

/-! ## Selectors -/

/-- What follows a part of a selector: the end, a comma, or a combinator and one more compound.
Blanks alone stand for `Combinator.descendant`. -/
def selectorTail (left : Selector) (s : List Char) : Reading Selector :=
  match _hs : skipBlank s with
  | [] => .ok (left, [])
  | ',' :: r => .ok (left, ',' :: r)
  | '>' :: r =>
    match _hc : compound (skipBlank r) with
    | .error e => .error e
    | .ok (c, r') => selectorTail (.joined left .child c) r'
  | c :: r =>
    if (c :: r).length < s.length then
      match _hc : compound (c :: r) with
      | .error e => .error e
      | .ok (c', r') => selectorTail (.joined left .descendant c') r'
    else .error ⟨.unexpected c, c :: r⟩
termination_by s.length
decreasing_by
  · have h₁ := compound_length_lt _hc
    have h₂ := skipBlank_length_le r
    have h₃ := skipBlank_length_le s
    simp only [_hs, List.length_cons] at h₃
    omega
  · have h₁ := compound_length_lt _hc
    have h₃ := skipBlank_length_le s
    simp only [_hs] at h₃
    omega

/-- One selector, up to the end or a comma. -/
def selector (s : List Char) : Reading Selector :=
  match compound (skipBlank s) with
  | .error e => .error e
  | .ok (c, r) => selectorTail (.single c) r

theorem selectorTail_length_le {left t : Selector} {s r : List Char}
    (h : selectorTail left s = .ok (t, r)) : r.length ≤ s.length := by
  fun_induction selectorTail left s with
  | case1 => simp_all
  | case2 left s r' hs =>
    simp only [Except.ok.injEq, Prod.mk.injEq] at h
    have := skipBlank_length_le s
    simp only [hs] at this
    exact h.2 ▸ this
  | case3 => simp at h
  | case4 left s r' hs c r'' hc ih =>
    have h₁ := ih h
    have h₂ := compound_length_lt hc
    have h₃ := skipBlank_length_le s
    have h₄ := skipBlank_length_le r'
    simp only [hs, List.length_cons] at h₃
    omega
  | case5 => simp at h
  | case6 left s c r' hs _ _ hlt c' r'' hc ih =>
    have h₁ := ih h
    have h₂ := compound_length_lt hc
    omega
  | case7 => simp at h

theorem selector_length_lt {t : Selector} {s r : List Char} (h : selector s = .ok (t, r)) :
    r.length < s.length := by
  unfold selector at h
  split at h
  · simp at h
  · next c r' hc =>
    have h₁ := compound_length_lt hc
    have h₂ := selectorTail_length_le h
    have h₃ := skipBlank_length_le s
    omega

/-- Selectors between commas, to the end of the text. -/
def selectors (s : List Char) : Except Stop (List Selector) :=
  match _h : selector s with
  | .error e => .error e
  | .ok (t, []) => .ok [t]
  | .ok (t, ',' :: r) => (selectors r).map (t :: ·)
  | .ok (_, c :: r) => .error ⟨.unexpected c, c :: r⟩
termination_by s.length
decreasing_by
  have := selector_length_lt _h
  simp only [List.length_cons] at this
  omega

end Selector

/-! ## Selector lists -/

/-- A text that is no selector list, the reason, and the number of characters before the place. -/
structure SelectorError where
  source : String
  reason : Selector.Reason
  position : Nat
  deriving DecidableEq, Repr

def SelectorError.message (e : SelectorError) : String :=
  "Invalid selector '" ++ e.source ++ "': " ++ e.reason.message ++ " at position " ++
    toString e.position

/-- The selector list that a text denotes. -/
def SelectorList.parse (source : String) : Except SelectorError SelectorList :=
  match Selector.selectors source.toList with
  | .ok selectors => .ok ⟨source, selectors⟩
  | .error e => .error ⟨source, e.reason, source.toList.length - e.rest.length⟩

end TreeRules
