import TreeRules.Proofs.Text.Blank
import TreeRules.Selector.Parser

/-!
# Proofs/Selector/Grammar — which texts are selectors, and what they denote

The grammar of selector lists as relations between a text and what it denotes, one for each kind of
text and one case for each way to write it:

    list       := selector (',' selector)*
    selector   := blank* compound (combinator compound)* blank*
    combinator := blank* '>' blank* | blank+
    compound   := ('*' | identifier)? suffix*      and not empty
    suffix     := '#' identifier | '.' identifier | '[' blank* identifier blank* test? ']'
    test       := '=' blank* (identifier | quoted) blank*

No relation mentions a reader or says what comes after a text.  Texts end where they do because no
identifier character is blank (`isIdentifierChar_of_isBlank`), nor is anything else that goes on
with a compound (`continues_of_isBlank`).
-/

namespace TreeRules.Selector

/-! ## Texts and what they denote -/

/-- Any number of blanks. -/
def Blanks (s : List Char) : Prop := ∀ c ∈ s, Text.isBlank c = true

/-- Identifier characters, at least one. -/
inductive IdentifierText : List Char → String → Prop where
  | run {s : List Char} (ne : s ≠ []) (all : ∀ c ∈ s, isIdentifierChar c = true) :
    IdentifierText s (String.ofList s)

/-- A value: an identifier, or any text between two quotes of one kind that it does not have. -/
inductive ValueText : List Char → String → Prop where
  | bare {s : List Char} {v : String} (h : IdentifierText s v) : ValueText s v
  | quoted {s : List Char} {quote : Char} (hq : quote = '"' ∨ quote = '\'') (h : quote ∉ s) :
    ValueText (quote :: (s ++ [quote])) (String.ofList s)

/-- What may stand between the name of an attribute and the bracket. -/
inductive TestText : List Char → Option String → Prop where
  | present : TestText [] none
  | equal {b s b' : List Char} {v : String} (hb : Blanks b) (h : ValueText s v) (hb' : Blanks b') :
    TestText ('=' :: (b ++ s ++ b')) (some v)

/-- One test after the tag. -/
inductive SuffixText : List Char → Suffix → Prop where
  | id {s : List Char} {n : String} (h : IdentifierText s n) : SuffixText ('#' :: s) (.id n)
  | class {s : List Char} {n : String} (h : IdentifierText s n) : SuffixText ('.' :: s) (.class n)
  | attribute {b s b' u : List Char} {n : String} {v : Option String} (hb : Blanks b)
    (h : IdentifierText s n) (hb' : Blanks b') (hu : TestText u v) :
    SuffixText ('[' :: (b ++ s ++ b' ++ u ++ [']'])) (.attribute ⟨n, v⟩)

/-- Any number of tests after the tag. -/
inductive SuffixesText : List Char → List Suffix → Prop where
  | nil : SuffixesText [] []
  | cons {s r : List Char} {x : Suffix} {xs : List Suffix} (h : SuffixText s x)
    (hr : SuffixesText r xs) : SuffixesText (s ++ r) (x :: xs)

/-- Nothing or a star, for any tag, or a tag, whose ASCII letters are taken in lower case. -/
inductive TagText : List Char → Option String → Prop where
  | none : TagText [] none
  | star : TagText ['*'] none
  | name {s : List Char} {n : String} (h : IdentifierText s n) : TagText s (some n.toLower)

/-- The identifier of a test for one. -/
def Suffix.id? : Suffix → Option String
  | .id n => some n
  | _ => none

/-- The class of a test for one. -/
def Suffix.class? : Suffix → Option String
  | .class n => some n
  | _ => none

/-- The test of an attribute. -/
def Suffix.attribute? : Suffix → Option AttributeTest
  | .attribute t => some t
  | _ => none

/-- A tag and tests after it, those of each kind in their order. -/
def compoundOf (tag : Option String) (xs : List Suffix) : Compound :=
  ⟨tag, xs.filterMap Suffix.id?, xs.filterMap Suffix.class?, xs.filterMap Suffix.attribute?⟩

/-- A tag and tests, not both missing. -/
inductive CompoundText : List Char → Compound → Prop where
  | tests {s r : List Char} {tag : Option String} {xs : List Suffix} (h : TagText s tag)
    (hr : SuffixesText r xs) (ne : s ++ r ≠ []) : CompoundText (s ++ r) (compoundOf tag xs)

/-- A greater-than sign with or without blanks around it, or blanks alone. -/
inductive CombinatorText : List Char → Combinator → Prop where
  | child {b b' : List Char} (hb : Blanks b) (hb' : Blanks b') :
    CombinatorText (b ++ '>' :: b') .child
  | descendant {b : List Char} (ne : b ≠ []) (hb : Blanks b) : CombinatorText b .descendant

/-- Any number of compounds, each after a combinator. -/
inductive JoinedText : List Char → List (Combinator × Compound) → Prop where
  | nil : JoinedText [] []
  | cons {k s r : List Char} {j : Combinator} {c : Compound} {ps : List (Combinator × Compound)}
    (hk : CombinatorText k j) (h : CompoundText s c) (hr : JoinedText r ps) :
    JoinedText (k ++ s ++ r) ((j, c) :: ps)

/-- Compounds joined by combinators, with blanks around them: the selector has them in the order in
which they are written. -/
inductive SelectorText : List Char → Selector → Prop where
  | parts {b s r b' : List Char} {c : Compound} {ps : List (Combinator × Compound)} {t : Selector}
    (hb : Blanks b) (h : CompoundText s c) (hr : JoinedText r ps) (hb' : Blanks b')
    (compounds : t.compounds = c :: ps.map Prod.snd)
    (combinators : t.combinators = ps.map Prod.fst) : SelectorText (b ++ s ++ r ++ b') t

/-- Selectors between commas, at least one. -/
inductive ListText : List Char → List Selector → Prop where
  | last {s : List Char} {t : Selector} (h : SelectorText s t) : ListText s [t]
  | more {s r : List Char} {t : Selector} {ts : List Selector} (h : SelectorText s t)
    (hr : ListText r ts) : ListText (s ++ ',' :: r) (t :: ts)

/-! ## Characters -/

/-- Characters differ if a class has the one and not the other. -/
theorem ne_of_class {p : Char → Bool} {c m : Char} (hc : p c = true) (hm : p m = false) :
    c ≠ m := by
  rintro rfl
  exact absurd (hc.symm.trans hm) Bool.false_ne_true.symm

/-- **A blank is no identifier character.** -/
theorem isIdentifierChar_of_isBlank {c : Char} (h : Text.isBlank c = true) :
    isIdentifierChar c = false := by
  have hhyphen : c ≠ '-' := ne_of_class h (by decide)
  have hunderscore : c ≠ '_' := ne_of_class h (by decide)
  simp [isIdentifierChar, Text.isAlphanumeric_of_isBlank h, hhyphen, hunderscore]

/-- What goes on with a compound, whatever has been read of it. -/
def continues (c : Char) : Bool := isIdentifierChar c || c == '#' || c == '.' || c == '['

theorem continues_of_isIdentifierChar {c : Char} (h : isIdentifierChar c = true) :
    continues c = true := by
  simp [continues, h]

theorem continues_of_isBlank {c : Char} (h : Text.isBlank c = true) : continues c = false := by
  have hhash : c ≠ '#' := ne_of_class h (by decide)
  have hpoint : c ≠ '.' := ne_of_class h (by decide)
  have hbracket : c ≠ '[' := ne_of_class h (by decide)
  simp [continues, isIdentifierChar_of_isBlank h, hhash, hpoint, hbracket]

theorem isBlank_of_continues {c : Char} (h : continues c = true) : Text.isBlank c = false := by
  cases hb : Text.isBlank c with
  | false => rfl
  | true => exact h.symm.trans (continues_of_isBlank hb)

end TreeRules.Selector
