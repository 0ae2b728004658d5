import TreeRules.Pattern.CharSet

/-!
# Pattern/Name — which set of characters a name stands for

Names are compared loosely: case, spaces, hyphens and underscores do not count, nor does a leading
`is`.  A plain name is a property, a category or a script; a name with a value says which of the
last two it means.  The properties that have other values, such as the age of a character or what
breaks a word, are not among them.
-/

namespace TreeRules.Pattern

open Text

/-! ## Loose names -/

/-- The letters of a name that count, in lower case. -/
def significant (s : List Char) : List Char :=
  (s.filter fun c => c.toNat < 128 && c != ' ' && c != '_' && c != '-').map Char.toLower

/-- A name without a leading `is`; `isc` alone keeps it, being a name of its own. -/
def looseName (s : List Char) : String :=
  match s with
  | i :: z :: rest =>
    if i.toLower == 'i' && z.toLower == 's' then
      let name := significant rest
      String.ofList (if name == ['c'] then ['i', 's', 'c'] else name)
    else String.ofList (significant s)
  | _ => String.ofList (significant s)

/-! ## The sets that names stand for -/

/-- A set named by category, or one of the three that group all categories. -/
def CharSet.ofCategory? (name : String) : Option CharSet :=
  if name = "any" then some .any
  else if name = "assigned" then some (.complement (.categories [.cn]))
  else if name = "ascii" then some .ascii
  else (Category.named? name).map .categories

/-- What a property escape asks for: a plain name, or the value of a property. -/
inductive PropertyName where
  | plain (name : List Char)
  | valued (name value : List Char)
  deriving DecidableEq, Repr

/-- The set that a property escape asks for. -/
def CharSet.named? : PropertyName → Option CharSet
  | .plain name =>
    let name := looseName name
    (Property.named? name).map .property <|> CharSet.ofCategory? name
      <|> (Script.named? name).map .script
  | .valued name value =>
    let name := looseName name
    let value := looseName value
    if name = "gc" ∨ name = "generalcategory" then CharSet.ofCategory? value
    else if name = "sc" ∨ name = "script" then (Script.named? value).map .script
    else if name = "scx" ∨ name = "scriptextensions" then (Script.named? value).map .usedWith
    else none

/-! ## Bracketed ASCII names -/

/-- The classes written `[:name:]`, each a list of ASCII ranges. -/
def asciiClasses : List (String × List (Char × Char)) :=
  [
    ("alnum", [('0', '9'), ('A', 'Z'), ('a', 'z')]),
    ("alpha", [('A', 'Z'), ('a', 'z')]),
    ("ascii", [('\x00', '\x7f')]),
    ("blank", [('\t', '\t'), (' ', ' ')]),
    ("cntrl", [('\x00', '\x1f'), ('\x7f', '\x7f')]),
    ("digit", [('0', '9')]),
    ("graph", [('!', '~')]),
    ("lower", [('a', 'z')]),
    ("print", [(' ', '~')]),
    ("punct", [('!', '/'), (':', '@'), ('[', '\x60'), ('\x7b', '~')]),
    ("space", [('\t', '\r'), (' ', ' ')]),
    ("upper", [('A', 'Z')]),
    ("word", [('0', '9'), ('A', 'Z'), ('_', '_'), ('a', 'z')]),
    ("xdigit", [('0', '9'), ('A', 'F'), ('a', 'f')])
  ]

/-- The ASCII class of a name, spelled exactly. -/
def CharSet.asciiNamed? (name : String) : Option CharSet :=
  (asciiClasses.lookup name).map CharSet.ranges

end TreeRules.Pattern
