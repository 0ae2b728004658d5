import TreeRules.Text.Property

/-!
# Rule/Fault — why a file of settings or rules cannot be used

The causes come in the order in which they are looked for: the file is there, its name says JSON,
it can be read, its text can be parsed, and what it says makes sense.
-/

namespace TreeRules

/-! ## Shown paths -/

/-- Whether a character is shown as it is. -/
def Text.isShown (c : Char) : Bool :=
  c == ' ' || !(Property.isIn c [.cc, .cf, .cs, .co, .cn, .zs, .zl, .zp] ||
    Property.isGraphemeExtend c)

/-- A character of a quoted path. -/
def shownChar (c : Char) : List Char :=
  match c with
  | '"' | '\'' | '\\' => ['\\', c]
  | '\n' => ['\\', 'n']
  | '\r' => ['\\', 'r']
  | '\t' => ['\\', 't']
  | '\x00' => ['\\', '0']
  | c =>
    if Text.isShown c then [c] else ['\\', 'u', '\x7b'] ++ Nat.toDigits 16 c.toNat ++ ['\x7d']

/-- A path between quotation marks. -/
def shownPath (path : String) : String :=
  "\"" ++ String.ofList (path.toList.flatMap shownChar) ++ "\""

/-! ## Faults -/

/-- Why a file cannot be used. -/
inductive Fault where
  | notFound (path : String)
  | unsupportedFormat (ending : String)
  | unreadable (reason : String)
  | malformed
  | invalid (reason : String)
  deriving DecidableEq, Repr

def Fault.message : Fault → String
  | notFound path => "Config file not found: " ++ shownPath path
  | unsupportedFormat ending => "Unsupported format: " ++ ending
  | unreadable reason => "IO error: " ++ reason
  | malformed => "Parse error: the text does not have the expected form"
  | invalid reason => "Invalid configuration: " ++ reason

end TreeRules
