import Tabular.Text.LetterCase

/-!
# Text in lower case

Every character is replaced by its lower-case form.  Two characters need more than the table of
partners: the dotted capital `İ` becomes two characters, and the capital sigma takes its final form
at the end of a word.
-/

namespace Tabular.Text

/-- The first character that a word's shape does not ignore has a case. -/
def meetsCased (cs : List Char) : Bool :=
  match cs.dropWhile isCaseIgnorable with
  | [] => false
  | c :: _ => isCased c

/-- A capital sigma between `before` (nearest character first) and `after` ends a word. -/
def endsWord (before after : List Char) : Bool :=
  meetsCased before && !meetsCased after

/-- The lower-case form of `c`, which stands between `before` (nearest first) and `after`. -/
def lowerCaseForm (before : List Char) (c : Char) (after : List Char) : List Char :=
  if c = 'Σ' then [if endsWord before after then 'ς' else 'σ']
  else if c = 'İ' then ['i', Char.ofNat 0x307]
  else [lowerCasePartner c]

/-- The lower-case form of a text that follows `before` (nearest character first). -/
def lowerCaseAfter (before : List Char) : List Char → List Char
  | [] => []
  | c :: after => lowerCaseForm before c after ++ lowerCaseAfter (c :: before) after

def lowerCase (s : String) : String :=
  String.ofList (lowerCaseAfter [] s.toList)

end Tabular.Text
