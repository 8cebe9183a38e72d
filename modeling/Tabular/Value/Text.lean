import Tabular.Binary64.Text
import Tabular.Value.Basic

/-!
# The text of a value

The form in which values appear in results: texts stand without quotes, reals are positional.
-/

namespace Tabular.Value

def display : Value → String
  | null => "NULL"
  | integer n => toString n.toInt
  | real x => Binary64.Layout.positional.text x
  | text s => s
  | boolean b => if b then "true" else "false"

end Tabular.Value
