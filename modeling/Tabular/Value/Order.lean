import Tabular.Binary64.Bits
import Tabular.Value.Basic

/-!
# The order of values

Values of different variants order by variant: `NULL`, integers, reals, texts, booleans.  Inside a
variant the payloads decide, reals by the total order of their bits and texts by code point.
-/

namespace Tabular.Value

def rank : Value → Nat
  | null => 0
  | integer _ => 1
  | real _ => 2
  | text _ => 3
  | boolean _ => 4

def order : Value → Value → Ordering
  | integer m, integer n => compare m.toInt n.toInt
  | real x, real y => compare (Binary64.orderKey x) (Binary64.orderKey y)
  | text s, text t => compare s t
  | boolean b, boolean c => compare b.toNat c.toNat
  | v, w => compare v.rank w.rank

instance : Ord Value :=
  ⟨order⟩

end Tabular.Value
