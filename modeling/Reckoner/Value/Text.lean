import Reckoner.Value.Basic
import Reckoner.Double.Layout

/-!
# The texts of a value

`shown` is the number alone, as results are displayed; `tagged` names the order too, as the journal
records it.
-/

namespace Reckoner

namespace Value

/-- The number in decimal digits. -/
def shown : Value → String
  | .int _ n _ => toString n
  | .double x => x.write .plain

/-- The name of the order in the tagged text. -/
def tag : Value → String
  | .int .u64 _ _ => "from_u64"
  | .int .u128 _ _ => "from_u128"
  | .int .i64 _ _ => "from_i64"
  | .int .i128 _ _ => "from_i128"
  | .double _ => "from_f64"

/-- The number with its order. -/
def tagged (v : Value) : String :=
  let number := match v with
    | .int _ n _ => toString n
    | .double x => x.write .tagged
  "Value." ++ v.tag ++ "(" ++ number ++ ")"

end Value

end Reckoner
