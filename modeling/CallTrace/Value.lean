import CallTrace.Callable
import CallTrace.Symbol
import CallTrace.Text.Escape

/-!
# Values
-/

namespace CallTrace

/-- What evaluation gives. -/
inductive Value
  | nil
  | bool (b : Bool)
  | int (n : Int64)
  | str (s : String)
  | symbol (name : Symbol)
  | function (id : CallableId)
deriving DecidableEq

namespace Value

/-- The name of a value's type. -/
def typeName : Value → String
  | .nil => "nil"
  | .bool _ => "bool"
  | .int _ => "int"
  | .str _ => "string"
  | .symbol _ => "symbol"
  | .function _ => "function"

/-- The developer-facing text, such as `Int(-5)`. -/
def describe : Value → String
  | .nil => "Nil"
  | .bool b => "Bool(" ++ (if b then "true" else "false") ++ ")"
  | .int n => "Int(" ++ toString n.toInt ++ ")"
  | .str s => "Str(" ++ Text.quoted .description s ++ ")"
  | .symbol name => "Symbol(" ++ name.describe ++ ")"
  | .function id => "Function(" ++ id.describe ++ ")"

end Value

end CallTrace
