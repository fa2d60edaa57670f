/-!
# Operators
-/

set_option autoImplicit false

namespace DeployCheck

inductive UnaryOperator where
  | not
  | minus
  deriving DecidableEq

namespace UnaryOperator

def all : List UnaryOperator := [.not, .minus]

def symbol : UnaryOperator → String
  | .not => "!"
  | .minus => "-"

def ofSymbol? (symbol : String) : Option UnaryOperator := all.find? fun o => o.symbol == symbol

theorem ofSymbol?_symbol (o : UnaryOperator) : ofSymbol? o.symbol = some o := by
  cases o <;> rfl

end UnaryOperator

inductive BinaryOperator where
  | or
  | and
  | equal
  | notEqual
  | alike
  | notAlike
  | less
  | lessOrEqual
  | greater
  | greaterOrEqual
  | add
  | subtract
  | multiply
  | divide
  | modulo
  | coalesce
  deriving DecidableEq

namespace BinaryOperator

def all : List BinaryOperator :=
  [.or, .and, .equal, .notEqual, .alike, .notAlike, .less, .lessOrEqual, .greater,
   .greaterOrEqual, .add, .subtract, .multiply, .divide, .modulo, .coalesce]

def symbol : BinaryOperator → String
  | .or => "||"
  | .and => "&&"
  | .equal => "=="
  | .notEqual => "!="
  | .alike => "=~"
  | .notAlike => "!~"
  | .less => "<"
  | .lessOrEqual => "<="
  | .greater => ">"
  | .greaterOrEqual => ">="
  | .add => "+"
  | .subtract => "-"
  | .multiply => "*"
  | .divide => "/"
  | .modulo => "%"
  | .coalesce => "??"

def ofSymbol? (symbol : String) : Option BinaryOperator := all.find? fun o => o.symbol == symbol

theorem ofSymbol?_symbol (o : BinaryOperator) : ofSymbol? o.symbol = some o := by
  cases o <;> rfl

end BinaryOperator

end DeployCheck
