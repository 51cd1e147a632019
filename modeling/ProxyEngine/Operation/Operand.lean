import ProxyEngine.Operation

/-!
The operands of an operation by name. A trap receives them in this order, after
the object itself; an operation that asks about the object alone has none.
-/

namespace ProxyEngine

inductive Operand where
  | value (v : Value)
  | key (k : PropertyKey)
  | descriptor (d : Descriptor)
  | values (vs : List Value)

namespace Operand

def object? (o : Option ObjectId) : Operand :=
  value (.objectOrNull o)

end Operand

namespace Op

variable {s : Shape}

def operands : Op s → List (String × Operand)
  | getOwnProperty _ k => [("id", .key k)]
  | defineProperty _ k d => [("id", .key k), ("desc", .descriptor d)]
  | delete _ k => [("id", .key k)]
  | setPrototype _ p => [("proto", .object? p)]
  | has _ k => [("id", .key k)]
  | get _ receiver k => [("receiver", .value receiver), ("id", .key k)]
  | set _ k v receiver => [("id", .key k), ("val", .value v), ("receiver", .value receiver)]
  | call _ this args => [("this", .value this), ("args", .values args)]
  | construct _ args newTarget => [("args", .values args), ("newTarget", .value newTarget)]
  | hasOwn _ k => [("id", .key k)]
  | functionToString _ b => [("isToString", .value (.boolean b))]
  | _ => []

end Op

end ProxyEngine
