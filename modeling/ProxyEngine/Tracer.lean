import ProxyEngine.Value

/-!
Edges reported to the collector. A tracer keeps the reported handles, dead ones
included; a value that is not an object is no edge.
-/

namespace ProxyEngine

inductive Edge where
  | value (v : Value)
  | object (o : ObjectId)
  deriving DecidableEq

namespace Edge

def target? : Edge → Option ObjectId
  | value v => v.asObject?
  | object o => some o

end Edge

structure Tracer where
  targets : List ObjectId := []
  deriving DecidableEq, Inhabited

namespace Tracer

def report (t : Tracer) (e : Edge) : Tracer :=
  ⟨t.targets ++ e.target?.toList⟩

def edges (t : Tracer) : Nat :=
  t.targets.length

end Tracer

end ProxyEngine
