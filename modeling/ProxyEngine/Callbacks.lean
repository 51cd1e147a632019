/-!
Callback tables that an embedder installs on a context: a queue for promise
jobs and the security principals. As with trap tables, the engine knows which
slots are filled and the embedder's pointer; what a filled slot does is the
embedder's.
-/

namespace ProxyEngine

structure CallbackId where
  index : Nat
  deriving DecidableEq, Inhabited

structure JobQueue where
  id : CallbackId
  hasIncumbent : Bool := false
  hasEnqueue : Bool := false
  hasEmpty : Bool := false
  deriving DecidableEq, Inhabited

structure Principals where
  id : CallbackId
  hasWrite : Bool := false
  hasSystem : Bool := false
  /-- The embedder's pointer, zero for none. -/
  privateData : Nat := 0
  deriving DecidableEq, Inhabited

end ProxyEngine
