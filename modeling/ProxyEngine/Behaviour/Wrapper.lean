import ProxyEngine.Program.Attempt

/-!
The wrapper handler: every operation goes to the object in the proxy's private
slot as it is, and a construct aimed at the wrapper is aimed at that object.
-/

namespace ProxyEngine.Wrapper

variable {σ : Type} {s : Shape}

def method (op : Op s) : Program σ s.Answer := do
  match (← Program.context).target? op.subject with
  | some t => Program.perform (op.redirect t)
  | none => Program.giveUp s .typeError "wrapper has no target object"

end ProxyEngine.Wrapper
