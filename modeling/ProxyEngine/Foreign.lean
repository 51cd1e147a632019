import ProxyEngine.Behaviour.Plain
import ProxyEngine.Behaviour.Wrapper
import ProxyEngine.Tracer

/-!
What the embedder supplies: a program for every filled trap, host function and
callback. A trap gets the operation and the initial out parameters and leaves a
reply; a trace trap only reports edges and touches nothing but the embedder's
state. Together with the built-in handlers this gives every handler a method
for every operation. Arguments reach a trap as a pointer and a count of 32 bits.
-/

namespace ProxyEngine

structure Foreign (σ : Type) where
  trap : {s : Shape} → TableId → Op s → s.Out → Program σ (Reply s)
  finalize : TableId → ObjectId → Program σ Unit
  trace : TableId → ObjectId → σ → List Edge × σ
  function : FunctionId → (this : Value) → (args : List Value) → Program σ (Fallible Value)
  incumbent : CallbackId → Program σ (Option ObjectId)
  enqueue : CallbackId → (promise : Option ObjectId) → (job : ObjectId) →
    (site incumbent : Option ObjectId) → Program σ Bool
  queueIsEmpty : CallbackId → σ → Bool
  writePrincipals : CallbackId → Program σ Written
  isSystem : CallbackId → σ → Bool

namespace Op

variable {s : Shape}

def admitted (args : List Value) : List Value :=
  args.take (UInt32.ofNat args.length).toNat

/-- The operation as a trap is handed it. -/
def handed : Op s → Op s
  | call o this args => call o this (admitted args)
  | construct o args newTarget => construct o (admitted args) newTarget
  | op => op

@[simp] theorem subject_handed (op : Op s) : op.handed.subject = op.subject := by
  cases op <;> rfl

@[simp] theorem slot_handed (op : Op s) : op.handed.slot = op.slot := by
  cases op <;> rfl

end Op

namespace BaseHandler

def method {σ : Type} {s : Shape} : BaseHandler → Op s → Program σ s.Answer
  | plain => Plain.method
  | wrapper => Wrapper.method

end BaseHandler

namespace Foreign

variable {σ : Type} {s : Shape}

/-- A handler's answer to an operation: the trap's reply when the slot is filled, and
the built-in handler's method when it is not. -/
def method (F : Foreign σ) (h : Handler) (op : Op s) : Program σ s.Answer :=
  match h.trapped? op.slot with
  | some id => Reply.toAnswer <$> F.trap id op.handed s.initial
  | none => h.base.method op

def finalizer (F : Foreign σ) (h : Handler) (o : ObjectId) : Program σ Unit :=
  match h.trapped? .finalize with
  | some id => F.finalize id o
  | none => return ()

def edges (F : Foreign σ) (h : Handler) (o : ObjectId) (state : σ) : List ObjectId × σ :=
  match h.trapped? .trace with
  | some id =>
    let (es, state) := F.trace id o state
    (es.filterMap Edge.target?, state)
  | none => ([], state)

theorem method_of_filled (F : Foreign σ) {h : Handler} {op : Op s} {id : TableId}
    (filled : h.trapped? op.slot = some id) :
    F.method h op = Reply.toAnswer <$> F.trap id op.handed s.initial := by
  simp [method, filled]

theorem method_of_empty (F : Foreign σ) {h : Handler} {op : Op s}
    (empty : h.trapped? op.slot = none) : F.method h op = h.base.method op := by
  simp [method, empty]

end Foreign

end ProxyEngine
