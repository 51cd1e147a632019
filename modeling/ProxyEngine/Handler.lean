import ProxyEngine.Key

/-!
Handlers of proxies. A handler is one of two built-in ones, or a table of
foreign traps laid over one of them: a filled slot of the table answers an
operation, an empty slot leaves it to the built-in handler underneath. A table
is named by an identifier; what its filled slots do is not part of the handler.
-/

namespace ProxyEngine

inductive Slot where
  | getOwnProperty
  | defineProperty
  | ownKeys
  | delete
  | enumerate
  | getPrototypeIfOrdinary
  | getPrototype
  | setPrototype
  | setImmutablePrototype
  | preventExtensions
  | isExtensible
  | has
  | get
  | set
  | call
  | construct
  | hasOwn
  | ownEnumerableKeys
  | className
  | functionToString
  | unbox
  | trace
  | finalize
  | isCallable
  | isConstructor
  deriving DecidableEq, Inhabited

namespace Slot

def all : List Slot :=
  [getOwnProperty, defineProperty, ownKeys, delete, enumerate, getPrototypeIfOrdinary,
    getPrototype, setPrototype, setImmutablePrototype, preventExtensions, isExtensible, has,
    get, set, call, construct, hasOwn, ownEnumerableKeys, className, functionToString, unbox,
    trace, finalize, isCallable, isConstructor]

theorem mem_all (s : Slot) : s ∈ all := by
  cases s <;> decide

end Slot

structure TableId where
  index : Nat
  deriving DecidableEq, Inhabited

/-- A trap table as the engine sees it: its name and which slots are filled. -/
structure TrapTable where
  id : TableId
  filled : List Slot := []
  deriving DecidableEq, Inhabited

namespace TrapTable

def has (t : TrapTable) (s : Slot) : Bool :=
  t.filled.contains s

def size (t : TrapTable) : Nat :=
  Slot.all.countP t.has

def isEmpty (t : TrapTable) : Bool :=
  t.size == 0

def debugText (t : TrapTable) : String :=
  "ProxyTraps \x7b present: " ++ toString t.size ++ ", .. \x7d"

end TrapTable

/-- The built-in handlers: `plain` succeeds without effect at the fundamental
operations, `wrapper` passes everything to the object in the private slot. -/
inductive BaseHandler where
  | plain
  | wrapper
  deriving DecidableEq, Inhabited

inductive Handler where
  | builtin (base : BaseHandler)
  /-- Traps over a built-in handler, with the embedder's pointer, zero for none. -/
  | traps (table : TrapTable) (extra : Nat) (base : BaseHandler)
  deriving DecidableEq, Inhabited

namespace Handler

def base : Handler → BaseHandler
  | builtin b => b
  | traps _ _ b => b

def isWrapper (h : Handler) : Bool :=
  h.base == .wrapper

def trapped? (s : Slot) : Handler → Option TableId
  | builtin _ => none
  | traps t _ _ => if t.has s then some t.id else none

/-- The embedder's pointer of a forwarding handler: traps over the plain handler.
Wrappers are not of this family. -/
def forwardingExtra? : Handler → Option Nat
  | traps _ extra .plain => some extra
  | _ => none

@[simp] theorem trapped?_builtin (s : Slot) (b : BaseHandler) :
    (builtin b).trapped? s = none := rfl

@[simp] theorem trapped?_of_empty (s : Slot) (id : TableId) (extra : Nat) (b : BaseHandler) :
    (traps ⟨id, []⟩ extra b).trapped? s = none := rfl

end Handler

end ProxyEngine
