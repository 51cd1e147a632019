import ProxyEngine.Engine.Run

/-!
Mark and sweep. Marking goes from the roots along every stored handle and every
edge that trace traps report; each live object is marked once. Then all dead
proxies are finalized in slot order, while every dead object is still there,
and only then are the dead objects freed, in slot order too.
-/

namespace ProxyEngine

namespace Context

/-- Where marking starts: the intrinsic objects, the pending exception and all
registered roots, the last one first. -/
def markRoots (c : Context) : List ObjectId :=
  ([objectPrototype, functionPrototype, global]
    ++ (c.pending.bind Value.asObject?).toList ++ c.roots.map Prod.fst).reverse

def releaseAll (c : Context) : List ObjectId → Nat × Context
  | [] => (0, c)
  | o :: rest =>
    let (freed, heap) := c.heap.release o
    let (n, c) := releaseAll { c with heap } rest
    (if freed.isSome then n + 1 else n, c)

def recordCollection (c : Context) (marked reclaimed : Nat) : Context :=
  { c with
    heap := { c.heap with allocatedSinceGc := 0 }
    stats :=
      { collections := c.stats.collections + 1
        lastReclaimed := reclaimed
        totalReclaimed := c.stats.totalReclaimed + reclaimed
        lastMarked := marked } }

end Context

namespace Collector

variable {σ : Type}

structure Marking (σ : Type) where
  marked : List ObjectId := []
  state : σ

def successors (F : Foreign σ) (o : ObjectId) (x : Object) (state : σ) : List ObjectId × σ :=
  match x.proxy? with
  | some p =>
    let (es, state) := F.edges p.handler o state
    (x.references ++ es, state)
  | none => (x.references, state)

def settled (h : Heap) (m : Marking σ) (o : ObjectId) : Bool :=
  !h.isLive o || m.marked.contains o

/-- Marks everything reachable from the work list, from its head on, where the handle found
last is the first to be visited. Every step marks one more live object, so the number of
live objects is budget enough. -/
def mark (F : Foreign σ) (h : Heap) : (budget : Nat) → (work : List ObjectId) →
    Marking σ → Marking σ
  | 0, _, m => m
  | budget + 1, work, m =>
    match work.dropWhile (settled h m) with
    | [] => m
    | o :: rest =>
      match h.get? o with
      | some x =>
        let (next, state) := successors F o x m.state
        mark F h budget (next.reverse ++ rest) { marked := o :: m.marked, state }
      | none => m

def finalizeAll (F : Foreign σ) (answer : Answerer σ) : List ObjectId → Run σ Unit
  | [] => pure ()
  | o :: rest => do
    if let some h := (← Run.context).handler? o then
      (F.finalizer h o).run answer
    finalizeAll F answer rest

def collect (F : Foreign σ) (answer : Answerer σ) : Run σ Nat := do
  let m ← get
  let heap := m.context.heap
  let marking := mark F heap heap.live m.context.markRoots { state := m.state }
  set { m with state := marking.state }
  let dead := heap.ids.filter fun o => !marking.marked.contains o
  finalizeAll F answer dead
  let (reclaimed, c) := (← Run.context).releaseAll dead
  Run.modifyContext fun _ => c.recordCollection marking.marked.length reclaimed
  return reclaimed

def close (F : Foreign σ) (answer : Answerer σ) : Run σ Unit := do
  let c ← Run.context
  finalizeAll F answer (c.heap.ids.filter c.isProxy)

end Collector

end ProxyEngine
