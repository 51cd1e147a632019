import ProxyEngine.Proofs.Behaviour.Propagation
import ProxyEngine.Proofs.Engine.Dispatch

/-! The history of a run: every request that is made, every body that starts, and
when each of them ends, with the context as it is at that moment. A history is
read off the run itself. It tells what happened before the run ended or was
stopped, so it exists for runs that never end, too. -/

namespace ProxyEngine

inductive Body where
  | method {s : Shape} (handler : Handler) (op : Op s)
  | function (code : FunctionId) (this : Value) (args : List Value)
  | finalizer (handler : Handler) (o : ObjectId)

def Body.isForeign : Body → Bool
  | method handler op => (handler.trapped? op.slot).isSome
  | function .. => true
  | finalizer handler _ => (handler.trapped? .finalize).isSome

inductive Event where
  | asked (r : Request)
  | answered (r : Request)
  | started (b : Body)
  | ended (b : Body) (failed : Bool)

/-- A context, with the number of bodies that were entered through dispatch on the way
to it and are still running. -/
structure Place where
  context : Context
  level : Nat := 0

def Place.below (p : Place) : Place :=
  { p with level := p.level + 1 }

structure Moment extends Place where
  event : Event

namespace Moment

/-- No trap and no host function starts here. -/
def quiet (μ : Moment) : Bool :=
  match μ.event with
  | .started b => !b.isForeign
  | _ => true

/-- If a trap or a host function fails here, it has left an exception pending. -/
def candid (μ : Moment) : Bool :=
  match μ.event with
  | .ended b true => !b.isForeign || μ.context.pending.isSome
  | _ => true

end Moment

abbrev History := List Moment

namespace History

/-- The history as seen from one dispatch level further up. -/
def below (t : History) : History :=
  t.map fun μ => { μ with toPlace := μ.toPlace.below }

def places (t : History) : List Place :=
  t.map Moment.toPlace

def Quiet (t : History) : Prop :=
  ∀ μ ∈ t, μ.quiet = true

def Candid (t : History) : Prop :=
  ∀ μ ∈ t, μ.candid = true

theorem mem_below {t : History} {μ : Moment} :
    μ ∈ t.below ↔ ∃ ν ∈ t, { ν with toPlace := ν.toPlace.below } = μ :=
  List.mem_map

@[simp] theorem places_nil : places [] = [] := rfl

@[simp] theorem places_cons (μ : Moment) (t : History) :
    places (μ :: t) = μ.toPlace :: places t := rfl

@[simp] theorem places_append (t t' : History) : places (t ++ t') = places t ++ places t' :=
  List.map_append

@[simp] theorem places_below (t : History) : t.below.places = t.places.map Place.below := by
  simp [places, below, Function.comp_def]

@[simp] theorem quiet_cons {μ : Moment} {t : History} :
    Quiet (μ :: t) ↔ μ.quiet = true ∧ Quiet t :=
  List.forall_mem_cons

@[simp] theorem quiet_append {t t' : History} : Quiet (t ++ t') ↔ Quiet t ∧ Quiet t' :=
  List.forall_mem_append

@[simp] theorem quiet_below {t : History} : Quiet t.below ↔ Quiet t :=
  List.forall_mem_map

@[simp] theorem candid_cons {μ : Moment} {t : History} :
    Candid (μ :: t) ↔ μ.candid = true ∧ Candid t :=
  List.forall_mem_cons

@[simp] theorem candid_append {t t' : History} : Candid (t ++ t') ↔ Candid t ∧ Candid t' :=
  List.forall_mem_append

@[simp] theorem candid_below {t : History} : Candid t.below ↔ Candid t :=
  List.forall_mem_map

end History

variable {σ α : Type}

def Machine.place (m : Machine σ) : Place :=
  { context := m.context }

def Machine.moment (m : Machine σ) (event : Event) : Moment :=
  { context := m.context, event }

/-- The history of a run that goes on with `rest` if it ends. -/
def History.andThen (t : History) (ran : Except Stop (α × Machine σ))
    (rest : α → Machine σ → History) : History :=
  t ++ match ran with
    | .ok (a, m) => rest a m
    | .error _ => []

@[simp] theorem Machine.toPlace_moment (m : Machine σ) (event : Event) :
    (m.moment event).toPlace = m.place := rfl

@[simp] theorem History.andThen_ok (t : History) (a : α) (m : Machine σ)
    (rest : α → Machine σ → History) : t.andThen (.ok (a, m)) rest = t ++ rest a m := rfl

@[simp] theorem History.andThen_error (t : History) (why : Stop)
    (rest : α → Machine σ → History) : t.andThen (.error why) rest = t :=
  List.append_nil t

def History.around (first : Event) (last : α → Event) (x : Run σ α)
    (inner : Machine σ → History) (m : Machine σ) : History :=
  m.moment first :: andThen (inner m) (x m) fun a m' => [m'.moment (last a)]

theorem History.quiet_of_around {first : Event} {last : α → Event} {x : Run σ α}
    {inner : Machine σ → History} {m : Machine σ} (quiet : (around first last x inner m).Quiet) :
    (inner m).Quiet :=
  (quiet_append.1 (quiet_cons.1 quiet).2).1

def Program.history (answer : Answerer σ) (asked : Request → Machine σ → History) :
    Program σ α → Machine σ → History
  | done _, _ => []
  | look next, m => (next m.context m.state).history answer asked m
  | store s next, m => next.history answer asked { m with state := s }
  | ask r next, m => .andThen (asked r m) (answer r m) fun x m' => (next x).history answer asked m'

namespace Engine

section

variable (F : Foreign σ) (answer : Answerer σ) (asked : Request → Machine σ → History)

def bodyHistory (b : Body) (fails : α → Bool) (p : Program σ α) : Machine σ → History :=
  .around (.started b) (fun a => .ended b (fails a)) (p.run answer) (p.history answer asked)

theorem not_quiet_bodyHistory {answer : Answerer σ} {asked : Request → Machine σ → History}
    {b : Body} (foreign : b.isForeign = true) {fails : α → Bool} {p : Program σ α}
    {m : Machine σ} : ¬ (bodyHistory answer asked b fails p m).Quiet := by
  intro quiet
  have builtin : (!b.isForeign) = true := (History.quiet_cons.1 quiet).1
  rw [foreign] at builtin
  cases builtin

def depthHistory (s : Shape) (b : Body) (p : Program σ s.Answer) (m : Machine σ) : History :=
  if m.context.depth < m.context.maxDepth then
    (bodyHistory answer asked b s.isFailure p (m.deeper 1)).below
  else
    (Program.giveUp s .internalError "too much recursion").history answer asked m

def dispatchHistory {s : Shape} (op : Op s) (m : Machine σ) : History :=
  match m.context.get? op.subject with
  | none => (Program.giveUp s .internalError "can't access dead object").history answer asked m
  | some x =>
    match x.proxy? with
    | some p =>
      depthHistory answer asked s (.method p.handler op) (F.method p.handler op) m
    | none => (Ordinary.method op).history answer asked m

def performHistory {s : Shape} (op : Op s) (m : Machine σ) : History :=
  .andThen ((incapable? op).history answer asked m) ((incapable? op).run answer m) fun early m' =>
    match early with
    | some _ => []
    | none => dispatchHistory F answer asked op.normalized m'

theorem performHistory_unasked {s : Shape} {op : Op s} (unasked : op.query? = none)
    (m : Machine σ) : performHistory F answer asked op m = dispatchHistory F answer asked op m := by
  unfold performHistory
  rw [incapable?_unasked unasked, Op.normalized_of_unasked unasked]
  rfl

def finalizeHistory : List ObjectId → Machine σ → History
  | [], _ => []
  | o :: rest, m =>
    match m.context.handler? o with
    | some h =>
      .andThen (bodyHistory answer asked (.finalizer h o) (fun _ => false) (F.finalizer h o) m)
        ((F.finalizer h o).run answer m) fun _ m' => finalizeHistory rest m'
    | none => finalizeHistory rest m

/-- Trace traps leave no moments: they cannot see the context. -/
def collectHistory (m : Machine σ) : History :=
  let heap := m.context.heap
  let marking := Collector.mark F heap heap.live m.context.markRoots { state := m.state }
  finalizeHistory F answer asked (heap.ids.filter fun o => !marking.marked.contains o)
    { m with state := marking.state }

def stepHistory : Request → Machine σ → History
  | .act _, _ => []
  | .perform op, m => performHistory F answer asked op m
  | .invoke (s := s) h op, m =>
    bodyHistory answer asked (.method h op) s.isFailure (F.method h op) m
  | .runFunction code this args, m =>
    depthHistory answer asked .value (.function code this args) (F.function code this args) m
  | .enumerateFrom o visited seen listed, m =>
    (Ordinary.enumerateFrom o visited seen listed).history answer asked m
  | .collect, m => collectHistory F answer asked m
  | .incumbentGlobal q, m => (incumbentGlobal F q).history answer asked m
  | .enqueueJob q promise job site incumbent, m =>
    (enqueueJob F q promise job site incumbent).run.history answer asked m
  | .writePrincipals p, m => (writePrincipals F p).history answer asked m
  | .hasPendingJobs, _ => []
  | .isSystemPrincipal, _ => []

end

/-- What happens from when a request is made until it is answered. -/
def history (F : Foreign σ) : (fuel : Nat) → Request → Machine σ → History
  | 0, r => .around (.asked r) (fun _ => .answered r) (answer F 0 r) fun _ => []
  | fuel + 1, r =>
    .around (.asked r) (fun _ => .answered r) (answer F (fuel + 1) r)
      (stepHistory F (answer F fuel) (history F fuel) r)

def runHistory (F : Foreign σ) (fuel : Nat) (p : Program σ α) : Machine σ → History :=
  p.history (answer F fuel) (history F fuel)

end Engine

end ProxyEngine
