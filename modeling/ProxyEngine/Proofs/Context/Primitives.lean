import ProxyEngine.Proofs.Context.Steps

/-! What actions are made of. An action interns texts, stores new objects, touches a live
object up and sets other fields of the context; a single one replaces a prototype. A
preorder that these primitives respect is respected by every action, as far as it does not
intern, make or replace what the primitives may not. -/

namespace ProxyEngine

def Object.function? (x : Object) : Option (FunctionId × Atom × Bool) :=
  match x.kind with
  | .function code name isConstructor => some (code, name, isConstructor)
  | _ => none

/-- Changes of an object that leave alone what it is and what it inherits from. -/
inductive Object.Touch : (Object → Object) → Prop
  | properties (f : PropertyTable → PropertyTable) :
      Touch fun x => { x with properties := f x.properties }
  | extensible (b : Bool) : Touch fun x => { x with extensible := b }
  | fixPrototype : Touch fun x => { x with immutablePrototype := true }
  | proxy (f : ProxyState → ProxyState) : Touch (Object.mapProxy f)

namespace Object.Touch

variable {f : Object → Object}

theorem prototype (touch : Touch f) (x : Object) : (f x).prototype = x.prototype := by
  cases touch with
  | proxy g =>
    unfold Object.mapProxy
    split <;> rfl
  | _ => rfl

theorem function? (touch : Touch f) (x : Object) : (f x).function? = x.function? := by
  cases touch with
  | proxy g =>
    unfold Object.mapProxy
    split
    next s kind => simp [Object.function?, kind]
    next => rfl
  | _ => rfl

end Object.Touch

namespace Action

def makesFunction : Action → Bool
  | newFunction .. | newConstructor .. => true
  | _ => false

def texts : Action → List String
  | intern text | newString text => [text]
  | key name => [name]
  | keyToValue (.index i) => [toString i.toNat]
  | newSymbol description => description.toList
  | newFunction _ name => [name]
  | newConstructor _ name => [name, "prototype"]
  | report kind _ => ["name", kind.name]
  | _ => []

end Action

namespace Update

variable {R R' : Context → Context → Prop} {T : String → Prop} {N : Object → Prop} {α : Type}

theorem Relates.mono {u : Update α} (relates : Relates R u) (implies : ∀ c c', R c c' → R' c c') :
    Relates R' u :=
  fun _ _ _ ran => implies _ _ (relates ran)

/-- The primitives respect `R` when the texts are in `T` and the new objects in `N`. -/
structure Primitives (R : Context → Context → Prop) (T : String → Prop) (N : Object → Prop) :
    Prop where
  alloc : ∀ {x}, N x → Relates R (alloc x)
  intern : ∀ {s}, T s → Relates R (intern s)
  touch : ∀ (o) {f}, Object.Touch f → Relates R (modifyObject o f)
  rest : ∀ {f : Context → Context}, (∀ c, (f c).heap = c.heap) → (∀ c, (f c).atoms = c.atoms) →
    Relates R (modify f : Update Unit)

variable [Std.Refl R]

theorem relates_get : Relates R get := by
  rintro c _ _ ⟨⟩
  exact Std.Refl.refl c

variable [IsTrans Context R] (primitives : Primitives R T N)

include primitives

theorem relates_newString {s : String} (allowed : T s) : Relates R (newString s) :=
  (primitives.intern allowed).map _

theorem relates_key {name : String} (allowed : T name) : Relates R (key name) := by
  unfold key
  split
  · exact .pure _
  · exact (primitives.intern allowed).map _

theorem relates_newSymbol {description : Option String} (allowed : ∀ s ∈ description, T s) :
    Relates R (newSymbol description) := by
  have last (d : Option Atom) : Relates R (modifyGet fun c =>
      ((⟨.ofNat c.symbols.length⟩ : SymbolId), { c with symbols := c.symbols ++ [d] })) := by
    rintro c _ _ ⟨⟩
    exact primitives.rest (f := fun c => { c with symbols := c.symbols ++ [d] }) (fun _ => rfl)
      (fun _ => rfl) rfl
  cases description with
  | none => exact last none
  | some s => exact ((primitives.intern (allowed s rfl)).map some).bind last

theorem relates_defineStored (o : ObjectId) (k : PropertyKey) (d : Descriptor) :
    Relates R (defineStored o k d) := by
  refine relates_get.bind fun c => ?_
  split
  · exact .pure _
  · split
    · split
      next p _ =>
        exact (primitives.touch o (.properties (·.insert k p))).bind fun _ => .pure _
      next => exact .pure _
    · split
      · exact (primitives.touch o (.properties (·.insert k _))).bind fun _ => .pure _
      · exact .pure _

theorem relates_deleteStored (o : ObjectId) (k : PropertyKey) : Relates R (deleteStored o k) := by
  refine relates_get.bind fun c => ?_
  split
  · exact .pure _
  · split
    · exact (primitives.touch o (.properties (·.erase k))).bind fun _ => .pure _
    · exact .pure _

omit primitives in
theorem relates_storePrototype {o : ObjectId} {proto : Option ObjectId}
    (replace : Relates R (modifyObject o fun x => { x with prototype := proto })) :
    Relates R (storePrototype o proto) := by
  refine relates_get.bind fun c => ?_
  split
  · exact .pure _
  · split
    · exact .pure _
    · split
      · exact .pure _
      · exact replace.bind fun _ => .pure _

theorem relates_report {kind : ErrorKind} (title : T "name") (named : T kind.name)
    (message : String) (made : ∀ x : Object, x.function? = none → N x) :
    Relates R (report kind message) :=
  (primitives.alloc (made _ rfl)).bind fun e =>
    (relates_key primitives title).bind fun k =>
      (relates_newString primitives named).bind fun _ =>
        ((relates_defineStored primitives e k _).map _).bind fun _ =>
          primitives.rest (fun _ => rfl) fun _ => rfl

omit [Std.Refl R] in
theorem relates_newNative (code : FunctionId) {name : String} (isConstructor : Bool)
    (named : T name) (made : ∀ x, N x) : Relates R (newNative code name isConstructor) :=
  (primitives.intern named).bind fun _ => primitives.alloc (made _)

theorem relates_newConstructor (code : FunctionId) {name : String} (named : T name)
    (prototype : T "prototype") (made : ∀ x, N x) : Relates R (newConstructor code name) :=
  (relates_newNative primitives code true named made).bind fun f =>
    (primitives.alloc (made _)).bind fun _ =>
      (relates_key primitives prototype).bind fun k =>
        ((relates_defineStored primitives f k _).map _).bind fun _ => .pure f

theorem relates_removeRoot (o : ObjectId) : Relates R (removeRoot o) := by
  refine relates_get.bind fun c => ?_
  split
  · exact .pure _
  · exact (primitives.rest (fun _ => by rfl) fun _ => by rfl).bind fun _ => .pure _

end Update

theorem Action.relates {R : Context → Context → Prop} {T : String → Prop} {N : Object → Prop}
    [Std.Refl R] [IsTrans Context R] (primitives : Update.Primitives R T N) {a : Action}
    (interned : ∀ s ∈ a.texts, T s) (made : ∀ x : Object, x.function? = none → N x)
    (functions : a.makesFunction = true → ∀ x, N x)
    (replaced : ∀ o proto, a = storePrototype o proto →
      Update.Relates R (Update.modifyObject o fun x => { x with prototype := proto })) :
    a.update.Relates R := by
  cases a with
  | intern text => exact primitives.intern (interned text (.head _))
  | newString text => exact Update.relates_newString primitives (interned text (.head _))
  | key name => exact Update.relates_key primitives (interned name (.head _))
  | keyToValue k =>
    cases k with
    | index i => exact Update.relates_newString primitives (interned _ (.head _))
    | _ => exact .pure _
  | newSymbol description =>
    exact Update.relates_newSymbol primitives fun s told => interned s (Option.mem_toList.2 told)
  | newObject prototype => exact primitives.alloc (made _ rfl)
  | newFunction code name =>
    exact Update.relates_newNative primitives code false (interned name (.head _)) (functions rfl)
  | newConstructor code name =>
    exact Update.relates_newConstructor primitives code (interned name (.head _))
      (interned _ (.tail _ (.head _))) (functions rfl)
  | newBoxed v => exact primitives.alloc (made _ rfl)
  | newProxy handler v prototype options => exact primitives.alloc (made _ rfl)
  | defineStored o k d => exact Update.relates_defineStored primitives o k d
  | deleteStored o k => exact Update.relates_deleteStored primitives o k
  | storePrototype o proto => exact Update.relates_storePrototype (replaced o proto rfl)
  | storeExtensible o b => exact primitives.touch o (.extensible b)
  | fixPrototype o => exact primitives.touch o .fixPrototype
  | setPrivate o v =>
    exact Update.relates_get.bind fun _ => (primitives.touch o (.proxy _)).bind fun _ => .pure _
  | setReserved o slot v =>
    exact Update.relates_get.bind fun _ => (primitives.touch o (.proxy _)).bind fun _ => .pure _
  | report kind message =>
    exact Update.relates_report primitives (interned _ (.head _))
      (interned _ (.tail _ (.head _))) message made
  | removeRoot o => exact Update.relates_removeRoot primitives o
  | setPending | clearPending | addRoot | setJobQueue | setPrincipals =>
    exact primitives.rest (fun _ => rfl) fun _ => rfl

end ProxyEngine
