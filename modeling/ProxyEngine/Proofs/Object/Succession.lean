import ProxyEngine.Proofs.Context.Primitives
import ProxyEngine.Proofs.Engine.Invariant
import ProxyEngine.Proofs.Object.Definition
import ProxyEngine.Proofs.Object.KeyOrder

/-! Listings in the course of a run. No action creates more than one key on one object, and a
collection creates none. Whatever a run does, each listing therefore follows from the one
before, and the order of the last one tells when its keys were created: a key is as old as
the part of the run throughout which it has been there. -/

namespace ProxyEngine

open PropertyKey

variable {σ α : Type}

namespace Context

def Steady (c c' : Context) : Prop :=
  c.heap.Valid → c'.heap.Valid ∧ ∀ o, c'.keyOrder o = c.keyOrder o

/-- From the first context to the second no object has gained more than one key. -/
def Moves (c c' : Context) : Prop :=
  ∀ o, Moved (c.keyOrder o) (c'.keyOrder o)

def Moving (c c' : Context) : Prop :=
  c.heap.Valid → c'.heap.Valid ∧ c.Moves c'

def tenure (cs : List Context) (o : ObjectId) (k : PropertyKey) : Nat :=
  (cs.reverse.takeWhile fun c => (c.ownProperty? o k).isSome).length

/-- In the course of the contexts the first key was created before the second one, or both
were there from the beginning and are in the order in which they were listed then. -/
def Older (cs : List Context) (o : ObjectId) (j k : PropertyKey) : Prop :=
  tenure cs o k < tenure cs o j ∨
    tenure cs o j = cs.length ∧ tenure cs o k = cs.length ∧
      ∃ first ∈ cs.head?, [j, k].Sublist (first.ownKeys o)

instance : Std.Refl Steady := ⟨fun _ valid => ⟨valid, fun _ => rfl⟩⟩

instance : IsTrans Context Steady :=
  ⟨fun _ _ _ first second valid =>
    have ⟨valid, same⟩ := first valid
    ⟨(second valid).1, fun o => ((second valid).2 o).trans (same o)⟩⟩

variable {c c' c'' : Context} {o : ObjectId} {k : PropertyKey} {p : Property}

/-! Changes that are steady, and changes that are not. -/

theorem Steady.moving (steady : c.Steady c') : c.Moving c' := fun valid =>
  ⟨(steady valid).1, fun o => (steady valid).2 o ▸ .refl _⟩

theorem Steady.trans_moving (steady : c.Steady c') (moving : c'.Moving c'') : c.Moving c'' :=
  fun valid =>
    have ⟨valid, same⟩ := steady valid
    ⟨(moving valid).1, fun o => same o ▸ (moving valid).2 o⟩

theorem Moving.trans_steady (moving : c.Moving c') (steady : c'.Steady c'') : c.Moving c'' :=
  fun valid =>
    have ⟨valid, moved⟩ := moving valid
    ⟨(steady valid).1, fun o => (steady valid).2 o ▸ moved o⟩

theorem steady_of_heap (same : c'.heap = c.heap) : c.Steady c' := fun valid =>
  ⟨same ▸ valid, fun _ => keyOrder_congr (by rw [get?, get?, same])⟩

theorem Stores.moves (stores : c.Stores o k p c') : c.Moves c' := by
  intro q
  by_cases here : q = o
  · subst here
    obtain ⟨x, t, found, changed, -, keys⟩ := stores.object
    rw [keyOrder_of_found found, keyOrder_of_found changed, keys]
    split
    next => exact .refl _
    next unknown =>
      have fresh : k ∉ x.properties.keys := fun known =>
        unknown ((x.properties.contains_iff k).2 known)
      simpa using Moved.come (fun _ => true) fresh
  · exact keyOrder_congr (stores.others q here) ▸ .refl _

end Context

/-! Actions. -/

namespace Update

open Context

variable {β : Type}

theorem steady_alloc {x : Object} (bare : x.properties.keys = []) :
    Relates Steady (alloc x) := by
  intro c o c' ran valid
  obtain ⟨⟨o, heap⟩, stored, ⟨⟩⟩ := Option.map_eq_some_iff.1 ran
  refine ⟨valid.alloc stored, fun q => ?_⟩
  rw [keyOrder, get?, valid.get?_alloc stored]
  split
  next same =>
    have dead : c.get? q = none := by
      rw [get?, same, valid.alloc_fresh stored]
    simp [keyOrder, dead, bare]
  next => rfl

theorem steady_modifyObject (o : ObjectId) {f : Object → Object}
    (same : ∀ x, (f x).properties = x.properties) : Relates Steady (modifyObject o f) := by
  rintro c _ _ ⟨⟩ valid
  have keys (x : Object) : (f x).properties.keys = id x.properties.keys := by rw [same, id]
  refine ⟨valid.modify o f, fun q => (keyOrder_modify keys rfl c o q).trans ?_⟩
  exact ite_self _

theorem steady_mapProxy (o : ObjectId) (f : ProxyState → ProxyState) :
    Relates Steady (modifyObject o (Object.mapProxy f)) :=
  steady_modifyObject o fun x => by
    unfold Object.mapProxy
    split <;> rfl

theorem steady_key (name : String) : Relates Steady (key name) := by
  intro c k c' ran
  obtain ⟨atoms, rfl⟩ := key_eq_some ran
  exact steady_of_heap rfl

theorem steady_newString (text : String) : Relates Steady (newString text) := by
  rintro c _ _ ⟨⟩
  exact steady_of_heap rfl

theorem steady_newNative (code : FunctionId) (name : String) (isConstructor : Bool) :
    Relates Steady (newNative code name isConstructor) := by
  refine Relates.bind (R := Steady) (u := intern name) ?_ fun a => steady_alloc rfl
  rintro c _ _ ⟨⟩
  exact steady_of_heap rfl

theorem moving_defineStored (o : ObjectId) (k : PropertyKey) (d : Descriptor) :
    Relates Moving (defineStored o k d) := by
  intro c out c' ran valid
  refine ⟨((Action.edits (.defineStored o k d) ran).reaches.ages valid).heap.valid, fun q => ?_⟩
  cases found : c.get? o with
  | none =>
    rw [defineStored, get_bind, found] at ran
    cases ran
    exact .refl _
  | some x =>
    obtain ⟨out', c₁, stored, defines⟩ := defineStored_defines found k d
    obtain ⟨rfl, rfl⟩ := Prod.mk.inj (Option.some.inj (ran.symm.trans stored))
    cases defines with
    | create _ _ _ stores | merge _ _ _ stores => exact stores.moves q
    | late | clash => exact .refl _

theorem moving_deleteStored (o : ObjectId) (k : PropertyKey) :
    Relates Moving (deleteStored o k) := by
  intro c out c' ran valid
  refine ⟨((Action.edits (.deleteStored o k) ran).reaches.ages valid).heap.valid, fun q => ?_⟩
  rw [deleteStored, get_bind] at ran
  cases own : c.ownProperty? o k with
  | none =>
    rw [own] at ran
    cases ran
    exact .refl _
  | some p =>
    rw [own] at ran
    dsimp only at ran
    split at ran
    · cases ran
      rw [keyOrder_modify (fun x => x.properties.keys_erase k) rfl]
      split
      · exact .gone _
      · exact .refl _
    · cases ran
      exact .refl _

theorem moving_after {u : Update α} {f : α → Update β} (first : Relates Steady u)
    (rest : ∀ a, Relates Moving (f a)) : Relates Moving (u >>= f) := by
  intro c b c' ran
  obtain ⟨a, c₁, start, ran⟩ := bind_eq_some.1 ran
  exact (first start).trans_moving (rest a ran)

theorem moving_then {u : Update α} {f : α → Update β} (first : Relates Moving u)
    (rest : ∀ a, Relates Steady (f a)) : Relates Moving (u >>= f) := by
  intro c b c' ran
  obtain ⟨a, c₁, start, ran⟩ := bind_eq_some.1 ran
  exact (first start).trans_steady (rest a ran)

theorem moving_map {u : Update α} (moving : Relates Moving u) (f : α → β) :
    Relates Moving (f <$> u) := by
  rw [map_eq_pure_bind]
  exact moving_then moving fun _ => .pure _

end Update

namespace Action

def relists : Action → Bool
  | defineStored .. | deleteStored .. | newConstructor .. | report .. => true
  | _ => false

theorem steady {a : Action} (other : a.relists = false) : a.update.Relates Context.Steady := by
  cases a with
  | defineStored | deleteStored | newConstructor | report => cases other
  | key name => exact Update.steady_key name
  | keyToValue k =>
    cases k with
    | index i => exact Update.steady_newString _
    | _ => exact .pure _
  | newSymbol description =>
    cases description <;>
    · rintro c _ _ ⟨⟩
      exact Context.steady_of_heap rfl
  | newFunction code name => exact Update.steady_newNative code name false
  | newObject | newBoxed | newProxy => exact Update.steady_alloc rfl
  | storePrototype o proto =>
    exact Update.relates_storePrototype (Update.steady_modifyObject o fun _ => rfl)
  | storeExtensible o | fixPrototype o => exact Update.steady_modifyObject o fun _ => rfl
  | setPrivate o | setReserved o =>
    exact Update.relates_get.bind fun _ => (Update.steady_mapProxy o _).bind fun _ => .pure _
  | removeRoot o =>
    refine Update.relates_get.bind fun c => ?_
    split
    · exact .pure _
    · rintro c _ _ ⟨⟩
      exact Context.steady_of_heap rfl
  | intern | newString | setPending | clearPending | addRoot | setJobQueue | setPrincipals =>
    rintro c _ _ ⟨⟩
    exact Context.steady_of_heap rfl

theorem moving (a : Action) : a.update.Relates Context.Moving := by
  cases relists : a.relists with
  | false => exact Update.Relates.mono (steady relists) fun _ _ => Context.Steady.moving
  | true =>
    cases a with
    | defineStored o k d => exact Update.moving_defineStored o k d
    | deleteStored o k => exact Update.moving_deleteStored o k
    | newConstructor code name =>
      exact Update.moving_after (Update.steady_newNative code name true) fun f =>
        Update.moving_after (Update.steady_alloc rfl) fun proto =>
          Update.moving_after (Update.steady_key _) fun k =>
            Update.moving_then (Update.moving_map (Update.moving_defineStored f k _) _) fun _ =>
              .pure f
    | report kind message =>
      exact Update.moving_after (Update.steady_alloc rfl) fun e =>
        Update.moving_after (Update.steady_key _) fun k =>
          Update.moving_after (Update.steady_newString _) fun name =>
            Update.moving_then (Update.moving_map (Update.moving_defineStored e k _) _) fun _ => by
              rintro c _ _ ⟨⟩
              exact Context.steady_of_heap rfl
    | _ => cases relists

end Action

/-! Runs. -/

def History.contexts (t : History) : List Context :=
  t.map fun μ => μ.context

@[simp] theorem History.contexts_flat (t : History) : t.flat.contexts = t.contexts := by
  simp [contexts, flat]

@[simp] theorem History.contexts_then (past : History) (c : Context) (e : Event) :
    (past.then c e).contexts = past.contexts ++ [c] := by
  simp [contexts, History.then]

namespace Context

variable {cs : List Context} {c c' : Context} {o : ObjectId}

theorem chain_append {R : Context → Context → Prop} (cs : List Context)
    (chain : (cs ++ [c]).IsChain R) (step : R c c') : (cs ++ [c] ++ [c']).IsChain R :=
  chain.append (.singleton c') (by simpa using step)

theorem chain_replace {R : Context → Context → Prop} (cs : List Context)
    (chain : (cs ++ [c]).IsChain R) (implies : ∀ b, R b c → R b c') :
    (cs ++ [c']).IsChain R := by
  obtain ⟨before, -, last⟩ := List.isChain_append.1 chain
  exact before.append (.singleton c') fun b here => by
    simpa using implies b (last b here c rfl)

theorem moves_swept {b : Context} (moves : b.Moves c) (dead : List ObjectId) (marked n : Nat) :
    b.Moves ((c.releaseAll dead).2.recordCollection marked n) := by
  intro o
  have found : ((c.releaseAll dead).2.recordCollection marked n).get? o =
      if o ∈ dead then none else c.get? o := releaseAll_get? c dead o
  by_cases doomed : o ∈ dead
  · rw [if_pos doomed] at found
    have none : ((c.releaseAll dead).2.recordCollection marked n).keyOrder o =
        (c.keyOrder o).filter fun _ => false := by
      simp [keyOrder, found]
    exact none ▸ (moves o).filter _
  · rw [if_neg doomed] at found
    exact keyOrder_congr found ▸ moves o

theorem tenure_eq (cs : List Context) (o : ObjectId) (k : PropertyKey) :
    PropertyKey.tenure (cs.reverse.map (·.keyOrder o)) k = tenure cs o k := by
  rw [PropertyKey.tenure, List.takeWhile_map, List.length_map, tenure]
  congr 2
  funext c
  exact contains_keyOrder c o k

theorem older_of_pair {j k : PropertyKey} (chain : (cs ++ [c]).IsChain Moves) (peers : Peers j k)
    (pair : [j, k].Sublist (c.keyOrder o)) : Older (cs ++ [c]) o j k := by
  have reversed : (cs ++ [c]).reverse.map (·.keyOrder o) =
      c.keyOrder o :: cs.reverse.map (·.keyOrder o) := by simp
  have back : ((cs ++ [c]).reverse.map (·.keyOrder o)).IsChain
      fun later earlier => Moved earlier later :=
    List.isChain_map_of_isChain _ (fun _ _ moves => moves o) (List.isChain_reverse.2 chain)
  rw [reversed] at back
  have elder := elder_of_pair back (by simp [keyOrder_nodup]) pair
  rw [← reversed, Elder, tenure_eq, tenure_eq] at elder
  rcases elder with longer | ⟨full, full', first, last, pair⟩
  · exact .inl longer
  · rw [List.length_map, List.length_reverse] at full full'
    rw [List.getLast?_map, List.getLast?_reverse] at last
    obtain ⟨c₀, head, rfl⟩ := Option.map_eq_some_iff.1 (Option.mem_def.1 last)
    refine .inr ⟨full, full', c₀, head, ?_⟩
    rw [ownKeys_eq]
    refine (pair_arrange (keyOrder_nodup c₀ o)).2 ⟨?_, ?_, .of_peers peers pair⟩
    · exact mem_arrange.2 ⟨pair.subset (.head _), peers.ne_void.1⟩
    · exact mem_arrange.2 ⟨pair.subset (.tail _ (.head _)), peers.ne_void.2⟩

end Context

namespace Engine

open Context

def Unfolds (c₀ : Context) : Condition := fun past c =>
  c.heap.Valid ∧ (c₀ :: past.contexts ++ [c]).IsChain Moves

variable {F : Foreign σ} {m m' : Machine σ} {o : ObjectId} {x : Object}

theorem Unfolds.moment {c₀ c : Context} {past : History} (unfolds : Unfolds c₀ past c)
    (e : Event) : Unfolds c₀ (past.then c e) c := by
  refine ⟨unfolds.1, ?_⟩
  rw [History.contexts_then]
  exact chain_append (c₀ :: past.contexts) unfolds.2 fun _ => .refl _

theorem upholds_unfolds (F : Foreign σ) (c₀ : Context) :
    Upholds F (Unfolds c₀) fun _ => True where
  told _ _ _ := trivial
  asked _ _ _ := trivial
  moment _ _ _ unfolds := unfolds.moment _
  act past c ran unfolds := by
    obtain ⟨valid, moves⟩ := Action.moving _ ran unfolds.1
    refine ⟨valid, ?_⟩
    rw [History.contexts_then]
    exact chain_append (c₀ :: past.contexts) unfolds.2 moves
  depth past c d _ unfolds :=
    ⟨unfolds.1, chain_replace (c₀ :: past.contexts) unfolds.2 fun _ => id⟩
  collect m finalizers := by
    refine keeps_collect (fun _ _ _ => trivial) (fun _ _ unfolds => unfolds.moment _)
      (fun state past c marked _ _ unfolds => ?_) finalizers m
    -- No moment lies between the last finalizer and the sweep, which only takes keys away.
    exact ⟨(releaseAll_ages unfolds.1 _).reset.valid,
      chain_replace (c₀ :: past.contexts) unfolds.2 fun _ moves => moves_swept moves _ _ _⟩

/-- In the course of the contexts `cs` the listing of `o` has kept its order, up to the machine
`m`: what is listed, in which order, and what one context does to the listing. -/
structure Succeeds (F : Foreign σ) (cs : List Context) (o : ObjectId) (m : Machine σ) : Prop where
  keys : ∀ fuel listed, issue F (fuel + 1) (.ownKeys o listed) m =
    .ok (({ keys := listed ++ m.context.ownKeys o } : Listing), m)
  enumerable : ∀ fuel listed, issue F (fuel + 1) (.ownEnumerableKeys o listed) m =
    .ok (({ keys := listed ++ (m.context.ownKeys o).filter fun k =>
      (m.context.ownProperty? o k).any (·.attributes.enumerable) } : Listing), m)
  nodup : (m.context.ownKeys o).Nodup
  complete : ∀ k, k ∈ m.context.ownKeys o ↔ (m.context.ownProperty? o k).isSome ∧ k ≠ .void
  sorted : (m.context.ownKeys o).Pairwise (Precedes (Older cs o))
  follows : cs.IsChain fun c c' => Follows (c.ownKeys o) (c'.ownKeys o)

theorem run_moves (F : Foreign σ) {fuel : Nat} {p : Program σ α} {a : α}
    (valid : m.context.heap.Valid) (ran : run F fuel p m = .ok (a, m')) :
    (m.context :: (runHistory F fuel p m).contexts ++ [m'.context]).IsChain Moves := by
  have kept := (upholds_unfolds F m.context).run fuel p m [] ⟨valid, ?_⟩
  · simpa using (kept.ended a m' ran).2
  · exact .cons_cons (fun _ => .refl _) (.singleton _)

/-- Whatever a run does, the keys of an object are listed in the order in which they were
created, the indices first and by number. -/
theorem run_succeeds (F : Foreign σ) {fuel : Nat} {p : Program σ α} {a : α}
    (reachable : m.context.Reachable) (ran : run F fuel p m = .ok (a, m'))
    (found : m'.context.get? o = some x) (other : x.proxy? = none) :
    Succeeds F (m.context :: (runHistory F fuel p m).contexts ++ [m'.context]) o m' where
  keys fuel _ := issue_ordinary fuel rfl found other
  enumerable fuel _ := issue_ordinary fuel rfl found other
  nodup := ownKeys_nodup m'.context o
  complete _ := mem_ownKeys
  sorted := by
    have chain := run_moves F reachable.valid ran
    rw [ownKeys_eq]
    exact (pairwise_arrange (keyOrder_nodup _ o)).imp fun precedes =>
      precedes.mono (older_of_pair chain)
  follows := (run_moves F reachable.valid ran).imp fun c c' moves => by
    rw [ownKeys_eq, ownKeys_eq]
    exact (moves o).follows (keyOrder_nodup c o) (keyOrder_nodup c' o)

def recreating : Program Unit ObjectId := do
  let o ← Program.newObject none
  discard <| Program.perform (.defineProperty o (.symbol ⟨0⟩) (.ofData .null))
  discard <| Program.perform (.defineProperty o (.symbol ⟨1⟩) (.ofData .null))
  discard <| Program.perform (.set o (.index 7) .null (.object o))
  discard <| Program.perform (.set o (.symbol ⟨0⟩) .undefined (.object o))
  discard <| Program.perform (.delete o (.symbol ⟨0⟩))
  discard <| Program.perform (.defineProperty o (.symbol ⟨0⟩) (.ofData .null))
  return o

theorem recreating_succeeds : ∃ o m,
    run Foreign.idle 6 recreating ⟨Context.create {}, ()⟩ = .ok (o, m) ∧
    m.context.ownKeys o = [.index 7, .symbol ⟨1⟩, .symbol ⟨0⟩] ∧
    Succeeds Foreign.idle (Context.create {} ::
      (runHistory Foreign.idle 6 recreating ⟨Context.create {}, ()⟩).contexts ++ [m.context])
      o m := by
  have computed : ((run Foreign.idle 6 recreating ⟨Context.create {}, ()⟩).toOption.map
      fun (o, m) => (m.context.keyOrder o, (m.context.get? o).map Object.isProxy)) =
      some ([.symbol ⟨1⟩, .index 7, .symbol ⟨0⟩], some false) := by decide +kernel
  cases ran : run Foreign.idle 6 recreating ⟨Context.create {}, ()⟩ with
  | error why =>
    rw [ran] at computed
    cases computed
  | ok result =>
    obtain ⟨o, m⟩ := result
    rw [ran] at computed
    obtain ⟨order, kind⟩ := Prod.mk.inj (Option.some.inj computed)
    obtain ⟨x, found, other⟩ := Option.map_eq_some_iff.1 kind
    have other : x.proxy? = none := by simpa [Object.isProxy_eq] using other
    have fresh : (Context.create {}).Reachable := ⟨{}, .refl⟩
    refine ⟨o, m, rfl, ?_, run_succeeds (m := ⟨_, ()⟩) Foreign.idle fresh ran found other⟩
    have single : arrange [.symbol ⟨1⟩, .index 7, .symbol ⟨0⟩] =
        (List.mergeSort [7] (· ≤ ·)).map index ++ [] ++ [.symbol ⟨1⟩, .symbol ⟨0⟩] := rfl
    rw [ownKeys_eq, order, single, List.mergeSort_singleton]
    rfl

end Engine

end ProxyEngine
