import ClassMachine.Proofs.Registration

/-!
# Instances

An instance is made for a new-target, by `ClassMachine.allocate` and by nothing else. From
then on it is an instance of this class, whatever happens, and it is linked to the prototype
of the class until a client redirects the link. A construction hands out its object at last,
which is noted; since the object is made during the construction, no object is handed out
by two of them.

* `ClassMachine.Machine.Accounted` is what holds of all instances of a machine;
* `ClassMachine.Machine.Advances` is what the machine may do to them as time goes by;
* `ClassMachine.Machine.Gains` says of an object that it was made meanwhile and that no
  construction has handed it out.
-/

namespace ClassMachine

variable {α : Type}

/-! ### What is known of instances -/

/-- The object that a construction hands out, if the event is that. -/
def Event.constructed? : Event → Option ObjectId
  | constructed _ o => some o
  | _ => none

/-- The objects that constructions have handed out, the newest one in front. -/
def constructedOf (T : List Event) : List ObjectId :=
  T.filterMap Event.constructed?

theorem constructedOf_append (T T' : List Event) :
    constructedOf (T ++ T') = constructedOf T ++ constructedOf T' :=
  List.filterMap_append ..

/-- The object is an instance of the new-target. It is linked to the prototype of this class,
unless the link was redirected since. -/
def Machine.IsInstance (m : Machine) (o : ObjectId) (newTarget : ClassId) (since : List Event) :
    Prop :=
  o < m.store.size ∧ (m.store.object o).kind = .instance newTarget ∧
    ∃ c, .registered c ∈ m.trace ∧ c.id = newTarget ∧
      ((m.store.object o).prototype = some c.prototype ∨ .relinked o ∈ since)

/-- What holds of instances at every moment. -/
structure Machine.Accounted (m : Machine) : Prop where
  instances : ∀ since o newTarget before, m.trace = since ++ .allocated o newTarget :: before →
    m.IsInstance o newTarget since
  /-- No object was handed out twice. -/
  once : (constructedOf m.trace).Nodup
  constructed : ∀ o ∈ constructedOf m.trace, o < m.store.size
  /-- What a construction has handed out was made for its class. -/
  handedOut : ∀ cls o, .constructed cls o ∈ m.trace → .allocated o cls ∈ m.trace
  bound : ∀ f ∈ m.frames, ∀ o ∈ f.this, o < m.store.size

/-- What may have become of instances: none went away, and none that was there already has
been handed out meanwhile. -/
structure Machine.Advances (m m' : Machine) : Prop where
  size : m.store.size ≤ m'.store.size
  trace : ∃ new, m'.trace = new ++ m.trace
  old : ∀ o ∈ constructedOf m'.trace, o < m.store.size → o ∈ constructedOf m.trace

/-- The object is an instance of the new-target that was made meanwhile and not handed out. -/
structure Machine.Gains (m : Machine) (newTarget : ClassId) (o : ObjectId) (m' : Machine) :
    Prop where
  new : m.store.size ≤ o
  born : o < m'.store.size
  allocated : .allocated o newTarget ∈ m'.trace
  unfinished : o ∉ constructedOf m'.trace

namespace Machine

variable {m m' m'' : Machine} {newTarget : ClassId} {o : ObjectId}

theorem Accounted.isInstance (hm : m.Accounted) (ho : .allocated o newTarget ∈ m.trace) :
    ∃ since before, m.trace = since ++ .allocated o newTarget :: before ∧
      m.IsInstance o newTarget since := by
  obtain ⟨since, before, h⟩ := List.append_of_mem ho
  exact ⟨since, before, h, hm.instances since o newTarget before h⟩

/-- Other frames that hold objects are as good. -/
theorem Accounted.with_frames (hm : m.Accounted) {fs : List Frame}
    (hfs : ∀ f ∈ fs, ∀ o ∈ f.this, o < m.store.size) : Accounted { m with frames := fs } :=
  ⟨hm.instances, hm.once, hm.constructed, hm.handedOut, hfs⟩

theorem Advances.of_eq (htrace : m'.trace = m.trace) (hstore : m'.store = m.store) :
    m.Advances m' :=
  ⟨Nat.le_of_eq (by rw [hstore]), ⟨[], htrace⟩, fun _ ho _ => htrace ▸ ho⟩

theorem Advances.refl (m : Machine) : m.Advances m :=
  .of_eq rfl rfl

theorem Advances.trans (h : m.Advances m') (h' : m'.Advances m'') : m.Advances m'' where
  size := Nat.le_trans h.size h'.size
  trace := by
    obtain ⟨new, hnew⟩ := h.trace
    obtain ⟨new', hnew'⟩ := h'.trace
    exact ⟨new' ++ new, by rw [hnew', hnew, List.append_assoc]⟩
  old o ho hsize := h.old o (h'.old o ho (Nat.lt_of_lt_of_le hsize h.size)) hsize

theorem Advances.mem_trace (h : m.Advances m') {e : Event} (he : e ∈ m.trace) : e ∈ m'.trace := by
  obtain ⟨new, hnew⟩ := h.trace
  exact hnew ▸ List.mem_append_right new he

/-- What was made stays so. -/
theorem Gains.later (h : m.Gains newTarget o m') (h' : m'.Advances m'') :
    m.Gains newTarget o m'' :=
  ⟨h.new, Nat.lt_of_lt_of_le h.born h'.size, h'.mem_trace h.allocated,
    fun ho => h.unfinished (h'.old o ho h.born)⟩

/-- What is new to a later machine is new to an earlier one. -/
theorem Gains.earlier (h : m.Advances m') (h' : m'.Gains newTarget o m'') :
    m.Gains newTarget o m'' :=
  ⟨Nat.le_trans h.size h'.new, h'.born, h'.allocated, h'.unfinished⟩

/-- An instance stays one. -/
theorem IsInstance.later {since since' : List Event} (h : m.IsInstance o newTarget since)
    (hsize : m.store.size ≤ m'.store.size) (htrace : m.trace ⊆ m'.trace) (hsince : since ⊆ since')
    (hobject : (m'.store.object o).kind = (m.store.object o).kind ∧
      ((m'.store.object o).prototype = (m.store.object o).prototype ∨ .relinked o ∈ since')) :
    m'.IsInstance o newTarget since' := by
  obtain ⟨hborn, hkind, c, hc, hid, hprototype⟩ := h
  refine ⟨Nat.lt_of_lt_of_le hborn hsize, hobject.1.trans hkind, c, htrace hc, hid, ?_⟩
  rcases hobject.2 with hkept | hrelinked
  · rw [hkept]
    exact hprototype.imp_right fun h => hsince h
  · exact .inr hrelinked

/-- An instance that was made meanwhile, with what has been noted meanwhile. -/
theorem Accounted.isInstance_of_new (hm : m.Accounted) (hm' : m'.Accounted)
    (hnew : m.store.size ≤ o) (ho : .allocated o newTarget ∈ m'.trace) {new : List Event}
    (htrace : m'.trace = new ++ m.trace) : m'.IsInstance o newTarget new := by
  obtain ⟨since, before, hsince, hinstance⟩ := hm'.isInstance ho
  have hsub : since ⊆ new := by
    rcases List.append_eq_append_iff.mp (htrace.symm.trans hsince) with
      ⟨as, -, hold⟩ | ⟨bs, rfl, -⟩
    · -- the object would have been there before
      have hmem : .allocated o newTarget ∈ m.trace := by simp [hold]
      obtain ⟨-, -, -, hborn, -⟩ := hm.isInstance hmem
      exact absurd hborn (Nat.not_lt_of_le hnew)
    · exact List.subset_append_left ..
  exact hinstance.later (Nat.le_refl _) (List.Subset.refl _) hsub ⟨rfl, .inl rfl⟩

end Machine

/-! ### Effects that make no instances -/

/-- The event is about the making of an instance. -/
def Event.IsMaking : Event → Prop
  | allocated .. | constructed .. => True
  | _ => False

/-- The effect changes no frame and tells of no instance that is made or handed out. -/
def Effect.KeepsInstances : Effect → Prop
  | .note e => ¬ e.IsMaking
  | .push _ | .pop | .frame _ => False
  | _ => True

namespace Effect

theorem IsClient.keepsInstances {e : Effect} (h : e.IsClient) : e.KeepsInstances := by
  cases e with
  | note e => cases e <;> simp_all [IsClient, Event.IsClient, KeepsInstances, Event.IsMaking]
  | push | pop | frame => exact h
  | _ => trivial

theorem IsDefining.keepsInstances {e : Effect} (h : e.IsDefining) : e.KeepsInstances := by
  rcases h with h | h
  · exact h.keepsInstances
  · cases e with
    | note e => cases e <;> simp_all [Event.IsDefining, KeepsInstances, Event.IsMaking]
    | push | pop | frame => exact h
    | _ => trivial

theorem IsReplacing.keepsInstances {e : Effect} (h : e.IsReplacing) : e.KeepsInstances := by
  rcases h with h | h
  · exact h.keepsInstances
  · cases e with
    | note e => cases e <;> simp_all [Event.IsReplacing, KeepsInstances, Event.IsMaking]
    | push | pop | frame => exact h
    | _ => trivial

/-- An object keeps its kind for good, and its link unless that is redirected. -/
theorem object_apply (e : Effect) {m : Machine} {o : ObjectId} (ho : o < m.store.size) :
    ((e.apply m).store.object o).kind = (m.store.object o).kind ∧
      (((e.apply m).store.object o).prototype = (m.store.object o).prototype ∨
        ∃ prototype, e = .relink o prototype) := by
  cases e with
  | object kind prototype => simp [apply, Store.object_add, Nat.ne_of_lt ho]
  | define id key p =>
    simp only [apply]
    split
    next o' h =>
      have hshape := Object.shape_of_define h
      rw [Store.object_put]
      split
      next hid => simp [hid.1, hshape]
      next => simp
    next => simp
  | delete id key =>
    have hshape := (m.store.object id).shape_delete key
    simp only [apply, Store.object_put]
    split
    next hid => simp [hid.1, hshape]
    next => simp
  | close id =>
    simp only [apply, Store.object_put]
    split
    next hid => simp [hid.1, Object.preventExtensions]
    next => simp
  | relink id prototype =>
    simp only [apply, Store.object_put]
    split
    next hid => simp [hid.1, Object.relink]
    next => simp
  | _ => exact ⟨rfl, .inl rfl⟩

namespace KeepsInstances

variable {e : Effect} (h : e.KeepsInstances) {m : Machine}

include h

theorem frames_apply (m : Machine) : (e.apply m).frames = m.frames := by
  cases e with
  | push | pop | frame => exact h.elim
  | define => exact frames_apply_define ..
  | _ => rfl

/-- What is noted tells of no making, but of a redirected link. -/
theorem trace_apply (m : Machine) : ∃ new, (e.apply m).trace = new ++ m.trace ∧
    (∀ e' ∈ new, ¬ e'.IsMaking) ∧ ∀ o prototype, e = .relink o prototype → .relinked o ∈ new := by
  cases e with
  | note e => exact ⟨[e], rfl, by simpa using show ¬ e.IsMaking from h, by simp⟩
  | relink id => exact ⟨[.relinked id], rfl, by simp [Event.IsMaking], by simp⟩
  | define => exact ⟨[], trace_apply_define .., by simp, by simp⟩
  | _ => exact ⟨[], rfl, by simp, by simp⟩

/-- Nothing is handed out. -/
theorem constructedOf_apply (m : Machine) :
    constructedOf (e.apply m).trace = constructedOf m.trace := by
  obtain ⟨new, htrace, hnew, -⟩ := h.trace_apply m
  have hnone : constructedOf new = [] := by
    refine List.filterMap_eq_nil_iff.mpr fun e he => ?_
    have := hnew e he
    cases e <;> first | rfl | simp [Event.IsMaking] at this
  rw [htrace, constructedOf_append, hnone, List.nil_append]

theorem accounted_apply (hm : m.Accounted) : (e.apply m).Accounted where
  instances since o newTarget before hT := by
    obtain ⟨new, htrace, hnew, hrelinked⟩ := h.trace_apply m
    -- the instance was made before, so all that is new came since
    obtain ⟨since', rfl, hsince⟩ : ∃ since', since = new ++ since' ∧
        m.trace = since' ++ .allocated o newTarget :: before := by
      rcases List.append_eq_append_iff.mp (htrace.symm.trans hT) with
        ⟨as, has, hbefore⟩ | ⟨bs, hbs, hbefore⟩
      · exact ⟨as, has, hbefore⟩
      · cases bs with
        | nil => exact ⟨[], by simpa using hbs.symm, hbefore.symm⟩
        | cons e' bs =>
          obtain rfl := (List.cons.inj hbefore).1
          exact absurd trivial (hnew (.allocated o newTarget) (by simp [hbs]))
    have hinstance := hm.instances _ _ _ _ hsince
    obtain ⟨hkind, hprototype⟩ := e.object_apply hinstance.1
    exact hinstance.later (e.size_apply m) (htrace ▸ List.subset_append_right ..)
      (List.subset_append_right ..) ⟨hkind, hprototype.imp_right fun ⟨prototype, he⟩ =>
        List.mem_append_left _ (hrelinked o prototype he)⟩
  once := by
    rw [h.constructedOf_apply]
    exact hm.once
  constructed o ho := by
    rw [h.constructedOf_apply] at ho
    exact Nat.lt_of_lt_of_le (hm.constructed o ho) (e.size_apply m)
  handedOut cls o ho := by
    obtain ⟨new, htrace, hnew, -⟩ := h.trace_apply m
    rw [htrace] at ho ⊢
    rcases List.mem_append.mp ho with ho | ho
    · exact absurd trivial (hnew _ ho)
    · exact List.mem_append_right new (hm.handedOut cls o ho)
  bound f hf o ho := by
    rw [h.frames_apply] at hf
    exact Nat.lt_of_lt_of_le (hm.bound f hf o ho) (e.size_apply m)

theorem advances_apply (m : Machine) : m.Advances (e.apply m) where
  size := e.size_apply m
  trace := e.trace_apply m
  old o ho _ := by rwa [h.constructedOf_apply] at ho

end KeepsInstances

end Effect

/-! ### Making and handing out -/

namespace Machine

variable {m m' : Machine} {newTarget : ClassId} {o : ObjectId}

/-- The machine with a further instance of the class. -/
def withInstance (m : Machine) (c : Class) : Machine :=
  (Effect.note (.allocated m.store.size c.id)).apply
    ((Effect.object (.instance c.id) (some c.prototype)).apply m)

theorem outcome_allocate_of_some {c : Class} (h : m.registry.class? c.id = some c) :
    (allocate c.id).outcome m = (some (.ok m.store.size), m.withInstance c) := by
  rw [allocate, outcome_bind, outcome_classAt_of_some h]
  rfl

theorem outcome_allocate_of_none (h : m.registry.class? newTarget = none) :
    (allocate newTarget).outcome m = (some (.error (.ofFault (.noSuchClass newTarget))),
      (Effect.note (.raised (.noSuchClass newTarget))).apply m) := by
  rw [allocate, outcome_bind, outcome_classAt_of_none h]

/-- An instance of a class that is there is accounted for. -/
theorem Accounted.withInstance (hm : m.Accounted) (hcoherent : m.Coherent) {c : Class}
    (hc : m.registry.class? c.id = some c) :
    (m.withInstance c).Accounted ∧ m.Gains c.id m.store.size (m.withInstance c) := by
  let e : Effect := .object (.instance c.id) (some c.prototype)
  have hm₁ : (e.apply m).Accounted :=
    Effect.KeepsInstances.accounted_apply (e := e) trivial hm
  have hsize : (e.apply m).store.size = m.store.size + 1 := Store.size_add ..
  have hnew : (e.apply m).store.object m.store.size =
      { kind := .instance c.id, prototype := c.prototype } := by
    simp [e, Effect.apply, Store.object_add]
  refine ⟨⟨fun since o newTarget before h => ?_, hm₁.once, hm₁.constructed,
    fun cls o ho => List.mem_cons_of_mem _ (hm₁.handedOut cls o ?_), hm₁.bound⟩, Nat.le_refl _,
    Nat.lt_of_lt_of_eq (Nat.lt_succ_self _) hsize.symm, List.mem_cons_self,
    fun ho => Nat.lt_irrefl _ (hm.constructed _ ho)⟩
  case refine_2 =>
    exact (List.mem_cons.mp ho).resolve_left (by simp)
  have htrace : .allocated m.store.size c.id :: m.trace =
      since ++ .allocated o newTarget :: before := h
  cases since with
  | nil =>
    obtain ⟨he, -⟩ := List.cons.inj htrace
    obtain ⟨rfl, rfl⟩ := Event.allocated.inj he
    -- the class is as registered, but for its fields
    obtain ⟨c₀, hc₀, hid, hfields⟩ := hcoherent.follows.known c.id c hc
    have hprototype : c₀.prototype = c.prototype := by rw [hfields]; rfl
    exact ⟨Nat.lt_of_lt_of_eq (Nat.lt_succ_self _) hsize.symm, congrArg Object.kind hnew,
      c₀, List.mem_cons_of_mem _ (List.mem_of_mem_filter hc₀), hid,
      .inl ((congrArg Object.prototype hnew).trans (congrArg some hprototype.symm))⟩
  | cons _ since =>
    exact (hm₁.instances since o newTarget before (List.cons.inj htrace).2).later (Nat.le_refl _)
      (List.subset_cons_self ..) (List.subset_cons_self ..) ⟨rfl, .inl rfl⟩

theorem Advances.withInstance (m : Machine) (c : Class) : m.Advances (m.withInstance c) where
  size := (Effect.object (.instance c.id) (some c.prototype)).size_apply m
  trace := ⟨[_], rfl⟩
  old _ ho _ := ho

/-- An object that was made meanwhile can be handed out. -/
theorem Gains.accounted (h : m.Gains newTarget o m') (hm' : m'.Accounted) :
    ((Effect.note (.constructed newTarget o)).apply m').Accounted where
  instances since o' newTarget' before hsince := by
    have htrace : .constructed newTarget o :: m'.trace =
        since ++ .allocated o' newTarget' :: before := hsince
    cases since with
    | nil => simp at htrace
    | cons _ since =>
      exact (hm'.instances since o' newTarget' before (List.cons.inj htrace).2).later
        (Nat.le_refl _) (List.subset_cons_self ..) (List.subset_cons_self ..) ⟨rfl, .inl rfl⟩
  once := List.nodup_cons.mpr ⟨h.unfinished, hm'.once⟩
  constructed o' ho := by
    rcases List.mem_cons.mp ho with rfl | ho
    · exact h.born
    · exact hm'.constructed o' ho
  handedOut cls o' ho := by
    refine List.mem_cons_of_mem _ ?_
    rcases List.mem_cons.mp ho with he | ho
    · obtain ⟨rfl, rfl⟩ := Event.constructed.inj he
      exact h.allocated
    · exact hm'.handedOut cls o' ho
  bound := hm'.bound

/-- Handing out an object that is new leaves the old ones alone. -/
theorem Gains.advances (h : m.Gains newTarget o m') (hm' : m.Advances m') (cls : ClassId) :
    m.Advances ((Effect.note (.constructed cls o)).apply m') where
  size := hm'.size
  trace := by
    obtain ⟨new, hnew⟩ := hm'.trace
    exact ⟨.constructed cls o :: new, congrArg (_ :: ·) hnew⟩
  old o' ho hold := by
    rcases List.mem_cons.mp ho with rfl | ho
    · exact absurd hold (Nat.not_lt_of_le h.new)
    · exact hm'.old o' ho hold

end Machine

end ClassMachine
