import ClassMachine.Proofs.DepthLimit
import ClassMachine.Proofs.Moments
import ClassMachine.Proofs.Stages

/-!
# Client code that calls no constructor

Client code gets at a constructor in two ways: it asks for a construction, or it calls the parent
constructor from a frame. Either way a constructor is called, and this is noted first of all. So
where no call is noted, no construction is refused because of its depth, no fields of a class are
begun and no body is entered.

This is a law of what is noted (`ClassMachine.callFreeLaw`). It goes from level to level together
with its counterpart, that a task which asks for a construction notes a call
(`ClassMachine.callFreeContract`).

Main statement: `ClassMachine.eval_callFree`.
-/

namespace ClassMachine

variable {α β : Type}

/-! ### What is noted -/

/-- What a class does with an object under construction. -/
inductive Milestone
  /-- Its fields are begun. -/
  | fields (cls : ClassId) (target : ObjectId)
  /-- Its body is entered, with these arguments and with the object if one is bound. -/
  | body (cls : ClassId) (this : Option ObjectId) (args : List Value)

/-- The milestone that the event tells of. -/
def Event.milestone? : Event → Option Milestone
  | installing _ cls _ target _ => some (.fields cls target)
  | bodyEntered cls this args => some (.body cls this args)
  | _ => none

/-- The event tells neither of a milestone nor of a refused construction. -/
def Event.IsOutside (e : Event) : Prop :=
  e.isTooDeep = false ∧ e.milestone? = none

/-- Without a call among the events, none of them is from within a construction. -/
def CallFree (new : List Event) : Prop :=
  (∀ e ∈ new, e.isCall = false) → ∀ e ∈ new, e.IsOutside

theorem CallFree.of_outside {new : List Event} (h : ∀ e ∈ new, e.IsOutside) : CallFree new :=
  fun _ => h

theorem CallFree.append {new new' : List Event} (h : CallFree new) (h' : CallFree new') :
    CallFree (new' ++ new) := by
  intro hcalls
  rw [List.forall_mem_append] at hcalls ⊢
  exact ⟨h' hcalls.1, h hcalls.2⟩

/-- The law of what is noted. -/
def callFreeLaw : Law where
  ended m m' := ∃ new, m'.trace = new ++ m.trace ∧ CallFree new
  broken m m' := ∃ new, m'.trace = new ++ m.trace ∧ CallFree new
  refl _ := ⟨[], rfl, .of_outside (List.forall_mem_nil _)⟩
  trans := by
    rintro m m' m'' ⟨new, hm', hnew⟩ ⟨new', hm'', hnew'⟩
    exact ⟨new' ++ new, by rw [hm'', hm', List.append_assoc], hnew.append hnew'⟩
  late h := h
  trans_broken := by
    rintro m m' m'' ⟨new, hm', hnew⟩ ⟨new', hm'', hnew'⟩
    exact ⟨new' ++ new, by rw [hm'', hm', List.append_assoc], hnew.append hnew'⟩

/-- The law is about what is noted, and nothing else. -/
theorem callFreeLaw_note {e : Event} (he : e.IsOutside) {m m' : Machine}
    (h : m'.trace = e :: m.trace) : callFreeLaw.ended m m' :=
  ⟨[e], h, .of_outside (by simpa using he)⟩

/-- The effect tells neither of a milestone nor of a refused construction. -/
def Effect.IsOutside : Effect → Prop
  | .note e => e.IsOutside
  | _ => True

theorem callFreeLaw_allows {e : Effect} (he : e.IsOutside) : callFreeLaw.Allows e := by
  intro m
  cases e with
  | note e => exact callFreeLaw_note he rfl
  | relink id => exact callFreeLaw_note (e := .relinked id) ⟨rfl, rfl⟩ rfl
  | define => exact ⟨[], Effect.trace_apply_define .., .of_outside (List.forall_mem_nil _)⟩
  | _ => exact callFreeLaw.refl m

/-! ### Client code -/

section Client

variable {X : Operations}

theorem defineOn_outside (id : ObjectId) (key : String) (p : Property) :
    MadeOf Effect.IsOutside X fun _ => defineOn id key p := by
  refine .steps (defineOn_ignoresTrace id key p) fun m => ?_
  cases h : (m.store.object id).define key p with
  | ok o =>
    have hdefine : (defineOn id key p).outcome m =
        (some (.ok ⟨⟩), Effect.applyAll [.define id key p] m) := by
      simp [outcome_defineOn, Effect.apply, h]
    exact .answers (by simp [Effect.IsOutside, Effect.IsPlain]) hdefine
  | error f =>
    have hf : (Effect.note (.raised f)).IsOutside := by
      rcases Object.define_eq_error h with rfl | rfl <;> exact ⟨rfl, rfl⟩
    exact .raises hf (by rw [outcome_defineOn, h]; rfl)

instance : Hosts Effect.IsOutside X where
  effect e he _ hrefusal := by
    cases e with
    | note e =>
      cases e with
      | raised f =>
        refine ⟨?_, rfl⟩
        cases f with
        | tooDeep limit => exact absurd ⟨limit, rfl⟩ hrefusal
        | _ => rfl
      | caught | changed | relinked => exact ⟨rfl, rfl⟩
      | _ => exact he.elim
    | _ => trivial
  define id key p := .bind (defineOn_outside id key p) fun _ => .note ⟨rfl, rfl⟩ trivial
  delete id key := .effects (fun _ => rfl) fun _ => ⟨_, [.delete id key, .note (.changed id)],
    by simp [Effect.IsOutside, Event.IsOutside, Event.isTooDeep, Event.milestone?, Effect.IsPlain,
      Event.IsPlain], rfl⟩
  close id := .effects (fun _ => rfl) fun _ => ⟨_, [.close id, .note (.changed id)],
    by simp [Effect.IsOutside, Event.IsOutside, Event.isTooDeep, Event.milestone?, Effect.IsPlain,
      Event.IsPlain], rfl⟩

/-- Installing a field is nothing that only a construction does. -/
theorem during_installField_outside (activity : Activity) (target : ObjectId)
    (record : FieldRecord) :
    MadeOf Effect.IsOutside X fun perform =>
      during activity (installField perform target record) := by
  have hvalue : MadeOf Effect.IsOutside X fun perform => fieldValue perform target record := by
    unfold fieldValue
    split
    · exact .eval _ _
    · exact readFrom_client _ _ _
  refine .during (fun e he => ?_) (.bind hvalue fun v => .bind (defineOn_outside _ _ _) fun _ =>
    .note ⟨rfl, rfl⟩ trivial)
  rcases he with rfl | rfl | rfl <;> exact ⟨rfl, rfl⟩

end Client

/-! ### Constructions -/

/-- The first thing that the action notes, if anything, is a call of a constructor. -/
def Action.Calls (x : Action α) : Prop :=
  ∀ m, x.Ensures m fun r m' => r = none ∧ m'.trace = m.trace ∨
    ∃ cls newTarget, .called cls newTarget :: m.trace <:+ m'.trace

/-- Whatever follows the call, the law does not speak of it. -/
theorem Action.Calls.bind {x : Action α} {f : α → Action β} (hx : x.Calls)
    (hf : ∀ a, (f a).Obeys growthLaw) : (x >>= f).Obeys callFreeLaw := by
  have hcalled {m m' : Machine} {cls newTarget : ClassId}
      (h : .called cls newTarget :: m.trace <:+ m'.trace) : callFreeLaw.ended m m' := by
    obtain ⟨new, hnew⟩ := h
    refine ⟨new ++ [.called cls newTarget], by rw [← hnew]; simp, fun hcalls => ?_⟩
    exact absurd (hcalls (.called cls newTarget) (by simp)) (by simp [Event.isCall])
  intro m
  refine (hx m).bind (fun a m' _ h => ?_) (fun e m' h => ?_) fun m' h => ?_
  · obtain ⟨hr, -⟩ | ⟨cls, newTarget, h⟩ := h
    · cases hr
    · refine (hf a m').mono fun r m'' h' => ?_
      have hgrows : m'.trace <:+ m''.trace := by
        cases r <;> exact h'
      have hlaw := hcalled (h.trans hgrows)
      cases r <;> exact hlaw
  · obtain ⟨hr, -⟩ | ⟨cls, newTarget, h⟩ := h
    · cases hr
    · exact hcalled h
  · obtain ⟨-, h⟩ | ⟨cls, newTarget, h⟩ := h
    · exact ⟨[], h, .of_outside (List.forall_mem_nil _)⟩
    · exact hcalled h

theorem Action.Calls.callFree {x : Action α} (hx : x.Calls) : x.Obeys callFreeLaw := by
  have hpure : (x >>= pure).Obeys callFreeLaw := hx.bind pure_grows
  rwa [bind_pure] at hpure

/-- The contract that client code obeys the law, and that a construction is called. -/
def callFreeContract : Contract where
  Holds _ task m r m' := match task with
    | .eval .. => callFreeLaw.ended m m'
    | .construct .. => r = none ∧ m'.trace = m.trace ∨
      ∃ cls newTarget, .called cls newTarget :: m.trace <:+ m'.trace
  start task m := by
    cases task with
    | eval => exact callFreeLaw.refl m
    | construct => exact .inl ⟨rfl, rfl⟩
  late {_ task _ _ _} h := by
    cases task with
    | eval => exact h
    | construct => exact .inr (h.resolve_left (by simp))

section Performer

variable {perform : Performer} (hp : perform.Keeps callFreeContract) {settings : Settings}

include hp

theorem eval_obeys_callFree (e : Expr) (ctx : Context) :
    (perform (.eval e ctx)).Obeys callFreeLaw := by
  refine fun m => (hp (.eval e ctx) m).mono fun r m' h => ?_
  cases r <;> exact h

theorem construct_calls (cls newTarget : ClassId) (args : List Value) :
    (perform (.construct cls newTarget args)).Calls :=
  fun m => hp (.construct cls newTarget args) m

theorem perform_grows (task : Task α) : (perform task).Obeys growthLaw := by
  refine fun m => (hp task m).mono fun r m' h => ?_
  have hgrows : m.trace <:+ m'.trace := by
    cases task with
    | eval =>
      obtain ⟨new, hnew, -⟩ := h
      exact ⟨new, hnew.symm⟩
    | construct =>
      obtain ⟨-, h⟩ | ⟨cls, newTarget, h⟩ := h
      · exact h ▸ List.suffix_rfl
      · exact (List.suffix_cons _ _).trans h
  cases r <;> exact hgrows

theorem MadeOf.callFree {X : Operations} {F : Performer → Action α}
    (hF : MadeOf Effect.IsOutside X F)
    (hX : ∀ ⦃β : Type⦄ (G : Performer → Action β), X G → (G perform).Obeys callFreeLaw) :
    (F perform).Obeys callFreeLaw :=
  hF.obeys (fun _ => callFreeLaw_allows) hX (eval_obeys_callFree hp)

theorem MadeOf.grows {A : Effect → Prop} {F : Performer → Action α}
    (hF : MadeOf A .Constructions F) : (F perform).Obeys growthLaw :=
  hF.obeys_tasks (fun e _ => growthLaw_allows e) fun _ task => perform_grows hp task

/-- **A construction notes its call.** -/
theorem constructFor_calls (cls newTarget : ClassId) (args : List Value) :
    (constructFor settings perform cls newTarget args).Calls := by
  have hrun : (runConstructor perform cls newTarget args).Obeys growthLaw :=
    (runConstructor_madeOf (A := fun _ => True) (fun _ _ => trivial) cls (fun _ => trivial)
      (fun _ => trivial) args).grows hp
  intro m
  refine constructFor_ensures (P := fun _ m' => (m.begun cls newTarget).trace <:+ m'.trace)
    (.inr ⟨cls, newTarget, List.suffix_cons _ _⟩) (fun _ => (hrun _).mono fun r m' h => ?_)
    (fun outcome m' h => (finishConstruction_grows outcome m').mono fun r m'' h' => ?_)
    fun m' h => .inr ⟨cls, newTarget, h⟩
  · cases r <;> exact h
  · have hgrows : m'.trace <:+ m''.trace := by
      cases r <;> exact h'
    exact .inr ⟨cls, newTarget, h.trans hgrows⟩

/-! ### The operations -/

theorem construct_callFree (cls : ClassId) (args : List Value) :
    (construct settings perform cls args).Obeys callFreeLaw := by
  have hannounce : MadeOf Effect.IsOutside .none fun _ => announceConstruction settings cls :=
    announceConstruction_hosted fun _ => ⟨rfl, rfl⟩
  refine (hannounce.callFree hp fun _ _ h => h.elim).bind fun _ =>
    (constructFor_calls hp cls cls args).bind fun this => ?_
  exact .bind (fun _ => growthLaw_allows (.note _) _) fun _ => pure_grows this

theorem superCall_callFree (args : List Value) : (superCall perform args).Obeys callFreeLaw := by
  have hframe : MadeOf Effect.IsOutside .none fun _ => currentFrame := currentFrame_client
  have hclass (cls : ClassId) : MadeOf Effect.IsOutside .none fun _ => classAt cls :=
    classAt_client cls
  refine (hframe.callFree hp fun _ _ h => h.elim).bind fun f =>
    ((hclass f.cls).callFree hp fun _ _ h => h.elim).bind fun c => ?_
  cases c.parent with
  | none => exact fun m => callFreeLaw_allows (e := .note (.raised .noParent)) ⟨rfl, rfl⟩ m
  | some parent =>
    refine (construct_calls hp parent f.newTarget args).bind fun this => ?_
    exact ((adopt_madeOf this f.cls .thisBound).grows hp).bind fun _ =>
      .bind (fun _ => growthLaw_allows (.note _) _) fun _ => pure_grows this

theorem defineClass_callFree (d : ClassDefinition) :
    (defineClass perform d).Obeys callFreeLaw := by
  have hcollect (cls : ClassId) (homes : Homes) :
      (collectFields perform cls d.displayName homes d.elements).Obeys callFreeLaw := by
    refine MadeOf.callFree hp (X := .none) (collectFields_of_method cls d.displayName homes
      (fun name e he => ?_) (fun _ _ _ _ => ?_) d.elements) fun _ _ h => h.elim
    · rcases he with rfl | rfl | rfl <;> exact ⟨rfl, rfl⟩
    · exact .bind (objectAt_client _) fun _ => defineOn_outside _ _ _
  have hinstall (c : Class) : (installFields perform (.staticField c.id c.displayName c.classObject)
      c.classObject c.staticFields).Obeys callFreeLaw :=
    MadeOf.callFree hp (X := .none)
      (installFields_of_field (fun r => during_installField_outside _ _ r) _) fun _ _ h => h.elim
  have hprepare : (prepareClass perform d).Obeys callFreeLaw := by
    intro m
    have hdefining : callFreeLaw.ended m ((Effect.note (.defining d.displayName)).apply m) :=
      callFreeLaw_note ⟨rfl, rfl⟩ rfl
    refine prepareClass_ensures (fun f hf => ?_) fun parent hd => ?_
    · have hraised : (Event.raised f).IsOutside := by
        cases hf with
        | names h =>
          obtain ⟨isStatic, name, rfl⟩ := d.checkNames_eq_error h
          exact ⟨rfl, rfl⟩
        | heritage _ h =>
          obtain ⟨v, rfl⟩ := d.parent?_eq_error h
          exact ⟨rfl, rfl⟩
      exact callFreeLaw.trans hdefining (callFreeLaw_note hraised rfl)
    · have hprepared : callFreeLaw.ended m (m.prepared d parent) :=
        callFreeLaw.trans hdefining (callFreeLaw_note (e := .numbered m.nextClass) ⟨rfl, rfl⟩ rfl)
      refine (hcollect m.nextClass m.homes (m.prepared d parent)).mono fun r m' h => ?_
      exact Law.holds_map.mpr (.of_ended hprepared h)
  refine hprepare.bind fun c m => ?_
  have hlaunched : callFreeLaw.ended m (m.launched c) := callFreeLaw_note (e := .registered c)
    ⟨rfl, rfl⟩ rfl
  refine launchClass_ensures (hinstall c (m.launched c)) (fun m' h => ?_) (fun e m' h => ?_)
    fun m' h => callFreeLaw.trans_broken hlaunched h
  · exact callFreeLaw.trans (callFreeLaw.trans hlaunched h)
      (callFreeLaw_note (e := .completed c.id) ⟨rfl, rfl⟩ rfl)
  · exact callFreeLaw.trans (callFreeLaw.trans hlaunched h)
      (callFreeLaw_note (e := .withdrawn c.id _) ⟨rfl, rfl⟩ rfl)

theorem call_callFree (c : Call α) : (c.run settings perform).Obeys callFreeLaw := by
  have hosted {α : Type} {F : Performer → Action α} (hF : MadeOf Effect.IsOutside .none F) :
      (F perform).Obeys callFreeLaw :=
    hF.callFree hp fun _ _ h => h.elim
  cases c with
  | construct cls args => exact construct_callFree hp cls args
  | constructValue callee args =>
    exact (hosted (calledClass_hosted callee)).bind fun cls => construct_callFree hp cls args
  | super args => exact superCall_callFree hp args
  | define d => exact defineClass_callFree hp d
  | replace cls field initializer =>
    refine hosted (replaceInitializer_hosted (fun e he => ?_) (fun _ => trivial) ..)
    cases e <;> first | exact ⟨rfl, rfl⟩ | exact he.elim
  | get target key => exact hosted (readProperty_client target key)
  | set target key value => exact hosted (assignProperty_client target key value)
  | call callee receiver args => exact hosted (callValue_client callee receiver args)
  | invoke receiver key args => exact hosted (invokeMethod_client receiver key args)

/-- **Each level passes the contract on.** -/
theorem step_keeps_callFree : (step settings perform).Keeps callFreeContract := by
  intro α task
  cases task with
  | eval e ctx =>
    have hcode : (evaluateExpr settings perform ctx e).Obeys callFreeLaw := by
      refine (evaluateExpr_madeOf (A := Effect.IsOutside) (X := Call.operations settings) ctx
        (fun _ c => .operation ⟨c, rfl⟩) e).callFree hp ?_
      rintro β _ ⟨c, rfl⟩
      exact call_callFree hp c
    refine fun m => (hcode m).mono fun r m' h => ?_
    cases r <;> exact h
  | construct cls newTarget args => exact constructFor_calls hp cls newTarget args

end Performer

/-- **Client code that calls no constructor** tells of nothing that only a constructor does. -/
theorem eval_callFree (settings : Settings) (levels : Nat) (e : Expr) (ctx : Context) :
    (interpret settings levels (.eval e ctx)).Obeys callFreeLaw :=
  eval_obeys_callFree (interpret_keeps (fun _ hp => step_keeps_callFree hp) levels) e ctx

/-- Neither do the fields that are installed on an object. -/
theorem installFields_callFree (settings : Settings) (levels : Nat)
    (activity : FieldRecord → Activity) (target : ObjectId) (records : List FieldRecord) :
    (installFields (interpret settings levels) activity target records).Obeys callFreeLaw :=
  MadeOf.callFree (X := .none) (interpret_keeps (fun _ hp => step_keeps_callFree hp) levels)
    (installFields_of_field (fun r => during_installField_outside _ _ r) records)
    fun _ _ h => h.elim

end ClassMachine
