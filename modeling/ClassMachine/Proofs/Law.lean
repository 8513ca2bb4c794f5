import ClassMachine.Proofs.Effect

/-!
# Laws of actions

A statement about everything that a machine does is proved in two halves: for each
effect, and for each way of putting actions together. This file has the second half.

* `ClassMachine.Action.Ensures` says what is known after an action that starts from a
  given machine.
* `ClassMachine.Law` is a relation between the machine before an action and the machine
  after it, or rather two of them: one for actions that have ended, and a weaker one
  for actions that were broken off. Laws are closed under doing one thing after the
  other, so an action obeys a law as soon as its parts do.
* `ClassMachine.MadeOf` says that an action is put together from effects, from
  evaluations by a performer and from given operations. It is shown once of each operation of the
  machine, and gives the law of the operation from the laws of its parts
  (`ClassMachine.MadeOf.obeys`).
* `ClassMachine.Comparison` is a relation between actions that is passed on in the same way. It is
  for statements about two runs of one operation, by different performers
  (`ClassMachine.MadeOf.compared`); a law is the case in which one of the two does not matter.
-/

namespace ClassMachine

variable {α β : Type}

/-! ### What an action ensures -/

/-- Run on the machine, the action has such an outcome and leaves such a machine. -/
def Action.Ensures (x : Action α) (m : Machine)
    (Q : Option (Except Failure α) → Machine → Prop) : Prop :=
  Q (x.outcome m).1 (x.outcome m).2

namespace Action.Ensures

variable {x : Action α} {f : α → Action β} {m : Machine}
  {P P' : Option (Except Failure α) → Machine → Prop}
  {Q : Option (Except Failure β) → Machine → Prop}

theorem mono (h : x.Ensures m P) (hP : ∀ r m', P r m' → P' r m') : x.Ensures m P' :=
  hP _ _ h

theorem and (h : x.Ensures m P) (h' : x.Ensures m P') :
    x.Ensures m fun r m' => P r m' ∧ P' r m' :=
  ⟨h, h'⟩

/-- What is ensured of an action and of what follows it. A failure and a break pass
through. -/
theorem bind (hx : x.Ensures m P)
    (hok : ∀ a m', x.outcome m = (some (.ok a), m') → P (some (.ok a)) m' → (f a).Ensures m' Q)
    (herror : ∀ e m', P (some (.error e)) m' → Q (some (.error e)) m')
    (hbroken : ∀ m', P none m' → Q none m') : (x >>= f).Ensures m Q := by
  unfold Ensures at hx ⊢
  rw [outcome_bind]
  rcases h : x.outcome m with ⟨_ | e | a, m'⟩ <;> rw [h] at hx
  · exact hbroken m' hx
  · exact herror e m' hx
  · exact hok a m' h hx

theorem of_outcome {r : Option (Except Failure α)} {n : Machine} (h : x.outcome m = (r, n))
    (hP : P r n) : x.Ensures m P := by
  rw [Ensures, h]
  exact hP

theorem bind_ok {a : α} {n : Machine} (h : x.outcome m = (some (.ok a), n))
    (hf : (f a).Ensures n Q) : (x >>= f).Ensures m Q := by
  rw [Ensures, outcome_bind, h]
  exact hf

theorem bind_error {e : Failure} {n : Machine} (h : x.outcome m = (some (.error e), n))
    (hQ : Q (some (.error e)) n) : (x >>= f).Ensures m Q := by
  rw [Ensures, outcome_bind, h]
  exact hQ

/-- What is ensured of an action of which the answer is put into another form. -/
theorem bind_pure {g : α → β} (h : x.Ensures m P) :
    (x >>= fun a => pure (g a)).Ensures m fun r m' =>
      ∃ r', P r' m' ∧ r = r'.map (Except.map g) := by
  refine h.bind (fun a m' _ h => .of_outcome rfl ⟨_, h, rfl⟩) (fun e _ h => ⟨_, h, rfl⟩)
    fun _ h => ⟨_, h, rfl⟩

/-- What is ensured of an action whose outcome is observed. -/
theorem observe {Q : Option (Except Failure (Except Failure α)) → Machine → Prop}
    (hx : x.Ensures m P) (hend : ∀ r m', P (some r) m' → Q (some (.ok r)) m')
    (hbroken : ∀ m', P none m' → Q none m') : (observe x).Ensures m Q := by
  unfold Ensures at *
  rw [outcome_observe]
  generalize x.outcome m = o at hx
  rcases o with ⟨_ | r, m'⟩
  · exact hbroken m' hx
  · exact hend r m' hx

/-- What is ensured of an action and of what follows it, however the action has
ended. -/
theorem bind_observe {g : Except Failure α → Action β} (hx : x.Ensures m P)
    (hend : ∀ r m', x.outcome m = (some r, m') → P (some r) m' → (g r).Ensures m' Q)
    (hbroken : ∀ m', P none m' → Q none m') : (ClassMachine.observe x >>= g).Ensures m Q := by
  unfold Ensures at hx ⊢
  rw [outcome_bind, outcome_observe]
  rcases h : x.outcome m with ⟨_ | r, m'⟩ <;> rw [h] at hx
  · exact hbroken m' hx
  · exact hend r m' h hx

end Action.Ensures

theorem outcome_during (activity : Activity) (x : Action α) (m : Machine) :
    (during activity x).outcome m =
      match x.outcome ((Effect.note (.began activity)).apply m) with
      | (none, m') => (none, m')
      | (some (.ok a), m') => (some (.ok a), (Effect.note (.finished activity)).apply m')
      | (some (.error e), m') =>
        (some (.error (e.within activity.context)), (Effect.note (.failed activity)).apply m') := by
  have hbegan : (note (.began activity)).outcome m =
      (some (.ok ⟨⟩), (Effect.note (.began activity)).apply m) := rfl
  rw [during, outcome_bind, hbegan]
  dsimp only
  rw [outcome_bind, outcome_observe]
  rcases x.outcome ((Effect.note (.began activity)).apply m) with ⟨_ | _ | _, _⟩ <;> rfl

/-- What is ensured of an activity, given what is ensured of what it runs. -/
theorem during_ensures {activity : Activity} {x : Action α} {m : Machine}
    {P Q : Option (Except Failure α) → Machine → Prop}
    (hx : x.Ensures ((Effect.note (.began activity)).apply m) P)
    (hok : ∀ a m', P (some (.ok a)) m' →
      Q (some (.ok a)) ((Effect.note (.finished activity)).apply m'))
    (herror : ∀ e m', P (some (.error e)) m' →
      Q (some (.error (e.within activity.context))) ((Effect.note (.failed activity)).apply m'))
    (hbroken : ∀ m', P none m' → Q none m') : (during activity x).Ensures m Q := by
  refine .bind_ok (n := (Effect.note (.began activity)).apply m) rfl
    (hx.bind_observe (fun r m' _ h => ?_) hbroken)
  cases r with
  | ok a => exact .of_outcome rfl (hok a m' h)
  | error e => exact .of_outcome rfl (herror e m' h)

/-! ### Laws -/

/-- What is known of a machine before and after: once something has ended, and when it
was broken off. -/
structure Law where
  ended : Machine → Machine → Prop
  broken : Machine → Machine → Prop
  refl (m : Machine) : ended m m
  trans {m m' m'' : Machine} : ended m m' → ended m' m'' → ended m m''
  late {m m' : Machine} : ended m m' → broken m m'
  trans_broken {m m' m'' : Machine} : ended m m' → broken m' m'' → broken m m''

/-- The law that says nothing. -/
def Law.trivial : Law where
  ended _ _ := True
  broken _ _ := True
  refl _ := ⟨⟩
  trans _ _ := ⟨⟩
  late _ := ⟨⟩
  trans_broken _ _ := ⟨⟩

/-- What the law says, given an outcome. -/
def Law.Holds (L : Law) (m : Machine) : Option (Except Failure α) → Machine → Prop
  | some _ => L.ended m
  | none => L.broken m

@[simp] theorem Law.holds_some {L : Law} {m m' : Machine} {r : Except Failure α} :
    L.Holds m (some r) m' ↔ L.ended m m' := Iff.rfl

@[simp] theorem Law.holds_none {L : Law} {m m' : Machine} :
    L.Holds m (none : Option (Except Failure α)) m' ↔ L.broken m m' := Iff.rfl

/-- What the answer is does not matter. -/
@[simp] theorem Law.holds_map {L : Law} {m m' : Machine} {r : Option (Except Failure α)}
    {g : α → β} : L.Holds m (r.map (Except.map g)) m' ↔ L.Holds m r m' := by
  cases r <;> rfl

/-- What a law says from a later machine on, it says from an earlier one on. -/
theorem Law.Holds.of_ended {L : Law} {m m' m'' : Machine} {r : Option (Except Failure α)}
    (h : L.ended m m') (h' : L.Holds m' r m'') : L.Holds m r m'' := by
  cases r with
  | none => exact L.trans_broken h h'
  | some r => exact L.trans h h'

/-- The action obeys the law, wherever it starts. -/
def Action.Obeys (x : Action α) (L : Law) : Prop :=
  ∀ m, x.Ensures m (L.Holds m)

namespace Action.Obeys

variable {L : Law} {x : Action α} {f : α → Action β}

theorem bind (hx : x.Obeys L) (hf : ∀ a, (f a).Obeys L) : (x >>= f).Obeys L := by
  intro m
  refine (hx m).bind (fun a m' _ h => ?_) (fun _ _ h => h) fun _ h => h
  exact (hf a m').mono fun _ _ => .of_ended h

theorem observe (hx : x.Obeys L) : (observe x).Obeys L := by
  intro m
  exact (hx m).observe (fun _ _ h => h) fun _ h => h

theorem breakOff : (breakOff : Action α).Obeys L := by
  intro m
  exact L.late (L.refl m)

/-- A law that says less is obeyed too. -/
theorem mono {L' : Law} (hx : x.Obeys L) (hended : ∀ m m', L.ended m m' → L'.ended m m')
    (hbroken : ∀ m m', L.broken m m' → L'.broken m m') : x.Obeys L' := by
  intro m
  refine (hx m).mono fun r m' h => ?_
  cases r with
  | some _ => exact hended m m' h
  | none => exact hbroken m m' h

end Action.Obeys

/-! ### How actions are put together -/

/-- A family of operations, each given by what it does with a performer. -/
abbrev Operations := ∀ ⦃α : Type⦄, (Performer → Action α) → Prop

/-- No operation at all. -/
def Operations.none : Operations :=
  fun _ _ => False

/-- The constructions by the performer. -/
inductive Operations.Constructions : ∀ ⦃α : Type⦄, (Performer → Action α) → Prop
  | mk (cls newTarget : ClassId) (args : List Value) :
    Constructions fun perform => perform (.construct cls newTarget args)

/-- A single operation. -/
inductive Operations.Only {α : Type} (F : Performer → Action α) :
    ∀ ⦃β : Type⦄, (Performer → Action β) → Prop
  | mk : Only F F

/-- The machine as if nothing had been noted. -/
def Machine.untraced (m : Machine) : Machine :=
  { m with trace := [] }

/-- The action adds to the trace, but what it does is not decided by what was noted before. -/
def Action.IgnoresTrace (x : Action α) : Prop :=
  ∀ m, x.outcome m = ((x.outcome m.untraced).1,
    { (x.outcome m.untraced).2 with trace := (x.outcome m.untraced).2.trace ++ m.trace })

theorem popFrame_ignoresTrace : popFrame.IgnoresTrace := by
  intro m
  simp only [outcome_popFrame, Machine.untraced]
  cases m.frames <;> rfl

theorem settle_ignoresTrace (r : Except Failure α) : (settle r).IgnoresTrace := by
  intro m
  cases r <;> rfl

/-- On the machine, the action has effects of the given kinds and answers, or raises a
fault. -/
inductive Action.Does (A : Effect → Prop) (x : Action α) (m : Machine) : Prop
  | answers {a : α} {es : List Effect} (hes : ∀ e ∈ es, A e ∧ e.IsPlain)
      (h : x.outcome m = (some (.ok a), Effect.applyAll es m)) : Does A x m
  | raises {f : Fault} (hf : A (.note (.raised f)))
      (h : x.outcome m = (some (.error (.ofFault f)), (Effect.note (.raised f)).apply m)) :
      Does A x m

theorem Action.does_get (A : Effect → Prop) (m : Machine) : (get : Action Machine).Does A m :=
  .answers (List.forall_mem_nil _) rfl

/-- The action is put together from effects of the given kinds, from evaluations by the
performer, and from the given operations. What comes next may be decided by anything that the
machine has, other than its trace. There are only a few ways to deal with a failure:
it passes through; it gets a further layer, at the end of an activity; it is caught; or
something is taken back – a registration or a frame – before it goes on. -/
inductive MadeOf (A : Effect → Prop) (X : Operations) :
    ∀ ⦃α : Type⦄, (Performer → Action α) → Prop
  | steps {α : Type} {x : Action α} (hx : x.IgnoresTrace) (h : ∀ m, x.Does A m) :
      MadeOf A X fun _ => x
  | breakOff {α : Type} : MadeOf A X fun _ => (breakOff : Action α)
  | eval (e : Expr) (ctx : Context) : MadeOf A X fun perform => perform (.eval e ctx)
  | operation {α : Type} {F : Performer → Action α} (h : X F) : MadeOf A X F
  | bind {α β : Type} {F : Performer → Action α} {G : α → Performer → Action β}
      (hF : MadeOf A X F) (hG : ∀ a, MadeOf A X (G a)) :
      MadeOf A X fun perform => F perform >>= fun a => G a perform
  | read {α : Type} {F : Machine → Performer → Action α} (h : ∀ m, F m.untraced = F m)
      (hF : ∀ m, MadeOf A X (F m)) : MadeOf A X fun perform => get >>= fun m => F m perform
  | during {α : Type} {activity : Activity} {F : Performer → Action α}
      (h : ∀ e : Effect, e.IsNoteOf activity → A e) (hF : MadeOf A X F) :
      MadeOf A X fun perform => during activity (F perform)
  /-- A failure is caught, and something else goes on. -/
  | attempt {α β : Type} {F : Performer → Action α} {G : Except Failure α → Performer → Action β}
      {H : Failure → Performer → Action β} (hcaught : ∀ e, A (.note (.caught e)))
      (hF : MadeOf A X F) (hok : ∀ a, MadeOf A X (G (.ok a))) (hH : ∀ e, MadeOf A X (H e))
      (herror : ∀ e, G (.error e) = fun perform => note (.caught e) >>= fun _ => H e perform) :
      MadeOf A X fun perform => observe (F perform) >>= fun r => G r perform
  /-- Something is taken back before a failure goes on. -/
  | undoing {α β : Type} {F : Performer → Action α} {G : Except Failure α → Performer → Action β}
      {undo : Action Unit} (hF : MadeOf A X F) (hok : ∀ a, MadeOf A X (G (.ok a)))
      (hignores : undo.IgnoresTrace) (hundo : ∀ m, ∃ es, (∀ e ∈ es, A e ∧ e.IsUndoing) ∧
        undo.outcome m = (some (.ok ⟨⟩), Effect.applyAll es m))
      (herror : ∀ e, G (.error e) = fun _ => undo >>= fun _ => throw e) :
      MadeOf A X fun perform => observe (F perform) >>= fun r => G r perform
  /-- The innermost frame ends, before a failure goes on as well as before anything else. -/
  | popping {α β : Type} {F : Performer → Action α} {G : Frame → α → Performer → Action β}
      (hpop : A .pop) (hlost : A (.note (.raised .frameLost))) (hF : MadeOf A X F)
      (hG : ∀ f a, MadeOf A X (G f a)) :
      MadeOf A X fun perform => observe (F perform) >>= fun r => popFrame >>= fun f =>
        settle r >>= fun a => G f a perform

namespace MadeOf

variable {A B : Effect → Prop} {X Y : Operations}

/-! ### Simple cases -/

/-- Some effects, depending on the machine, and an answer. -/
theorem effects {x : Action α} (hx : x.IgnoresTrace)
    (h : ∀ m, ∃ a es, (∀ e ∈ es, A e ∧ e.IsPlain) ∧
      x.outcome m = (some (.ok a), Effect.applyAll es m)) : MadeOf A X fun _ => x := by
  refine .steps hx fun m => ?_
  obtain ⟨a, es, hes, h⟩ := h m
  exact .answers hes h

theorem pure (a : α) : MadeOf A X fun _ => (pure a : Action α) :=
  .effects (fun _ => rfl) fun _ => ⟨_, [], by simp, rfl⟩

theorem note {e : Event} (h : A (.note e)) (he : e.IsPlain) : MadeOf A X fun _ => note e :=
  .effects (fun _ => rfl) fun _ => ⟨_, [.note e], by simpa using ⟨h, he⟩, rfl⟩

theorem raise {f : Fault} (h : A (.note (.raised f))) :
    MadeOf A X fun _ => (raise f : Action α) :=
  .steps (fun _ => rfl) fun _ => .raises h rfl

theorem demand {r : Except Fault α} (h : ∀ f, r = .error f → A (.note (.raised f))) :
    MadeOf A X fun _ => demand r := by
  cases r with
  | ok a => exact .pure a
  | error f => exact .raise (h f rfl)

theorem discard {F : Performer → Action α} (hF : MadeOf A X F) :
    MadeOf A X fun perform => discard (F perform) := by
  simp only [discard_eq_bind]
  exact .bind hF fun _ => .pure _

/-! ### More effects, more operations -/

/-- What is made of some effects and operations is made of any others that include
them. -/
theorem mono {F : Performer → Action α} (hF : MadeOf A X F) (hA : ∀ e, A e → B e)
    (hX : ∀ ⦃β : Type⦄ (G : Performer → Action β), X G → MadeOf B Y G) : MadeOf B Y F := by
  induction hF with
  | steps hx h =>
    refine .steps hx fun m => ?_
    cases h m with
    | answers hes h => exact .answers (fun e he => ⟨hA e (hes e he).1, (hes e he).2⟩) h
    | raises hf h => exact .raises (hA _ hf) h
  | breakOff => exact .breakOff
  | eval e ctx => exact .eval e ctx
  | operation h => exact hX _ h
  | bind _ _ hF hG => exact .bind hF hG
  | read h _ hF => exact .read h hF
  | during h _ hF => exact .during (fun e he => hA e (h e he)) hF
  | attempt hcaught _ _ _ herror hF hok hH =>
    exact .attempt (fun e => hA _ (hcaught e)) hF hok hH herror
  | undoing _ _ hignores hundo herror hF hok =>
    refine .undoing hF hok hignores (fun m => ?_) herror
    obtain ⟨es, hes, h⟩ := hundo m
    exact ⟨es, fun e he => ⟨hA e (hes e he).1, (hes e he).2⟩, h⟩
  | popping hpop hlost _ _ hF hG => exact .popping (hA _ hpop) (hA _ hlost) hF hG

end MadeOf

/-! ### Comparing what is put together -/

/-- A way to compare two actions that goes over from the parts to the whole. How failures are dealt
with is forgotten here: there are single effects, one action after the other, and actions of which
the outcome is observed. -/
structure Comparison (A : Effect → Prop) where
  Holds : ∀ ⦃α : Type⦄, Action α → Action α → Prop
  effects : ∀ ⦃α : Type⦄ (x : Action α), x.IgnoresTrace →
    (∀ m, ∃ r es, (∀ e ∈ es, A e) ∧ x.outcome m = (some r, Effect.applyAll es m)) → Holds x x
  breakOff : ∀ ⦃α : Type⦄, Holds (breakOff : Action α) breakOff
  bind : ∀ ⦃α β : Type⦄ ⦃x y : Action α⦄ ⦃f g : α → Action β⦄, Holds x y →
    (∀ a, Holds (f a) (g a)) → Holds (x >>= f) (y >>= g)
  read : ∀ ⦃α : Type⦄ ⦃f g : Machine → Action α⦄, (∀ m, f m.untraced = f m) →
    (∀ m, g m.untraced = g m) → (∀ m, Holds (f m) (g m)) → Holds (get >>= f) (get >>= g)
  observe : ∀ ⦃α : Type⦄ ⦃x y : Action α⦄, Holds x y → Holds (observe x) (observe y)

namespace Comparison

variable {A B : Effect → Prop}

/-- If it does not matter that the trace is not looked at, reading the machine is an action as any
other. -/
def ofActions (Holds : ∀ ⦃α : Type⦄, Action α → Action α → Prop)
    (effects : ∀ ⦃α : Type⦄ (x : Action α), (∀ m, ∃ r es, (∀ e ∈ es, A e) ∧
      x.outcome m = (some r, Effect.applyAll es m)) → Holds x x)
    (breakOff : ∀ ⦃α : Type⦄, Holds (ClassMachine.breakOff : Action α) ClassMachine.breakOff)
    (bind : ∀ ⦃α β : Type⦄ ⦃x y : Action α⦄ ⦃f g : α → Action β⦄, Holds x y →
      (∀ a, Holds (f a) (g a)) → Holds (x >>= f) (y >>= g))
    (observe : ∀ ⦃α : Type⦄ ⦃x y : Action α⦄, Holds x y →
      Holds (ClassMachine.observe x) (ClassMachine.observe y)) : Comparison A where
  Holds := Holds
  effects _ x _ h := effects x h
  breakOff := breakOff
  bind := bind
  read _ _ _ _ _ h := bind (effects get fun _ => ⟨_, [], by simp, rfl⟩) h
  observe := observe

variable (K : Comparison B)

theorem pure (a : α) : K.Holds (pure a) (pure a) :=
  K.effects _ (fun _ => rfl) fun _ => ⟨_, [], by simp, rfl⟩

/-- The two actions compare, and then both are done with what they answer. -/
theorem bind_pure {x y : Action α} (h : K.Holds x y) (f : α → β) :
    K.Holds (x >>= fun a => Pure.pure (f a)) (y >>= fun a => Pure.pure (f a)) :=
  K.bind h fun a => K.pure (f a)

theorem note {e : Event} (h : B (.note e)) : K.Holds (note e) (note e) :=
  K.effects _ (fun _ => rfl) fun _ => ⟨_, [.note e], by simpa, rfl⟩

theorem settle (r : Except Failure α) : K.Holds (settle r) (settle r) :=
  K.effects _ (settle_ignoresTrace r) fun _ => by cases r <;> exact ⟨_, [], by simp, rfl⟩

end Comparison

section Compared

variable {A B : Effect → Prop} {K : Comparison B} {p q : Performer} {F : Performer → Action α}

/-- **What is made of the same parts compares as they do.** -/
theorem MadeOf.compared {X : Operations} (hF : MadeOf A X F) (hA : ∀ e, A e → B e)
    (heval : ∀ e ctx, K.Holds (p (.eval e ctx)) (q (.eval e ctx)))
    (hX : ∀ ⦃β : Type⦄ (G : Performer → Action β), X G → K.Holds (G p) (G q)) :
    K.Holds (F p) (F q) := by
  induction hF with
  | steps hx h =>
    refine K.effects _ hx fun m => ?_
    cases h m with
    | answers hes h => exact ⟨_, _, fun e he => hA e (hes e he).1, h⟩
    | raises hf h => exact ⟨_, [_], by simpa using hA _ hf, h⟩
  | breakOff => exact @K.breakOff _
  | eval e ctx => exact heval e ctx
  | operation h => exact hX _ h
  | bind _ _ hF hG => exact K.bind hF hG
  | read h _ hF => exact K.read (fun m => congrFun (h m) p) (fun m => congrFun (h m) q) hF
  | during h _ hF =>
    refine K.bind (K.note (hA _ (h _ (.inl rfl)))) fun _ => K.bind (K.observe hF) fun r => ?_
    cases r with
    | ok a => exact K.bind (K.note (hA _ (h _ (.inr (.inl rfl))))) fun _ => K.pure a
    | error e =>
      exact K.bind (K.note (hA _ (h _ (.inr (.inr rfl))))) fun _ => K.settle (.error _)
  | attempt hcaught _ _ _ herror hF hok hH =>
    refine K.bind (K.observe hF) fun r => ?_
    cases r with
    | ok a => exact hok a
    | error e =>
      rw [herror]
      exact K.bind (K.note (hA _ (hcaught e))) fun _ => hH e
  | undoing _ _ hignores hundo herror hF hok =>
    refine K.bind (K.observe hF) fun r => ?_
    cases r with
    | ok a => exact hok a
    | error e =>
      rw [herror]
      refine K.bind (K.effects _ hignores fun m => ?_) fun _ => K.settle (.error e)
      obtain ⟨es, hes, h⟩ := hundo m
      exact ⟨_, es, fun e he => hA e (hes e he).1, h⟩
  | popping hpop hlost _ _ hF hG =>
    refine K.bind (K.observe hF) fun r => K.bind (K.effects _ popFrame_ignoresTrace fun m => ?_)
      fun f => K.bind (K.settle r) (hG f)
    rcases hm : m.frames with _ | ⟨f, rest⟩
    · exact ⟨.error (.ofFault .frameLost), [.note (.raised .frameLost)],
        by simpa using hA _ hlost, by simp [outcome_popFrame, hm, Effect.apply]⟩
    · exact ⟨.ok f, [.pop], by simpa using hA _ hpop,
        by simp [outcome_popFrame, hm, Effect.apply]⟩

/-- So does what is made of tasks, if the performers compare. -/
theorem MadeOf.compared_constructions (hF : MadeOf A .Constructions F) (hA : ∀ e, A e → B e)
    (hpq : ∀ ⦃β : Type⦄ (task : Task β), K.Holds (p task) (q task)) : K.Holds (F p) (F q) := by
  refine hF.compared hA (fun e ctx => hpq (.eval e ctx)) ?_
  rintro β _ ⟨cls, newTarget, args⟩
  exact hpq (.construct cls newTarget args)

end Compared

/-! ### The law of what is put together -/

/-- The effect obeys the law. -/
def Law.Allows (L : Law) (e : Effect) : Prop :=
  ∀ m, L.ended m (e.apply m)

theorem Law.ended_applyAll {L : Law} {es : List Effect} (h : ∀ e ∈ es, L.Allows e)
    (m : Machine) : L.ended m (Effect.applyAll es m) := by
  induction es generalizing m with
  | nil => exact L.refl m
  | cons e es ih =>
    rw [Effect.applyAll_cons]
    exact L.trans (h e (by simp) m) (ih (fun e he => h e (by simp [he])) _)

/-- A law is a comparison that looks at one of the two actions only. -/
def Law.comparison (L : Law) : Comparison L.Allows :=
  .ofActions (fun _ x _ => x.Obeys L)
    (fun _ x h m => by
      obtain ⟨r, es, hes, h⟩ := h m
      rw [Action.Ensures, h]
      exact L.ended_applyAll hes m)
    (fun _ => .breakOff) (fun _ _ _ _ _ _ h hf => h.bind hf) fun _ _ _ h => h.observe

/-- **The law of the parts is the law of the whole.** -/
theorem MadeOf.obeys {A : Effect → Prop} {X : Operations} {L : Law} {perform : Performer}
    {F : Performer → Action α} (hF : MadeOf A X F) (hA : ∀ e, A e → L.Allows e)
    (hX : ∀ ⦃β : Type⦄ (G : Performer → Action β), X G → (G perform).Obeys L)
    (heval : ∀ e ctx, (perform (.eval e ctx)).Obeys L) :
    (F perform).Obeys L :=
  hF.compared (K := L.comparison) (p := perform) (q := perform) hA heval hX

/-- It is so for what is made of effects and evaluations only. -/
theorem MadeOf.obeys_evaluations {A : Effect → Prop} {L : Law} {perform : Performer}
    {F : Performer → Action α} (hF : MadeOf A .none F) (hA : ∀ e, A e → L.Allows e)
    (heval : ∀ e ctx, (perform (.eval e ctx)).Obeys L) : (F perform).Obeys L :=
  hF.obeys hA (fun _ _ h => h.elim) heval

/-- So is the law of tasks, for what is made of them. -/
theorem MadeOf.obeys_tasks {A : Effect → Prop} {L : Law} {perform : Performer}
    {F : Performer → Action α} (hF : MadeOf A .Constructions F) (hA : ∀ e, A e → L.Allows e)
    (hp : ∀ ⦃β : Type⦄ (task : Task β), (perform task).Obeys L) : (F perform).Obeys L :=
  hF.compared_constructions (K := L.comparison) (p := perform) (q := perform) hA hp

/-- The law of what needs no performer. -/
theorem MadeOf.obeys_alone {A : Effect → Prop} {L : Law} {x : Action α}
    (hx : MadeOf A .none fun _ => x) (hA : ∀ e, A e → L.Allows e) : x.Obeys L :=
  @MadeOf.obeys α A .none L (fun _ _ => ClassMachine.breakOff) (fun _ => x) hx hA
    (fun _ _ h => h.elim) fun _ _ => .breakOff

/-! ### Better performers -/

/-- Wherever the first action ends, the second one ends in the same way. -/
def Action.Refines (x y : Action α) : Prop :=
  ∀ m r m', x.outcome m = (some r, m') → y.outcome m = (some r, m')

namespace Action.Refines

variable {x y : Action α}

theorem refl (x : Action α) : x.Refines x :=
  fun _ _ _ h => h

theorem bind (h : x.Refines y) {f g : α → Action β} (hfg : ∀ a, (f a).Refines (g a)) :
    (x >>= f).Refines (y >>= g) := by
  intro m r m' hx
  simp only [outcome_bind] at hx ⊢
  -- the first part ends in the second action as it does in the first one
  rcases hm : x.outcome m with ⟨_ | e | a, m₁⟩ <;> rw [hm] at hx
  · simp at hx
  · rw [h _ _ _ hm]
    exact hx
  · rw [h _ _ _ hm]
    exact hfg a _ _ _ hx

theorem observe (h : x.Refines y) : (observe x).Refines (observe y) := by
  intro m r m' hx
  simp only [outcome_observe] at hx ⊢
  rcases hm : x.outcome m with ⟨_ | r₁, m₁⟩ <;> rw [hm] at hx
  · simp at hx
  · rw [h _ _ _ hm]
    exact hx

end Action.Refines

/-- Actions are compared by where they end. -/
def refinement : Comparison fun _ => True :=
  .ofActions (fun _ x y => x.Refines y) (fun _ x _ => .refl x) (fun _ => .refl _)
    (fun _ _ _ _ _ _ h hfg => h.bind hfg) fun _ _ _ h => h.observe

/-- **A performer that ends more tasks ends more actions**, and those that ended before
end as before. -/
theorem MadeOf.refines {A : Effect → Prop} {p q : Performer} {F : Performer → Action α}
    (hF : MadeOf A .Constructions F)
    (hpq : ∀ ⦃β : Type⦄ (task : Task β), (p task).Refines (q task)) :
    (F p).Refines (F q) :=
  hF.compared_constructions (K := refinement) (p := p) (q := q) (fun _ _ => trivial) hpq

end ClassMachine
