import ClassMachine.Proofs.CallFree
import ClassMachine.Proofs.ParentCalls

/-!
# Chains of default constructors

A class may have a constructor of its own at the base of its lineage and nowhere else: each class
behind the base class has the default constructor, which calls that of the parent with the same
arguments. A construction of such a class first goes down the whole lineage, one frame for each
class, and nothing else happens on the way. If there is no room for one of the frames it fails
there, and nothing but the calls is noted (`ClassMachine.Action.IsRefused`).

If there is room for all of them, the base class makes the object, and then each class has its turn
in its frame: the fields of the base class, its body, and then the fields of the classes behind it
in order, all on this object (`ClassMachine.Ascends`). The first turn that fails is the last one,
and what it fails with is what the construction fails with (`ClassMachine.Climbs`). Between the
turns frames are taken off and returns noted, and that is all (`ClassMachine.Machine.Shifts`).

Main statements: `ClassMachine.constructFor_climbs` and `ClassMachine.constructFor_chain_refused`.
-/

namespace ClassMachine

variable {α : Type}

/-! ### What is to be shown -/

/-- These are the classes from a base class on up to the class of that number, and all but the base
class have the default constructor. -/
inductive Registry.DefaultChain (r : Registry) (base : Class) : List ClassId → ClassId → Prop
  | base {cls : ClassId} (h : r.class? cls = some base) (hparent : base.parent = none) :
    DefaultChain r base [cls] cls
  | derived {ids : List ClassId} {parent cls : ClassId} {c : Class}
      (rest : DefaultChain r base ids parent) (h : r.class? cls = some c)
      (hparent : c.parent = some parent) (hdefault : c.constructor = none) :
    DefaultChain r base (ids ++ [cls]) cls

/-- The machine in which all constructors of the chain have been called, each in a frame of its
own, and nothing else has happened. -/
def Machine.descended (m : Machine) (newTarget : ClassId) (ids : List ClassId) : Machine :=
  ids.foldr (fun id m => m.begun id newTarget) m

/-- What the classes of the chain do with the object, one after the other: the fields of the base
class, its body if it has one, and then the fields of the others. -/
def chainPlan (base : Class) (o : ObjectId) (args : List Value) : List ClassId → List Milestone
  | [] => []
  | first :: rest =>
    .fields first o :: (base.constructor.map fun _ => .body first (some o) args).toList ++
      rest.map (.fields · o)

/-- The class that has its turn. -/
def Milestone.cls : Milestone → ClassId
  | fields cls _ | body cls .. => cls

/-- What is done then. -/
inductive Milestone.Does (perform : Performer) (base : Class) : Milestone → Action Unit → Prop
  | fields (cls : ClassId) (target : ObjectId) :
    Does perform base (.fields cls target) (installInstanceFields perform target cls)
  | body {body : Expr} (h : base.constructor = some body) (cls : ClassId)
      (this : Option ObjectId) (args : List Value) :
    Does perform base (.body cls this args) (runBody perform cls this body args)

/-- Events that tell of what has returned. -/
def Event.IsReturn : Event → Prop
  | superReturned .. | constructed .. => True
  | _ => False

/-- The second machine is the first one with other frames, and with some returns noted. -/
def Machine.Shifts (m m' : Machine) : Prop :=
  ∃ frames new, m' = { m with frames, trace := new ++ m.trace } ∧ ∀ e ∈ new, e.IsReturn

/-- From the first machine on, the classes have had these turns, one after the other, each in a
frame of its own with the object. All but the last one have succeeded, and what the last one has
come to is this outcome and this machine. -/
inductive Ascends (settings : Settings) (base : Class) (newTarget : ClassId) (o : ObjectId)
    (start : Machine) : List Milestone → Option (Except Failure Unit) → Machine → Prop
  | start : Ascends settings base newTarget o start [] (some (.ok ⟨⟩)) start
  | next {before : List Milestone} {turn : Milestone} {m m₁ m' : Machine} {levels : Nat}
      {x : Action Unit} {r : Option (Except Failure Unit)}
      (hbefore : Ascends settings base newTarget o start before (some (.ok ⟨⟩)) m)
      (hshifts : m.Shifts m₁)
      (hframe : ∃ f ∈ m₁.frames.head?, f.cls = turn.cls ∧ f.newTarget = newTarget ∧
        f.this = some o)
      (hx : turn.Does (interpret settings levels) base x) (h : x.outcome m₁ = (r, m')) :
    Ascends settings base newTarget o start (before ++ [turn]) r m'

/-- How a construction of the class at the end of the chain goes up again: the classes have had
these turns, and they have come to the first outcome and machine. The construction has come to the
second ones. -/
structure Climbs (settings : Settings) (base c : Class) (ids : List ClassId) (args : List Value)
    (m : Machine) (turns : List Milestone) (r₁ : Option (Except Failure Unit)) (m₁ : Machine)
    (r : Option (Except Failure ObjectId)) (m' : Machine) : Prop where
  /-- They begin when all constructors have been called and the object has been made. -/
  ascends : Ascends settings base c.id m.store.size ((m.descended c.id ids).withInstance c) turns
    r₁ m₁
  plan : turns <+: chainPlan base m.store.size args ids
  /-- If the last one has succeeded, it was the last one of the plan. -/
  complete : r₁ = some (.ok ⟨⟩) → turns = chainPlan base m.store.size args ids
  answer : r = r₁.map (Except.map fun _ => m.store.size)
  shifts : m₁.Shifts m'
  frames : r.isSome → m'.frames = m.frames

/-- The construction is refused for lack of room, at the first class that there is no room for.
It leaves the second machine with the calls up to there noted, and that is all. -/
def Action.IsRefused (x : Action α) (settings : Settings) (newTarget : ClassId)
    (ids : List ClassId) (m m' : Machine) : Prop :=
  ∃ called, called <:+ ids ∧ called.length = settings.maxDepth - m.frames.length + 1 ∧
    x.FailsFrom m { m' with trace := called.map (.called · newTarget) ++ m'.trace } .construction
      (.tooDeep settings.maxDepth)

/-! ### Going down -/

section Descend

variable {m : Machine} {newTarget : ClassId} {ids : List ClassId}

theorem Machine.descended_append (id : ClassId) :
    m.descended newTarget (ids ++ [id]) = (m.begun id newTarget).descended newTarget ids := by
  simp [descended]

/-- The frames are there, the calls are noted, and the rest is as it was. -/
theorem Machine.descended_eq : m.descended newTarget ids =
    { m with
      frames := ids.map (fun id => { cls := id, newTarget }) ++ m.frames
      trace := ids.map (.called · newTarget) ++ m.trace } := by
  induction ids with
  | nil => rfl
  | cons id rest ih =>
    rw [descended, List.foldr_cons, ← descended, ih]
    rfl

theorem chainPlan_append (base : Class) (o : ObjectId) (args : List Value) (hids : ids ≠ [])
    (id : ClassId) : chainPlan base o args (ids ++ [id]) =
      chainPlan base o args ids ++ [.fields id o] := by
  cases ids with
  | nil => exact absurd rfl hids
  | cons first rest => simp [chainPlan]

theorem Registry.DefaultChain.ne_nil {r : Registry} {base : Class} {cls : ClassId}
    (h : r.DefaultChain base ids cls) : ids ≠ [] := by
  cases h <;> simp

end Descend

/-! ### Between the turns -/

namespace Machine.Shifts

variable {m m' m'' : Machine}

theorem frames (m : Machine) (frames : List Frame) : m.Shifts { m with frames } :=
  ⟨frames, [], rfl, by simp⟩

theorem refl (m : Machine) : m.Shifts m :=
  frames m m.frames

theorem trans (h : m.Shifts m') (h' : m'.Shifts m'') : m.Shifts m'' := by
  obtain ⟨fs, new, rfl, hnew⟩ := h
  obtain ⟨fs', new', rfl, hnew'⟩ := h'
  exact ⟨fs', new' ++ new, by simp, List.forall_mem_append.mpr ⟨hnew', hnew⟩⟩

theorem note {e : Event} (he : e.IsReturn) (m : Machine) :
    m.Shifts ((Effect.note e).apply m) :=
  ⟨m.frames, [e], rfl, by simpa using he⟩

end Machine.Shifts

/-! ### One construction -/

/-- The constructor is the call of the parent constructor, but for the answer. -/
theorem Class.outcome_runDerived_of_default {perform : Performer} {m m' : Machine} {c : Class}
    {args : List Value} {r : Option (Except Failure ObjectId)} (hdefault : c.constructor = none)
    (cls : ClassId) (h : (superCall perform args).outcome m = (r, m')) :
    (c.runDerived perform cls args).outcome m = (r.map (Except.map fun _ => ⟨⟩), m') := by
  rw [runDerived, hdefault]
  rw [discard_eq_bind, outcome_bind, h]
  rcases r with _ | _ | _ <;> rfl

/-- What a construction of a class with the default constructor comes to, by what the construction
through the parent has come to. -/
structure Machine.FollowsParent (m : Machine) (perform : Performer) (cls newTarget : ClassId)
    (r₁ : Option (Except Failure ObjectId)) (m₁ : Machine) (r : Option (Except Failure ObjectId))
    (m' : Machine) : Prop where
  frames : r.isSome → m'.frames = m.frames
  /-- If that has not succeeded, nothing more is done. -/
  failed : (∀ o, r₁ ≠ some (.ok o)) → r = r₁ ∧ m₁.Shifts m'
  /-- Otherwise the class has its turn. -/
  turned : ∀ o, r₁ = some (.ok o) → ∃ f r₂ m₂, f.cls = cls ∧ f.newTarget = newTarget ∧
    f.this = some o ∧ (installInstanceFields perform o cls).outcome
      { m₁ with frames := f :: m.frames } = (r₂, m₂) ∧
    r = r₂.map (Except.map fun _ => o) ∧ m₂.Shifts m'

section Step

variable {settings : Settings} {perform : Performer}
  (hp : perform.Keeps (framesContract settings)) {m : Machine} {cls newTarget parent : ClassId}
  {c : Class} (hroom : m.frames.length < settings.maxDepth)
  (hc : m.registry.class? cls = some c) (hkind : c.kind = .derived)
  (hparent : c.parent = some parent) (hdefault : c.constructor = none) {args : List Value}

include hp hroom hc hkind hparent hdefault

/-- If the construction through the parent fails, so does this one, and nothing else happens. -/
theorem constructFor_default_of_error {e : Failure} {m₁ : Machine}
    (h : (perform (.construct parent newTarget args)).outcome (m.begun cls newTarget) =
      (some (.error e), m₁)) :
    (constructFor settings perform cls newTarget args).outcome m =
      (some (.error e), { m₁ with frames := m.frames }) := by
  have hcall : (m.begun cls newTarget).CallsParent perform args { cls, newTarget } m.frames
    parent := callsParent hp rfl hc hparent args
  exact (constructsDerived hp hc hkind newTarget args).failed hroom e m₁
    (Class.outcome_runDerived_of_default hdefault cls (hcall.failed e m₁ h).1)

variable (args) in
/-- **A construction of a class with the default constructor** is a construction through the
parent, and then the turn of the class if that succeeds. -/
theorem constructFor_default :
    (constructFor settings perform cls newTarget args).Ensures m fun r m' => ∃ r₁ m₁,
      (perform (.construct parent newTarget args)).outcome (m.begun cls newTarget) = (r₁, m₁) ∧
      m.FollowsParent perform cls newTarget r₁ m₁ r m' := by
  have hcall : (m.begun cls newTarget).CallsParent perform args { cls, newTarget } m.frames
    parent := callsParent hp rfl hc hparent args
  have hconstruct := constructsDerived hp hc hkind newTarget args
  rcases h : (perform (.construct parent newTarget args)).outcome (m.begun cls newTarget) with
    ⟨_ | e | o, m₁⟩
  · have hrun := Class.outcome_runDerived_of_default hdefault cls (hcall.broken m₁ h)
    exact .of_outcome (hconstruct.broken hroom m₁ hrun)
      ⟨none, m₁, rfl, by simp, fun _ => ⟨rfl, .refl m₁⟩, by simp⟩
  · have herror := constructFor_default_of_error hp hroom hc hkind hparent hdefault h
    exact .of_outcome herror ⟨some (.error e), m₁, rfl, fun _ => rfl,
      fun _ => ⟨rfl, .frames m₁ m.frames⟩, by simp⟩
  · let f : Frame := Frame.adopting { cls, newTarget } o
    -- the parent has succeeded, so the class has its turn
    have follows {r : Option (Except Failure ObjectId)} {r₂ : Option (Except Failure Unit)}
        {m₂ m' : Machine} (h₂ : (installInstanceFields perform o cls).outcome
          { m₁ with frames := f :: m.frames } = (r₂, m₂))
        (hr : r = r₂.map (Except.map fun _ => o)) (hshifts : m₂.Shifts m')
        (hframes : r.isSome → m'.frames = m.frames) :
        m.FollowsParent perform cls newTarget (some (.ok o)) m₁ r m' := by
      refine ⟨hframes, fun hno => absurd rfl (hno o), fun o' ho' => ?_⟩
      obtain rfl : o = o' := by simpa using ho'
      exact ⟨f, r₂, m₂, rfl, rfl, rfl, h₂, hr, hshifts⟩
    rcases h₂ : (installInstanceFields perform o cls).outcome
      { m₁ with frames := f :: m.frames } with ⟨_ | e | _, m₂⟩
    · have hrun := Class.outcome_runDerived_of_default hdefault cls
        (hcall.installing o m₁ m₂ h rfl h₂)
      exact .of_outcome (hconstruct.broken hroom m₂ hrun)
        ⟨_, m₁, rfl, follows h₂ rfl (.refl m₂) (by simp)⟩
    · have hrun := Class.outcome_runDerived_of_default hdefault cls
        (hcall.uninstalled o m₁ e m₂ h rfl h₂).1
      exact .of_outcome (hconstruct.failed hroom e m₂ hrun)
        ⟨_, m₁, rfl, follows h₂ rfl (.frames m₂ m.frames) fun _ => rfl⟩
    · have hrun := Class.outcome_runDerived_of_default hdefault cls
        (hcall.returned o m₁ m₂ h rfl h₂)
      obtain ⟨f', hf', hbound, -⟩ := hconstruct.ended hroom _ hrun
      obtain ⟨rfl, -⟩ := List.cons.inj hf'
      have hshifts : m₂.Shifts
          { m₂ with frames := m.frames, trace := .superReturned cls o :: m₂.trace } :=
        ⟨m.frames, [.superReturned cls o], rfl, by simp [Event.IsReturn]⟩
      exact .of_outcome (hbound o rfl) ⟨_, m₁, rfl, follows h₂ rfl hshifts fun _ => rfl⟩

end Step

/-- What the constructor of a base class does with its object when the fields are installed. -/
def Class.runBase (c : Class) (perform : Performer) (cls : ClassId) (this : ObjectId)
    (args : List Value) : Action Unit :=
  match c.constructor with
  | some body => runBody perform cls (some this) body args
  | none => pure ⟨⟩

section Base

variable {settings : Settings} {levels : Nat} {m : Machine} {cls : ClassId} {base c : Class}
  (hbase : m.registry.class? cls = some base) (hkind : base.kind = .base)
  (hc : m.registry.class? c.id = some c) (args : List Value)

include hbase hkind hc

/-- The constructor of a base class makes the object first, and binds it. -/
theorem outcome_runConstructor_of_base (perform : Performer) :
    (runConstructor perform cls c.id args).outcome (m.begun cls c.id) =
      (installInstanceFields perform m.store.size cls >>= fun _ =>
        enterPhase .fieldsInstalled >>= fun _ => enterPhase .body >>= fun _ =>
          base.runBase perform cls m.store.size args).outcome
        { (m.begun cls c.id).withInstance c with
          frames :=
            { cls, newTarget := c.id, this := some m.store.size, phase := .allocated } ::
              m.frames } := by
  have hallocate : (allocate c.id).outcome (m.begun cls c.id) =
      (some (.ok m.store.size), (m.begun cls c.id).withInstance c) :=
    Machine.outcome_allocate_of_some (m := m.begun cls c.id) hc
  have hframes : ((m.begun cls c.id).withInstance c).frames =
      { cls, newTarget := c.id } :: m.frames := rfl
  have hclass : (m.begun cls c.id).registry.class? cls = some base := hbase
  rw [runConstructor, outcome_bind, outcome_classAt_of_some hclass]
  simp only [hkind]
  rw [outcome_bind, hallocate]
  cases hbody : base.constructor <;>
    simp only [adopt, bind_assoc, outcome_bind, outcome_bindThis hframes, Class.runBase, hbody]

variable (settings levels) in
/-- It has its turns in a frame that has the object, up to the first one that fails. -/
theorem runConstructor_base :
    (runConstructor (interpret settings levels) cls c.id args).Ensures (m.begun cls c.id)
      fun r m' => ∃ turns m₁,
        Ascends settings base c.id m.store.size ((m.begun cls c.id).withInstance c) turns r m₁ ∧
        turns <+: chainPlan base m.store.size args [cls] ∧
        (r = some (.ok ⟨⟩) → turns = chainPlan base m.store.size args [cls]) ∧ m₁.Shifts m' ∧
        (r.isSome → ∃ f, m'.frames = f :: m.frames ∧ f.this = some m.store.size) := by
  let o := m.store.size
  let start := (m.begun cls c.id).withInstance c
  let f : Frame := { cls, newTarget := c.id, this := some o, phase := .allocated }
  have hp := interpret_keeps_frames settings levels
  have hrun := outcome_runConstructor_of_base hbase hkind hc args (interpret settings levels)
  -- the fields have the first turn
  have hfields {r : Option (Except Failure Unit)} {m₁ : Machine}
      (h : (installInstanceFields (interpret settings levels) o cls).outcome
        { start with frames := f :: m.frames } = (r, m₁)) :
      Ascends settings base c.id o start [.fields cls o] r m₁ :=
    .next .start (.frames start _) ⟨f, rfl, rfl, rfl, rfl⟩ (.fields cls o) h
  rcases h : (installInstanceFields (interpret settings levels) o cls).outcome
    { start with frames := f :: m.frames } with ⟨_ | r₁, m₁⟩
  · rw [outcome_bind, h] at hrun
    exact .of_outcome hrun ⟨_, m₁, hfields h, by simp [chainPlan, o], by simp, .refl m₁, by simp⟩
  have hm₁ : m₁.frames = f :: m.frames := installInstanceFields_frames hp rfl (by simp [f]) h
  rw [outcome_bind, h] at hrun
  cases r₁ with
  | error e =>
    exact .of_outcome hrun ⟨_, m₁, hfields h, by simp [chainPlan, o], by simp, .refl m₁,
      fun _ => ⟨f, hm₁, rfl⟩⟩
  | ok _ =>
    let f₁ : Frame := { f with phase := .body }
    have hbody : (runConstructor (interpret settings levels) cls c.id args).outcome
        (m.begun cls c.id) = (base.runBase (interpret settings levels) cls o args).outcome
          { m₁ with frames := f₁ :: m.frames } := by
      rw [hrun]
      simp only [outcome_bind, outcome_enterPhase hm₁]
      rfl
    cases hconstructor : base.constructor with
    | none =>
      simp only [Class.runBase, hconstructor] at hbody
      exact .of_outcome hbody ⟨_, m₁, hfields h, by simp [chainPlan, o],
        fun _ => by simp [chainPlan, hconstructor, o], .frames m₁ _, fun _ => ⟨f₁, rfl, rfl⟩⟩
    | some body =>
      simp only [Class.runBase, hconstructor] at hbody
      rcases h₂ : (runBody (interpret settings levels) cls (some o) body args).outcome
        { m₁ with frames := f₁ :: m.frames } with ⟨r₂, m₂⟩
      -- then the body has its turn, if there is one
      have hturns : Ascends settings base c.id o start [.fields cls o, .body cls (some o) args]
          r₂ m₂ :=
        .next (hfields h) (.frames m₁ _) ⟨f₁, rfl, rfl, rfl, rfl⟩
          (.body hconstructor cls (some o) args) h₂
      have hm₂ (hr : r₂.isSome) : m₂.frames = f₁ :: m.frames := by
        have hlaw := runBody_framesLaw hp cls (some o) body args
          { m₁ with frames := f₁ :: m.frames }
        rw [Action.Ensures, h₂] at hlaw
        obtain ⟨r₂, rfl⟩ := Option.isSome_iff_exists.mp hr
        exact hlaw.1.eq_of_bound (by simp [f₁, f])
      exact .of_outcome (hbody.trans h₂) ⟨_, m₂, hturns, by simp [chainPlan, hconstructor, o],
        fun _ => by simp [chainPlan, hconstructor, o], .refl m₂, fun hr => ⟨f₁, hm₂ hr, rfl⟩⟩

variable (levels) in
/-- **A construction of the base class** begins the way up. -/
theorem constructFor_base (hroom : m.frames.length < settings.maxDepth) :
    (constructFor settings (interpret settings levels) cls c.id args).Ensures m fun r m' =>
      ∃ turns r₁ m₁, Climbs settings base c [cls] args m turns r₁ m₁ r m' := by
  have hrun := runConstructor_base settings levels hbase hkind hc args
  have hfor := outcome_constructFor hroom (interpret settings levels) cls c.id args
  rcases h : (runConstructor (interpret settings levels) cls c.id args).outcome
    (m.begun cls c.id) with ⟨r, m'⟩
  rw [Action.Ensures, h] at hrun
  rw [h] at hfor
  obtain ⟨turns, m₁, hturns, hplan, hall, hshifts, hframes⟩ := hrun
  rcases r with _ | e | _
  · exact .of_outcome hfor ⟨turns, _, m₁, hturns, hplan, hall, rfl, hshifts, by simp⟩
  · obtain ⟨f, hf, -⟩ := hframes rfl
    exact .of_outcome (hfor.trans (outcome_finishConstruction_of_error hf e))
      ⟨turns, _, m₁, hturns, hplan, hall, rfl, hshifts.trans (.frames m' _), fun _ => rfl⟩
  · obtain ⟨f, hf, hthis⟩ := hframes rfl
    have hfinish := outcome_finishConstruction_of_ok hf
    rw [hthis] at hfinish
    exact .of_outcome (hfor.trans hfinish)
      ⟨turns, _, m₁, hturns, hplan, hall, rfl, hshifts.trans (.frames m' _), fun _ => rfl⟩

end Base

/-! ### The whole chain -/

section Chain

variable {settings : Settings} {levels : Nat} {m : Machine} {base c : Class} {ids : List ClassId}
  {cls : ClassId}

/-- There is a level left for the parent. -/
theorem Registry.DefaultChain.exists_level {r : Registry} (h : r.DefaultChain base ids cls)
    (hlevels : ids.length ≤ levels) : ∃ inner, ids.length ≤ inner + 1 ∧
      ∀ settings newTarget args, interpret settings levels (.construct cls newTarget args) =
        constructFor settings (interpret settings inner) cls newTarget args := by
  have hpositive : 0 < ids.length := List.length_pos_iff.mpr h.ne_nil
  obtain ⟨inner, rfl⟩ : ∃ inner, levels = inner + 1 :=
    Nat.exists_eq_succ_of_ne_zero (Nat.ne_of_gt (Nat.lt_of_lt_of_le hpositive hlevels))
  exact ⟨inner, hlevels, fun _ _ _ => by rw [interpret_succ]; rfl⟩

/-- **One class more**: the turns are those of the parent, and then that of the class. -/
theorem Climbs.derived {args : List Value} {turns : List Milestone}
    {r₁ r : Option (Except Failure ObjectId)} {r₂ : Option (Except Failure Unit)}
    {m₁ m₂ m' : Machine}
    (h : Climbs settings base c ids args (m.begun cls c.id) turns r₂ m₂ r₁ m₁) (hids : ids ≠ [])
    (hfollows : m.FollowsParent (interpret settings levels) cls c.id r₁ m₁ r m') :
    ∃ turns r₁ m₁, Climbs settings base c (ids ++ [cls]) args m turns r₁ m₁ r m' := by
  obtain ⟨hturns, hplan, hall, hr₁, hshifts, -⟩ := h
  rw [← Machine.descended_append] at hturns
  have happend : chainPlan base m.store.size args (ids ++ [cls]) =
      chainPlan base m.store.size args ids ++ [.fields cls m.store.size] :=
    chainPlan_append base m.store.size args hids cls
  by_cases hok : r₂ = some (.ok ⟨⟩)
  · -- the parent has succeeded, so the class has its turn
    subst hok
    obtain ⟨f, r₃, m₃, hcls, hnewTarget, hthis, h₃, hr, hshifts₃⟩ := hfollows.turned _ hr₁
    obtain rfl : turns = chainPlan base m.store.size args ids := hall rfl
    have hturn : Ascends settings base c.id m.store.size
        ((m.descended c.id (ids ++ [cls])).withInstance c)
        (chainPlan base m.store.size args ids ++ [.fields cls m.store.size]) r₃ m₃ :=
      .next hturns (hshifts.trans (.frames m₁ _)) ⟨f, rfl, hcls, hnewTarget, hthis⟩
        (.fields cls m.store.size) h₃
    exact ⟨_, r₃, m₃, hturn, happend ▸ List.prefix_rfl, fun _ => happend.symm, hr, hshifts₃,
      hfollows.frames⟩
  · have hno : ∀ o, r₁ ≠ some (.ok o) := by
      rintro o rfl
      rcases r₂ with _ | _ | _
      · simp at hr₁
      · simp [Except.map] at hr₁
      · exact hok rfl
    obtain ⟨rfl, hshifts'⟩ := hfollows.failed hno
    have hplan' : turns <+: chainPlan base m.store.size args (ids ++ [cls]) :=
      happend ▸ hplan.trans (List.prefix_append ..)
    exact ⟨turns, r₂, m₂, hturns, hplan', fun h => absurd h hok, hr₁, hshifts.trans hshifts',
      hfollows.frames⟩

/-- **Where there is room**, the construction goes down the chain and up again. -/
theorem constructFor_climbs (hchain : m.registry.DefaultChain base ids cls) (hm : m.Coherent)
    (hc : m.registry.class? c.id = some c) (args : List Value) (hlevels : ids.length ≤ levels + 1)
    (hroom : m.frames.length + ids.length ≤ settings.maxDepth) :
    (constructFor settings (interpret settings levels) cls c.id args).Ensures m fun r m' =>
      ∃ turns r₁ m₁, Climbs settings base c ids args m turns r₁ m₁ r m' := by
  -- induction on the chain, and the registry is the same one in the frame of each class
  generalize hr : m.registry = r at hchain
  induction hchain generalizing m levels with
  | @base cls h hparent =>
    subst hr
    have hkind : base.kind = .base := (hm.follows.class?_kind h).trans (congrArg _ hparent)
    exact constructFor_base levels h hkind hc args (Nat.lt_of_succ_le hroom)
  | @derived ids parent cls c' rest h hparent hdefault ih =>
    subst hr
    rw [List.length_append, List.length_singleton] at hlevels hroom
    obtain ⟨inner, hinner, hperform⟩ := rest.exists_level (Nat.le_of_succ_le_succ hlevels)
    have hkind : c'.kind = .derived := (hm.follows.class?_kind h).trans (congrArg _ hparent)
    have hbegun : m.Settles (m.begun cls c.id) := .of_eq hm rfl rfl
    have hframe : (m.begun cls c.id).frames.length = m.frames.length + 1 := rfl
    have hclimbs := ih hbegun.coherent hc hinner (by omega) rfl
    refine (constructFor_default (interpret_keeps_frames settings levels) (by omega) h hkind hparent
      hdefault args).mono ?_
    rintro r m' ⟨r₁, m₁, h₁, hfollows⟩
    rw [hperform] at h₁
    rw [Action.Ensures, h₁] at hclimbs
    obtain ⟨turns, r₂, m₂, hclimbs⟩ := hclimbs
    exact hclimbs.derived rest.ne_nil hfollows

theorem constructFor_refused (hids : [cls] <:+ ids) (hfull : settings.maxDepth ≤ m.frames.length)
    (perform : Performer) (newTarget : ClassId) (args : List Value) :
    (constructFor settings perform cls newTarget args).IsRefused settings newTarget ids m m :=
  ⟨[cls], hids, by simp [Nat.sub_eq_zero_of_le hfull], rfl,
    outcome_constructFor_of_full hfull perform cls newTarget args⟩

/-- **Where there is none**, it goes down as far as there is, and fails there. -/
theorem constructFor_chain_refused (hchain : m.registry.DefaultChain base ids cls)
    (hm : m.Coherent) (newTarget : ClassId) (args : List Value) (hlevels : ids.length ≤ levels + 1)
    (hfull : settings.maxDepth < m.frames.length + ids.length) :
    (constructFor settings (interpret settings levels) cls newTarget args).IsRefused settings
      newTarget ids m m := by
  -- induction on the chain, and there is one frame more for the parent
  generalize hr : m.registry = r at hchain
  induction hchain generalizing m levels with
  | base =>
    exact constructFor_refused List.suffix_rfl (Nat.le_of_lt_succ hfull) _ _ _
  | @derived ids parent cls c rest h hparent hdefault ih =>
    subst hr
    rcases Nat.lt_or_ge m.frames.length settings.maxDepth with hroom | hnoRoom
    case inr => exact constructFor_refused (List.suffix_append ..) hnoRoom _ _ _
    rw [List.length_append, List.length_singleton] at hlevels hfull
    obtain ⟨inner, hinner, hperform⟩ := rest.exists_level (Nat.le_of_succ_le_succ hlevels)
    have hkind : c.kind = .derived := (hm.follows.class?_kind h).trans (congrArg _ hparent)
    have hbegun : m.Settles (m.begun cls newTarget) := .of_eq hm rfl rfl
    have hframe : (m.begun cls newTarget).frames.length = m.frames.length + 1 := rfl
    obtain ⟨called, ⟨before, hcalled⟩, hlength, hsort, hfails⟩ :=
      ih (m := m.begun cls newTarget) hbegun.coherent hinner (by omega) rfl
    rw [← hperform] at hfails
    have hp := interpret_keeps_frames settings levels
    have hfor := constructFor_default_of_error hp hroom h hkind hparent hdefault hfails
    refine ⟨called ++ [cls], ⟨before, by rw [← List.append_assoc, hcalled]⟩, ?_, hsort, ?_⟩
    · rw [List.length_append, List.length_singleton]
      omega
    · rw [hfor]
      simp [Effect.apply, Machine.begun]

end Chain

end ClassMachine
