import ClassMachine.Proofs.Identity
import ClassMachine.Proofs.Integrity

/-!
# Calls of the parent constructor

A constructor of a derived class may call the parent constructor as often as it likes, and may
catch what it fails with. What a call comes to is decided by the innermost frame and by the
construction through the parent, which comes first and leaves the frame as it is
(`ClassMachine.Machine.CallsParent`):

* if the construction fails, so does the call. The frame is as it was, so the body may try again;
* if it succeeds and the frame has an object, the call fails. The frame keeps the object that it
  has, and the new one is lost, though not what its construction has done;
* otherwise the frame has the object from then on, whether the fields of the class can be
  installed on it or not. The call succeeds if they can.

So a call that succeeds finds a frame without an object and leaves it with one. Since a frame
keeps its object (`ClassMachine.runConstructor_frame`) there is no second one. And in the end the
construction answers with the object that its frame has then, if the body has not failed
(`ClassMachine.Machine.ConstructsDerived`).

Main statement: `ClassMachine.superCall_law`.
-/

namespace ClassMachine

variable {α : Type}

/-! ### What is to be shown -/

/-- The action fails with the fault, which is of that kind and arises when the machine has become
the second one; nothing happens after that. -/
def Action.FailsFrom (x : Action α) (m m' : Machine) (kind : FaultKind) (f : Fault) : Prop :=
  f.kind? = some kind ∧
    x.outcome m = (some (.error (.ofFault f)), (Effect.note (.raised f)).apply m')

/-- The frame with the object bound to it. -/
def Frame.adopting (f : Frame) (o : ObjectId) : Frame :=
  { f with this := some o, phase := .thisBound }

/-- What a call of the parent constructor comes to in a frame of a class with that parent, by what
the construction through the parent comes to. -/
structure Machine.CallsParent (m : Machine) (perform : Performer) (args : List Value) (f : Frame)
    (rest : List Frame) (parent : ClassId) : Prop where
  /-- As long as the construction goes on, so does the call. -/
  broken : ∀ m₁, (perform (.construct parent f.newTarget args)).outcome m = (none, m₁) →
    (superCall perform args).outcome m = (none, m₁)
  /-- If it fails, the call fails in the same way, and the frame is as it was. -/
  failed : ∀ e m₁,
    (perform (.construct parent f.newTarget args)).outcome m = (some (.error e), m₁) →
    (superCall perform args).outcome m = (some (.error e), m₁) ∧ m₁.frames = f :: rest
  /-- If it succeeds, but the frame has an object, the call fails and does nothing else: what the
  construction has done remains, the frame is as it was, and no field is installed. -/
  again : ∀ o m₁, (perform (.construct parent f.newTarget args)).outcome m = (some (.ok o), m₁) →
    f.this ≠ none →
    (superCall perform args).FailsFrom m m₁ .reference .boundTwice ∧ m₁.frames = f :: rest
  /-- Otherwise the object is bound, and the fields of the class are installed on it. -/
  installing : ∀ o m₁ m₂,
    (perform (.construct parent f.newTarget args)).outcome m = (some (.ok o), m₁) →
    f.this = none → (installInstanceFields perform o f.cls).outcome
      { m₁ with frames := f.adopting o :: rest } = (none, m₂) →
    (superCall perform args).outcome m = (none, m₂)
  /-- If one of them fails, so does the call, and the object stays bound. -/
  uninstalled : ∀ o m₁ e m₂,
    (perform (.construct parent f.newTarget args)).outcome m = (some (.ok o), m₁) →
    f.this = none → (installInstanceFields perform o f.cls).outcome
      { m₁ with frames := f.adopting o :: rest } = (some (.error e), m₂) →
    (superCall perform args).outcome m = (some (.error e), m₂) ∧ m₂.frames = f.adopting o :: rest
  /-- If all are installed, the call answers with the object and lets the body go on. -/
  returned : ∀ o m₁ m₂,
    (perform (.construct parent f.newTarget args)).outcome m = (some (.ok o), m₁) →
    f.this = none → (installInstanceFields perform o f.cls).outcome
      { m₁ with frames := f.adopting o :: rest } = (some (.ok ⟨⟩), m₂) →
    (superCall perform args).outcome m = (some (.ok o), { m₂ with
      frames := { f with this := some o, phase := .body } :: rest
      trace := .superReturned f.cls o :: m₂.trace })

/-- What a call of the parent constructor comes to. -/
structure Machine.CallsSuper (m : Machine) (perform : Performer) (args : List Value) : Prop where
  /-- Outside of all constructions there is nothing to be called. -/
  outside : m.frames = [] → (superCall perform args).FailsAs m .semantic .noConstruction
  /-- Nor is there in a frame of a base class. -/
  base : ∀ f rest c, m.frames = f :: rest → m.registry.class? f.cls = some c →
    c.parent = none → (superCall perform args).FailsAs m .semantic .noParent
  derived : ∀ f rest c parent, m.frames = f :: rest → m.registry.class? f.cls = some c →
    c.parent = some parent → m.CallsParent perform args f rest parent

/-- What the constructor of a derived class does: its body, or the call of the parent constructor
if it has none. -/
def Class.runDerived (c : Class) (perform : Performer) (cls : ClassId) (args : List Value) :
    Action Unit :=
  match c.constructor with
  | some body => runBody perform cls none body args
  | none => discard <| superCall perform args

/-- What a construction of the derived class of that number comes to, by what its constructor comes
to. -/
structure Machine.ConstructsDerived (m : Machine) (settings : Settings) (perform : Performer)
    (cls : ClassId) (c : Class) (newTarget : ClassId) (args : List Value) : Prop where
  /-- The constructor does not run if there is no room for its frame. -/
  full : settings.maxDepth ≤ m.frames.length →
    (constructFor settings perform cls newTarget args).FailsFrom m
      ((Effect.note (.called cls newTarget)).apply m) .construction (.tooDeep settings.maxDepth)
  broken : m.frames.length < settings.maxDepth → ∀ m₁,
    (c.runDerived perform cls args).outcome (m.begun cls newTarget) = (none, m₁) →
    (constructFor settings perform cls newTarget args).outcome m = (none, m₁)
  /-- A failure of the constructor is one of the construction. -/
  failed : m.frames.length < settings.maxDepth → ∀ e m₁,
    (c.runDerived perform cls args).outcome (m.begun cls newTarget) = (some (.error e), m₁) →
    (constructFor settings perform cls newTarget args).outcome m =
      (some (.error e), { m₁ with frames := m.frames })
  /-- Otherwise the answer is the object of the frame, and without one the construction fails. -/
  ended : m.frames.length < settings.maxDepth → ∀ m₁,
    (c.runDerived perform cls args).outcome (m.begun cls newTarget) = (some (.ok ⟨⟩), m₁) →
    ∃ f, m₁.frames = f :: m.frames ∧
      (∀ o, f.this = some o → (constructFor settings perform cls newTarget args).outcome m =
        (some (.ok o), { m₁ with frames := m.frames })) ∧
      (f.this = none → (constructFor settings perform cls newTarget args).FailsFrom m
        { m₁ with frames := m.frames } .reference .neverBound)

/-- The machine at a moment of a construction, and at one that is not before it: both times the
constructor has been broken off, or has come to its end, and client code has gone on by itself
since. -/
def MomentsOf (settings : Settings) (m : Machine) (cls newTarget : ClassId) (args : List Value)
    (m₁ m₂ : Machine) : Prop :=
  ∃ (stop stop' : Machine → Bool) (levels levels' : Nat) (es es' : List Effect),
    (∀ m, stop' m = true → stop m = true) ∧ levels ≤ levels' ∧
    (∀ e ∈ es, e.IsClient) ∧ (∀ e ∈ es', e.IsClient) ∧
    m₁ = Effect.applyAll es ((runConstructor (interpretUntil settings stop levels) cls newTarget
      args).outcome (m.begun cls newTarget)).2 ∧
    m₂ = Effect.applyAll es' ((runConstructor (interpretUntil settings stop' levels') cls newTarget
      args).outcome (m.begun cls newTarget)).2

/-! ### One call -/

section Call

variable {perform : Performer} {m : Machine} {f : Frame} {rest : List Frame}
  (hm : m.frames = f :: rest)

include hm

/-- An object is refused by a frame that has one. -/
theorem adopt_fails (hbound : f.this ≠ none) (o : ObjectId) (cls : ClassId) (phase : Phase) :
    (adopt perform o cls phase).Fails m .boundTwice := by
  obtain ⟨o', ho'⟩ := Option.ne_none_iff_exists'.mp hbound
  rw [Action.Fails, adopt, outcome_bind, outcome_bindThis hm, ho']
  rfl

/-- Otherwise it is bound first, then the fields are installed. -/
theorem outcome_adopt (hfree : f.this = none) (o : ObjectId) (cls : ClassId) :
    (adopt perform o cls .thisBound).outcome m = (installInstanceFields perform o cls >>= fun _ =>
      enterPhase .fieldsInstalled >>= fun _ => enterPhase .body).outcome
        { m with frames := f.adopting o :: rest } := by
  rw [adopt, outcome_bind, outcome_bindThis hm, hfree]
  rfl

variable {c : Class} (hc : m.registry.class? f.cls = some c)

include hc

/-- In a frame of a base class there is no parent constructor. -/
theorem superCall_fails (hparent : c.parent = none) (args : List Value) :
    (superCall perform args).Fails m .noParent := by
  rw [Action.Fails, superCall, outcome_bind, outcome_currentFrame_of_cons hm]
  simp only
  rw [outcome_bind, outcome_classAt_of_some hc]
  simp only [hparent]
  rfl

/-- In a frame of a derived class the construction through the parent comes first. -/
theorem outcome_superCall {parent : ClassId} (hparent : c.parent = some parent)
    (args : List Value) : (superCall perform args).outcome m =
      (perform (.construct parent f.newTarget args) >>= fun o =>
        adopt perform o f.cls .thisBound >>= fun _ =>
          note (.superReturned f.cls o) >>= fun _ => pure o).outcome m := by
  rw [superCall, outcome_bind, outcome_currentFrame_of_cons hm]
  simp only
  rw [outcome_bind, outcome_classAt_of_some hc]
  simp only [hparent]

end Call

section Law

variable {settings : Settings} {perform : Performer}
  (hp : perform.Keeps (framesContract settings)) {m : Machine}

include hp

/-- The initializers leave a frame alone that has its object. -/
theorem installInstanceFields_frames {f : Frame} {rest : List Frame} (hm : m.frames = f :: rest)
    (hbound : f.this ≠ none) {o : ObjectId} {cls : ClassId} {r : Except Failure Unit}
    {m' : Machine} (h : (installInstanceFields perform o cls).outcome m = (some r, m')) :
    m'.frames = f :: rest := by
  have hlaw := (installInstanceFields_madeOf (X := .none) (fun _ => Effect.IsClient.keepsFrames)
    (fun e he => by rintro rfl; exact he) o cls).framesLaw hp m
  rw [Action.Ensures, h] at hlaw
  have hmoved := hlaw.1
  rw [hm] at hmoved
  exact hmoved.eq_of_bound hbound

/-- **A call from a frame of a derived class.** -/
theorem callsParent {f : Frame} {rest : List Frame} (hm : m.frames = f :: rest) {c : Class}
    (hc : m.registry.class? f.cls = some c) {parent : ClassId} (hparent : c.parent = some parent)
    (args : List Value) : m.CallsParent perform args f rest parent := by
  have hcall : (superCall perform args).outcome m = _ := outcome_superCall hm hc hparent args
  -- the construction leaves all frames as they are
  have hframes {r : Except Failure ObjectId} {m₁ : Machine}
      (h : (perform (.construct parent f.newTarget args)).outcome m = (some r, m₁)) :
      m₁.frames = f :: rest := by
    have hlaw := hp (.construct parent f.newTarget args) m
    rw [Action.Ensures, h] at hlaw
    exact hlaw.1.trans hm
  -- if it succeeds, what is left is to adopt the object
  have hadopt {o : ObjectId} {m₁ : Machine}
      (h : (perform (.construct parent f.newTarget args)).outcome m = (some (.ok o), m₁)) :
      (superCall perform args).outcome m = (adopt perform o f.cls .thisBound >>= fun _ =>
        note (.superReturned f.cls o) >>= fun _ => pure o).outcome m₁ := by
    rw [hcall, outcome_bind, h]
  -- if the frame is free, this begins with the fields
  have hinstall {o : ObjectId} {m₁ : Machine}
      (h : (perform (.construct parent f.newTarget args)).outcome m = (some (.ok o), m₁))
      (hfree : f.this = none) : (superCall perform args).outcome m =
        (installInstanceFields perform o f.cls >>= fun _ => enterPhase .fieldsInstalled >>= fun _ =>
          enterPhase .body >>= fun _ => note (.superReturned f.cls o) >>= fun _ => pure o).outcome
            { m₁ with frames := f.adopting o :: rest } := by
    rw [hadopt h, outcome_bind, outcome_adopt (hframes h) hfree, ← outcome_bind]
    simp only [bind_assoc]
  constructor
  case broken =>
    intro m₁ h
    rw [hcall, outcome_bind, h]
  case failed =>
    intro e m₁ h
    exact ⟨by rw [hcall, outcome_bind, h], hframes h⟩
  case again =>
    intro o m₁ h hbound
    refine ⟨⟨rfl, ?_⟩, hframes h⟩
    rw [hadopt h, outcome_bind, adopt_fails (hframes h) hbound]
  case installing =>
    intro o m₁ m₂ h hfree hbroken
    rw [hinstall h hfree, outcome_bind, hbroken]
  case uninstalled =>
    intro o m₁ e m₂ h hfree hfailed
    exact ⟨by rw [hinstall h hfree, outcome_bind, hfailed],
      installInstanceFields_frames hp rfl (by simp [Frame.adopting]) hfailed⟩
  case returned =>
    intro o m₁ m₂ h hfree hinstalled
    have hm₂ := installInstanceFields_frames hp rfl (by simp [Frame.adopting]) hinstalled
    rw [hinstall h hfree, outcome_bind, hinstalled]
    simp only [outcome_bind, outcome_enterPhase hm₂, outcome_note, outcome_pure]
    rfl

/-- **A call of the parent constructor**, in whatever frame. -/
theorem callsSuper (args : List Value) : m.CallsSuper perform args where
  outside h := ⟨rfl, by
    rw [Action.Fails, superCall, outcome_bind, outcome_currentFrame_of_nil h]⟩
  base _ _ _ hm hc hparent := ⟨rfl, superCall_fails hm hc hparent args⟩
  derived _ _ _ _ hm hc hparent := callsParent hp hm hc hparent args

/-! ### The construction around it -/

omit hp in
/-- The constructor of a derived class in a frame that has just begun. -/
theorem outcome_runConstructor_of_derived {cls : ClassId} {c : Class}
    (hc : m.registry.class? cls = some c) (hkind : c.kind = .derived) (newTarget : ClassId)
    (args : List Value) : (runConstructor perform cls newTarget args).outcome m =
      (c.runDerived perform cls args).outcome m := by
  rw [runConstructor, outcome_bind, outcome_classAt_of_some hc]
  cases hbody : c.constructor <;> simp only [hkind, hbody, Class.runDerived]

/-- **A construction of a derived class.** -/
theorem constructsDerived {cls : ClassId} {c : Class} (hc : m.registry.class? cls = some c)
    (hkind : c.kind = .derived) (newTarget : ClassId) (args : List Value) :
    m.ConstructsDerived settings perform cls c newTarget args := by
  have hrun : (runConstructor perform cls newTarget args).outcome (m.begun cls newTarget) =
      (c.runDerived perform cls args).outcome (m.begun cls newTarget) :=
    outcome_runConstructor_of_derived (m := m.begun cls newTarget) hc hkind newTarget args
  -- the constructor has kept to its frame, which is taken off now
  have hframes {r : Except Failure Unit} {m₁ : Machine}
      (h : (c.runDerived perform cls args).outcome (m.begun cls newTarget) = (some r, m₁)) :
      ∃ f, m₁.frames = f :: m.frames := by
    have hlaw := runConstructor_ownFrameLaw hp cls newTarget args (m.begun cls newTarget)
    rw [Action.Ensures, hrun, h] at hlaw
    exact hlaw.1 _ m.frames rfl
  constructor
  case full =>
    exact fun hfull => ⟨rfl, outcome_constructFor_of_full hfull perform cls newTarget args⟩
  case broken =>
    intro hroom m₁ h
    rw [outcome_constructFor hroom, hrun, h]
  case failed =>
    intro hroom e m₁ h
    obtain ⟨f, hf⟩ := hframes h
    rw [outcome_constructFor hroom, hrun, h]
    exact outcome_finishConstruction_of_error hf e
  case ended =>
    intro hroom m₁ h
    obtain ⟨f, hf⟩ := hframes h
    have hfor := outcome_constructFor hroom perform cls newTarget args
    rw [hrun, h] at hfor
    have hfinish := outcome_finishConstruction_of_ok hf
    refine ⟨f, hf, fun o ho => ?_, fun hnone => ⟨rfl, ?_⟩⟩
    · rw [ho] at hfinish
      exact hfor.trans hfinish
    · rw [hnone] at hfinish
      exact hfor.trans hfinish

end Law

/-! ### One success -/

section Once

variable {settings : Settings} {m m₀ m₁ m₂ : Machine} {cls newTarget : ClassId}
  {args args₀ : List Value} {levels : Nat} {o : ObjectId}

/-- The frame of a construction is there at both moments, and keeps its object. -/
theorem MomentsOf.kept (h : MomentsOf settings m cls newTarget args m₁ m₂) :
    ∃ f₁ f₂, m₁.frameAt m.frames.length = some f₁ ∧ m₂.frameAt m.frames.length = some f₂ ∧
      f₁.Kept f₂ := by
  obtain ⟨stop, stop', levels, levels', es, es', hstop, hlevels, hes, hes', rfl, rfl⟩ := h
  obtain ⟨f₁, f₂, hf₁, hf₂, -, -, hkept⟩ := runConstructor_frame
    (fun _ => interpretUntil_begins settings hstop hlevels)
    (fun _ => interpretUntil_keptLaw settings stop levels) m cls newTarget args
  rw [Machine.frameAt] at hf₁ hf₂
  exact ⟨f₁, f₂, by rw [Machine.frameAt, Effect.frames_applyAll_of_client hes, hf₁],
    by rw [Machine.frameAt, Effect.frames_applyAll_of_client hes', hf₂], hkept⟩

/-- **After a call that has succeeded** the frame has its object, and no further call from it
succeeds. -/
theorem MomentsOf.once (h : MomentsOf settings m cls newTarget args m₁ m₂)
    (hinner : m₀.frames.length = m.frames.length + 1)
    (hcall : (superCall (interpret settings levels) args₀).outcome m₀ = (some (.ok o), m₁)) :
    (∃ f, m₂.frameAt m.frames.length = some f ∧ f.this = some o) ∧
    (m₂.frames.length = m.frames.length + 1 → ∀ levels args o' m',
      (superCall (interpret settings levels) args).outcome m₂ ≠ (some (.ok o'), m')) := by
  have hframes := interpret_keeps_frames settings
  obtain ⟨f₁, f₂, hf₁, hf₂, hkept⟩ := h.kept
  obtain ⟨f, rest, hm₀, -, hm₁⟩ := superCall_bound (hframes levels) hcall
  have hrest : rest.length = m.frames.length := by simpa [hm₀] using hinner
  have hbound : f₁.this = some o := by
    rw [← hrest, Machine.frameAt_length hm₁] at hf₁
    exact Option.some.inj hf₁ ▸ rfl
  have hthis : f₂.this = some o := hkept.this o hbound
  refine ⟨⟨f₂, hf₂, hthis⟩, fun hinner₂ levels' args' o' m' hcall' => ?_⟩
  -- a call succeeds only from a frame without an object
  obtain ⟨g, rest', hm₂, hfree, -⟩ := superCall_bound (hframes levels') hcall'
  rw [Machine.frameAt_eq_head? hinner₂, hm₂] at hf₂
  obtain rfl : g = f₂ := Option.some.inj hf₂
  simp [hthis] at hfree

end Once

/-- **The law of calls of the parent constructor.** Such a call fails with a semantic error, and
does nothing, outside of all constructions and in a frame of a base class. In a frame of a
derived class it comes to what the construction through the parent comes to, with the new-target
of the frame, and then to what the fields of the class come to, but only if the frame has no
object yet; else it fails with a reference error. In each of the five cases it is known what the
machine is afterwards, and what the frame is. A construction of a derived class comes to what its
constructor comes to. If this one ends, the construction answers with the object of the frame,
and if there is none it fails with a reference error.

Of all the calls from one frame, at most one succeeds: after one that does, the frame has its
object at all moments, and no call from it succeeds. And whenever client code runs, the classes of
all frames are there, and those of base kind are the ones without a parent. -/
theorem superCall_law (settings : Settings) :
    (∀ (m : Machine) levels args, m.CallsSuper (interpret settings levels) args) ∧
    (∀ (m : Machine) levels cls (c : Class) newTarget args, m.registry.class? cls = some c →
      c.kind = .derived →
      m.ConstructsDerived settings (interpret settings levels) cls c newTarget args) ∧
    (∀ (m : Machine) cls newTarget args m₁ m₂, MomentsOf settings m cls newTarget args m₁ m₂ →
      ∀ (m₀ : Machine) levels args₀ o, m₀.frames.length = m.frames.length + 1 →
      (superCall (interpret settings levels) args₀).outcome m₀ = (some (.ok o), m₁) →
        (∃ f, m₂.frameAt m.frames.length = some f ∧ f.this = some o) ∧
        (m₂.frames.length = m.frames.length + 1 → ∀ levels args o' m',
          (superCall (interpret settings levels) args).outcome m₂ ≠ (some (.ok o'), m'))) ∧
    ∀ m, Reachable settings m → ∀ f ∈ m.frames, ∃ c, m.registry.class? f.cls = some c ∧
      (c.kind = .base ↔ c.parent = none) := by
  have hframes (levels : Nat) : (interpret settings levels).Keeps (framesContract settings) :=
    interpret_keeps (fun _ => step_keeps_frames) levels
  refine ⟨fun m levels args => callsSuper (hframes levels) args,
    fun m levels cls c newTarget args hc hkind =>
      constructsDerived (hframes levels) hc hkind newTarget args,
    fun m cls newTarget args m₁ m₂ h m₀ levels args₀ o hinner hcall => h.once hinner hcall,
    fun m hm f hf => ?_⟩
  obtain ⟨hcoherent, ha, hplaced⟩ := (places_moments settings).2 m hm
  obtain ⟨c, hc, -⟩ := (hplaced.framesInPlace ha).phase f hf
  refine ⟨c, hc, ?_⟩
  rw [hcoherent.follows.class?_kind hc]
  cases c.parent <;> simp [ConstructorKind.ofParent]

/-- A class of which the parent cannot be constructed at first, and that tries twice:
`class extends (class { constructor() { if (!tried) { tried = true; throw "later" } } })
{ constructor() { try { super() } catch {}; super() } }`. -/
def persistentClass : Expr :=
  .classDefinition
    { name := none,
      heritage := some (.primitive .classObject [.classDefinition
        { name := none, heritage := none,
          constructor := some (.choose (.primitive .register [.literal (.str "tried")])
            (.literal .undefined) (some (.sequence [.assign "tried" (.literal (.bool true)),
              .primitive .throw [.literal (.str "later")]]))),
          elements := [] }]),
      constructor := some (.sequence [.attempt (.reentry .super []) none, .reentry .super []]),
      elements := [] }

/-- After a call that has failed, a second one from the same frame may succeed. -/
example : ((interpret {} 12 (.eval (.reentry .constructValue
    [.primitive .classObject [persistentClass]]) {})).outcome .initial).1.any
      (fun | .ok (.ref _) => true | _ => false) = true := by
  decide +kernel

/-- The class with two fields and no constructor: the call in its place, the construction, and the
moment at which the call has succeeded. -/
theorem superCall_law_of_twoFields :
    (∃ m c o m₁, m.CallsSuper (interpret {} 9) [] ∧
      ((AtRest {} m ∧ m.registry.class? 2 = some c ∧ c.kind = .derived) ∧
        m.ConstructsDerived {} (interpret {} 9) 2 c 2 []) ∧
      (MomentsOf {} m 2 2 [] m₁ m₁ ∧ (m.begun 2 2).frames.length = m.frames.length + 1 ∧
        (superCall (interpret {} 9) []).outcome (m.begun 2 2) = (some (.ok o), m₁)) ∧
      (∃ f, m₁.frameAt m.frames.length = some f ∧ f.this = some o) ∧
      ∀ levels args o' m', (superCall (interpret {} levels) args).outcome m₁ ≠
        (some (.ok o'), m')) ∧
    ∃ m f, (Reachable {} m ∧ f ∈ m.frames) ∧ ∃ c, m.registry.class? f.cls = some c ∧
      (c.kind = .base ↔ c.parent = none) := by
  obtain ⟨hcalls, hconstructs, honce, hmoment⟩ := superCall_law {}
  constructor
  · let check (m : Machine) : Bool :=
      succeeds ((superCall (interpret {} 9) []).outcome (m.begun 2 2)) &&
      (m.registry.class? 2).any fun c => c.kind == .derived && c.constructor.isNone
    have hrun : ((runStep {} 9 twoFields .initial).any fun p => check p.2) = true := by
      decide +kernel
    obtain ⟨⟨report, m⟩, hm, hcheck⟩ := (Option.any_eq_true ..).mp hrun
    have hm : AtRest {} m := .step .initial hm
    obtain ⟨hcall, hclass⟩ := Bool.and_eq_true_iff.mp hcheck
    obtain ⟨o, m₁, hcall⟩ := exists_of_succeeds hcall
    obtain ⟨c, hc, hdefault⟩ := (Option.any_eq_true ..).mp hclass
    simp only [Bool.and_eq_true, beq_iff_eq, Option.isNone_iff_eq_none] at hdefault
    have hend : (runConstructor (interpretUntil {} (fun _ => false) 9) 2 2 []).outcome
        (m.begun 2 2) = (some (.ok ⟨⟩), m₁) := by
      rw [interpretUntil_never]
      exact outcome_runConstructor_of_default hc hdefault.1 hdefault.2 hcall
    have hmoments : MomentsOf {} m 2 2 [] m₁ m₁ :=
      ⟨_, _, 9, 9, [], [], fun _ => id, Nat.le_refl 9, by simp, by simp,
        (congrArg Prod.snd hend).symm, (congrArg Prod.snd hend).symm⟩
    obtain ⟨hbound, hno⟩ := honce m 2 2 [] m₁ m₁ hmoments (m.begun 2 2) 9 [] o rfl hcall
    have hinner : m₁.frames.length = m.frames.length + 1 := by
      obtain ⟨f, rest, hframes, -, hm₁⟩ := superCall_bound
        (interpret_keeps (fun _ => step_keeps_frames) 9) hcall
      rw [hm₁]
      exact congrArg List.length hframes.symm
    exact ⟨m, c, o, m₁, hcalls m 9 [], ⟨⟨hm, hc, hdefault.1⟩,
      hconstructs m 9 2 c 2 [] hc hdefault.1⟩, ⟨hmoments, rfl, hcall⟩, hbound, hno hinner⟩
  · let stop (m : Machine) : Bool := m.frames.length == 2
    let construction : Expr := .reentry .constructValue [.primitive .classObject [twoFields]]
    let m := ((interpretUntil {} stop 9 (.eval construction {})).outcome
      { Machine.initial with log := [] }).2
    have hm : Reachable {} m := AtRest.initial.reachable construction stop 9
    have hframes : m.frames.head?.isSome = true := by decide +kernel
    obtain ⟨f, hf⟩ := Option.isSome_iff_exists.mp hframes
    have hmem : f ∈ m.frames := List.mem_of_mem_head? hf
    exact ⟨m, f, ⟨hm, hmem⟩, hmoment m hm f hmem⟩

end ClassMachine
