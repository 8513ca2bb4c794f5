import ClassMachine.Proofs.FramePlaces
import ClassMachine.Proofs.Occasions
import ClassMachine.Proofs.PartialInstances
import ClassMachine.Proofs.Receivers

/-!
# The identity of an object under construction

Many answers name the object that a construction is about: the answer of the construction, that of
the call of the parent constructor, that of `this`, the receiver of an initializer. In a frame
they are all the same, whatever the constructor does: the frame has one object, and it is the one
that the parent constructor has handed up (`ClassMachine.HandsUp`). An object that is made by a
further call of the parent constructor does not get into the frame.

What a construction for a client hands out is new, an instance of the class asked for, and
handed out once (`ClassMachine.Machine.HandsOut`). All classes of the lineage have begun their
fields on it, each from a frame of its own with this object.

Main statement: `ClassMachine.object_identity`.
-/

namespace ClassMachine

/-! ### What is handed out -/

/-- What is known of the object that a construction for a client hands out. -/
structure Machine.HandsOut (m : Machine) (cls : ClassId) (o : ObjectId) (m' : Machine) : Prop where
  /-- The object was not there before. -/
  new : m.store.size ≤ o
  born : o < m'.store.size
  kind : (m'.store.object o).kind = .instance cls
  /-- It is linked to the prototype of the class, unless a client has redirected the link. -/
  prototype : ∃ c new, m'.registry.class? cls = some c ∧ m'.trace = new ++ m.trace ∧
    ((m'.store.object o).prototype = some c.prototype ∨ .relinked o ∈ new)
  /-- That it is handed out is noted, and was not noted before. -/
  once : ∃ old, m'.trace = .constructed cls o :: old ∧ o ∉ constructedOf old
  /-- All classes of the lineage have begun their fields on the object, each one from a frame that
  has bound it. -/
  levels : ∃ ls, m'.InOrder o cls ls ∧ Lineage m'.chronicle.HasParent (ls.map Level.cls) cls

/-- The prototype of a class is there since the class was registered. -/
theorem Machine.Coherent.prototype_eq {m : Machine} (hm : m.Coherent) {id : ClassId} {c c₀ : Class}
    (hc : m.registry.class? id = some c) (hc₀ : .registered c₀ ∈ m.trace) (hid : c₀.id = id) :
    c.prototype = c₀.prototype := by
  obtain ⟨c₁, hc₁, hid₁, rfl⟩ := hm.follows.known id c hc
  have hmem : .registered c₀ ∈ m.chronicle := List.mem_filter.mpr ⟨hc₀, rfl⟩
  obtain rfl := hm.follows.registered_unique hc₁ hmem (hid₁.trans hid.symm)
  rfl

section Construct

variable {settings : Settings} {m m' : Machine} {levels : Nat} {cls newTarget : ClassId}
  {args : List Value} {o : ObjectId}

theorem interpret_keptLaw {α : Type} (settings : Settings) (levels : Nat) (task : Task α) :
    (interpret settings levels task).Obeys keptLaw := by
  rw [← interpretUntil_never]
  exact interpretUntil_keptLaw settings _ levels task

theorem runConstructor_keptLaw {perform : Performer}
    (hp : ∀ ⦃α : Type⦄ (task : Task α), (perform task).Obeys keptLaw) (cls newTarget : ClassId)
    (args : List Value) : (runConstructor perform cls newTarget args).Obeys keptLaw :=
  (runConstructor_begins (fun _ task => .refl (hp task)) cls newTarget args).obeys

/-- Only of a class that is there an instance can be constructed. -/
theorem construct_class
    (h : (construct settings (interpret settings levels) cls args).outcome m = (some (.ok o), m')) :
    ∃ c, m.registry.class? cls = some c := by
  rcases hc : m.registry.class? cls with _ | c
  case some => exact ⟨c, rfl⟩
  obtain ⟨e, he⟩ := construct_fails hc settings (interpret settings levels) args
  simp [h] at he

/-- **A construction for a client** hands out a new object. -/
theorem construct_handsOut (hm : AtRest settings m ∨ Reachable settings m)
    (h : (construct settings (interpret settings levels) cls args).outcome m = (some (.ok o), m')) :
    m.HandsOut cls o m' := by
  obtain ⟨hregistry, hframes, hfields⟩ := keeps_fullContract.mp
    (interpret_keeps (step_keeps_full settings) levels)
  obtain ⟨-, hreports⟩ := Performer.keeps_and.mp (interpret_keeps_reports settings levels)
  obtain ⟨-, hplaces⟩ := Performer.keeps_and.mp
    (interpret_keeps (step_keeps_placed settings) levels)
  have ha : m.Accounted := accounted_of_moment hm
  obtain ⟨hcoherent, hs⟩ := sound_of_moment hm
  have hregistryLaw : (construct settings (interpret settings levels) cls args).Ensures m
      ((registryLaw .trivial).Holds m) :=
    call_registryLaw hregistry settings (.construct cls args) m
  have hrun := (construct_places hregistry hplaces hcoherent ha cls args).and hregistryLaw
  rw [Action.Ensures, h] at hrun
  obtain ⟨⟨hlaw, hmade⟩, hsettles⟩ := hrun
  obtain ⟨hsettles, -⟩ := hsettles hcoherent
  have ha' : m'.Accounted := (hlaw ha).accounted
  obtain ⟨m₁, hgains, rfl⟩ := hmade o rfl
  obtain ⟨new, ls, hnew, -, hinOrder, hlineage, -⟩ :=
    constructs_levels hframes hfields hreports hregistry hcoherent hs h
  obtain ⟨hborn, hkind, c₀, hc₀, hid, hprototype⟩ := ha.isInstance_of_new ha' hgains.new
    (List.mem_cons_of_mem _ hgains.allocated) hnew
  obtain ⟨c, hc⟩ := construct_class h
  obtain ⟨fields, hc'⟩ := hsettles.later.class? hcoherent hsettles.coherent hc
  refine ⟨hgains.new, hborn, hkind, ⟨_, new, hc', hnew, ?_⟩, ⟨_, rfl, hgains.unfinished⟩,
    ls, hinOrder, hlineage⟩
  rwa [hsettles.coherent.prototype_eq hc' hc₀ hid]

/-! ### What a frame hands up -/

/-- The machine at some moment of a construction: its constructor has been broken off, or has come
to its end, and client code has gone on by itself since. -/
def InConstruction (settings : Settings) (m : Machine) (cls newTarget : ClassId)
    (args : List Value) (m₁ : Machine) : Prop :=
  ∃ stop levels es, (∀ e ∈ es, Effect.IsClient e) ∧ m₁ = Effect.applyAll es
    ((runConstructor (interpretUntil settings stop levels) cls newTarget args).outcome
      (m.begun cls newTarget)).2

/-- What holds at a moment of a construction that is to hand up the object, from the frame at
the depth. -/
structure HandsUp (settings : Settings) (depth : Nat) (cls newTarget : ClassId) (o : ObjectId)
    (m : Machine) : Prop where
  /-- The frame has no other object. -/
  frame : ∃ f, m.frameAt depth = some f ∧ f.cls = cls ∧ f.newTarget = newTarget ∧
    ∀ x ∈ f.this, x = o
  /-- As long as the frame is the innermost one, `this` is no other object. -/
  this : m.frames.length = depth + 1 → ∀ x m', thisObject.outcome m = (some (.ok x), m') → x = o
  /-- A field that is begun then is one of the class, and the code that is run for it has no other
  object as its receiver. -/
  receiver : m.frames.length = depth + 1 → ∀ c className x record old,
    m.trace = .began (.instanceField c className x record) :: old → c = cls ∧ x = o ∧
      ∀ e ctx, Occasions.Stage (.instanceField c className x record) (.eval e ctx) m →
        ctx = { receiver := .ref o }
  /-- A call of the parent constructor that has just succeeded in the frame has answered with no
  other object. -/
  returned : ∀ m₀ levels args x, m₀.frames.length = depth + 1 →
    (superCall (interpret settings levels) args).outcome m₀ = (some (.ok x), m) → x = o

theorem thisObject_ok (h : thisObject.outcome m = (some (.ok o), m')) :
    ∃ f ∈ m.frames.head?, f.this = some o := by
  obtain ⟨f, m₁, hf, hrest⟩ := outcome_bind_eq_ok.mp h
  obtain ⟨rfl, rest, hm⟩ := currentFrame_ok hf
  cases hthis : f.this with
  | none => simp [hthis] at hrest
  | some x =>
    obtain rfl : x = o := by simpa [hthis] using congrArg Prod.fst hrest
    exact ⟨f, by simp [hm], hthis⟩

/-- **A construction hands up the object of its frame** at all moments. -/
theorem constructFor_handsUp
    (h : (constructFor settings (interpret settings levels) cls newTarget args).outcome m =
      (some (.ok o), m')) {m₁ : Machine}
    (hm₁ : InConstruction settings m cls newTarget args m₁) :
    HandsUp settings m.frames.length cls newTarget o m₁ := by
  obtain ⟨stop, levels₁, es, hes, rfl⟩ := hm₁
  -- both runs go on in one that has levels enough
  let p := interpretUntil settings stop levels₁
  let q := interpretUntil settings (fun _ => false) (max levels levels₁)
  have hpq : ∀ ⦃α : Type⦄ (task : Task α), (p task).Begins (q task) := fun _ =>
    interpretUntil_begins settings (by simp) (Nat.le_max_right ..)
  have hq : (constructFor settings q cls newTarget args).outcome m = (some (.ok o), m') := by
    rw [← interpretUntil_never] at h
    exact (constructFor_begins (fun _ => interpretUntil_begins settings (fun _ => id)
      (Nat.le_max_left ..)) cls newTarget args).refines _ _ _ h
  obtain ⟨m₂, f₂, hrun, hf₂, hthis⟩ := constructFor_ok
    (runConstructor_keptLaw (fun _ => interpretUntil_keptLaw settings _ _) cls newTarget args) hq
  obtain ⟨f₁, g, hf₁, hg, hcls, hnewTarget, hkept⟩ := runConstructor_frame hpq
    (fun _ => interpretUntil_keptLaw settings stop levels₁) m cls newTarget args
  rw [hrun] at hg
  obtain rfl : g = f₂ := Option.some.inj (hg.symm.trans hf₂)
  have hsame : ∀ x ∈ f₁.this, x = o := fun x hx =>
    Option.some.inj ((hkept.this x hx).symm.trans hthis)
  let m₀ := ((runConstructor p cls newTarget args).outcome (m.begun cls newTarget)).2
  have hframe : (Effect.applyAll es m₀).frameAt m.frames.length = some f₁ := by
    rw [Machine.frameAt, Effect.frames_applyAll_of_client hes]
    exact hf₁
  have hhead (hinner : (Effect.applyAll es m₀).frames.length = m.frames.length + 1) {f : Frame}
      (hf : f ∈ (Effect.applyAll es m₀).frames.head?) : f = f₁ := by
    rw [← Machine.frameAt_eq_head? hinner, hframe] at hf
    exact (Option.some.inj hf).symm
  refine ⟨⟨f₁, hframe, hcls, hnewTarget, hsame⟩, fun hinner x m' hx => ?_,
    fun hinner c className x record old hx => ?_, fun m₃ levels₃ args₃ x hinner hx => ?_⟩
  · obtain ⟨f, hf, hfx⟩ := thisObject_ok hx
    exact hsame x (hhead hinner hf ▸ hfx)
  · obtain ⟨hframes, hreceivers⟩ := Performer.keeps_and.mp
      (interpretUntil_keeps_receivers settings stop levels₁)
    have hbegun : (m.begun cls newTarget).Quiet :=
      Event.IsQuiet.quiet (e := .called cls newTarget) trivial rfl
    have hreceives : m₀.Receives := (runConstructor_receives (f := { cls, newTarget }) hframes
      hreceivers rfl hbegun newTarget args).1
    have hended := receiversLaw.ended_applyAll
      (fun e he => receiversLaw_allows (hes e he).isQuiet) m₀
    obtain ⟨f, hf, hc, hfx⟩ := hended.elim hreceives.of_idles Machine.Quiet.receives c x
      ⟨className, record, old, hx⟩
    obtain rfl := hhead hinner hf
    obtain rfl := hsame x hfx
    refine ⟨hc.symm.trans hcls, rfl, fun e ctx hstage => ?_⟩
    cases hstage with
    | run _ hcode => exact FieldRecord.context_of_code hcode
  · obtain ⟨f, rest, hm₃, -, hbound⟩ := superCall_bound
      (interpret_keeps_frames settings levels₃) hx
    have hinner : (Effect.applyAll es m₀).frames.length = m.frames.length + 1 := by
      rw [hbound, ← hinner, hm₃]
      rfl
    have hf₁ := hhead hinner (Option.mem_def.mpr (congrArg List.head? hbound))
    exact hsame x (hf₁ ▸ rfl)

/-- A call of the parent constructor that succeeds is made from a frame without an object, and
answers with what the construction of the parent hands up. -/
theorem superCall_handsUp
    (h : (superCall (interpret settings levels) args).outcome m = (some (.ok o), m')) :
    ∃ f rest c p levels' m₁, m.frames = f :: rest ∧ f.this = none ∧
      m'.frames = { f with this := some o, phase := .body } :: rest ∧
      m.registry.class? f.cls = some c ∧ c.parent = some p ∧
      (constructFor settings (interpret settings levels') p f.newTarget args).outcome m =
        (some (.ok o), m₁) := by
  obtain ⟨f, rest, hm, hfree, hm'⟩ := superCall_bound
    (interpret_keeps_frames settings levels) h
  obtain ⟨g, hg, c, p, m₁, -, hc, hp, hconstruct, -⟩ := superCall_ok h
  obtain rfl : f = g := by simpa [hm] using hg
  cases levels with
  | zero => simp [interpret] at hconstruct
  | succ levels => exact ⟨f, rest, c, p, levels, m₁, hm, hfree, hm', hc, hp, hconstruct⟩

end Construct

/-- **The identity of the object under construction.** At every moment, no object has been handed
out by two constructions; and a construction that succeeds hands out an object that was not
there before, which is an instance of the class asked for, linked to its prototype unless a
client has redirected the link, and on which all classes of the lineage have begun their fields,
from frames that have bound it.

A frame has one object, and its construction hands up this one. At all moments of the
construction, the frame has this object or none; as long as the frame is the innermost one,
`this` is the object, an initializer of the class is run with the object as its receiver, and a call
of the parent constructor that has just succeeded has answered with it. No construction and no call
of the parent constructor runs an initializer in another way.

And what such a call answers with is the object that the construction of the parent hands up, for
the same new-target; it succeeds only if the frame had no object, which it has from then on. So
the object is the same one on all levels. -/
theorem object_identity (settings : Settings) :
    (∀ m, AtRest settings m ∨ Reachable settings m → (constructedOf m.trace).Nodup ∧
      ∀ levels cls args o m', (construct settings (interpret settings levels) cls args).outcome m =
        (some (.ok o), m') → m.HandsOut cls o m') ∧
    (∀ m cls newTarget args levels o m',
      (constructFor settings (interpret settings levels) cls newTarget args).outcome m =
        (some (.ok o), m') →
      ∀ m₁, InConstruction settings m cls newTarget args m₁ →
        HandsUp settings m.frames.length cls newTarget o m₁) ∧
    (∀ m cls newTarget args, PerformsOnly (Occasions.Construction m.registry cls newTarget args)
      (fun perform => constructFor settings perform cls newTarget args) m) ∧
    (∀ m args, PerformsOnly ((Call.super args).Occasion m)
      (fun perform => superCall perform args) m) ∧
    ∀ m args levels o m',
      (superCall (interpret settings levels) args).outcome m = (some (.ok o), m') →
      ∃ f rest c p levels' m₁, m.frames = f :: rest ∧ f.this = none ∧
        m'.frames = { f with this := some o, phase := .body } :: rest ∧
        m.registry.class? f.cls = some c ∧ c.parent = some p ∧
        (constructFor settings (interpret settings levels') p f.newTarget args).outcome m =
          (some (.ok o), m₁) := by
  exact ⟨fun m hm => ⟨(accounted_of_moment hm).once, fun _ _ _ _ _ => construct_handsOut hm⟩,
    fun _ _ _ _ _ _ _ h _ => constructFor_handsUp h,
    fun _ _ _ _ => constructFor_performsOnly _ _ _ _,
    fun m args => call_performsOnly settings (.super args) m, fun _ _ _ _ _ => superCall_handsUp⟩

/-- A derived class without a constructor of its own has the call of the parent constructor in its
place. -/
theorem outcome_runConstructor_of_default {perform : Performer} {m m' : Machine} {c : Class}
    {cls newTarget : ClassId} {args : List Value} {o : ObjectId}
    (hc : m.registry.class? cls = some c) (hkind : c.kind = .derived)
    (hconstructor : c.constructor = none)
    (h : (superCall perform args).outcome m = (some (.ok o), m')) :
    (runConstructor perform cls newTarget args).outcome m = (some (.ok ⟨⟩), m') := by
  rw [runConstructor, outcome_bind, outcome_classAt_of_some hc]
  simp only [hkind, hconstructor]
  rw [discard_eq_bind, outcome_bind, h]
  rfl

/-- Has the action succeeded? -/
def succeeds {α : Type} : Option (Except Failure α) × Machine → Bool
  | (some (.ok _), _) => true
  | _ => false

theorem exists_of_succeeds {α : Type} {outcome : Option (Except Failure α) × Machine}
    (h : succeeds outcome = true) : ∃ a m, outcome = (some (.ok a), m) := by
  unfold succeeds at h
  split at h
  next a m => exact ⟨a, m, rfl⟩
  next => simp at h

/-- Is the initializer of a field of the class about to begin, in the only frame? -/
def Machine.isBeginning (cls : ClassId) (m : Machine) : Bool :=
  m.frames.length == 1 && match m.trace.head? with
    | some (.began (.instanceField cls' _ _ record)) => cls' == cls && record.initializer.isSome
    | _ => false

theorem Machine.stage_of_isBeginning {m : Machine} {cls : ClassId}
    (h : m.isBeginning cls = true) : m.frames.length = 1 ∧ ∃ className o record old e ctx,
      m.trace = .began (.instanceField cls className o record) :: old ∧
      Occasions.Stage (.instanceField cls className o record) (.eval e ctx) m := by
  obtain ⟨hlength, hhead⟩ := Bool.and_eq_true_iff.mp h
  refine ⟨beq_iff_eq.mp hlength, ?_⟩
  split at hhead
  next cls' className o record hm =>
    obtain ⟨hcls, hinitializer⟩ := Bool.and_eq_true_iff.mp hhead
    obtain rfl := beq_iff_eq.mp hcls
    obtain ⟨e, he⟩ := Option.isSome_iff_exists.mp hinitializer
    obtain ⟨old, hold⟩ := List.head?_eq_some_iff.mp hm
    exact ⟨className, o, record, old, e, _, hold,
      .run hold (by rw [Activity.code, FieldRecord.code, he])⟩
  next => simp at hhead

/-- The class with two fields and a constructor that only calls that of its parent: the
construction of an instance, a moment in front of the initializer of the field `y`, and the
moment at which the call of the parent constructor has succeeded. -/
theorem object_identity_of_twoFields : ∃ m,
    (∃ o m', (AtRest {} m ∧
      (construct {} (interpret {} 9) 2 []).outcome m = (some (.ok o), m')) ∧
        (constructedOf m.trace).Nodup ∧ m.HandsOut 2 o m') ∧
    (∃ o m' m₁ m₂ m₃ x y z className record old e ctx,
      ((constructFor {} (interpret {} 9) 2 2 []).outcome m = (some (.ok o), m') ∧
      InConstruction {} m 2 2 [] m₁ ∧ m₁.frames.length = m.frames.length + 1 ∧
      thisObject.outcome m₁ = (some (.ok x), m₂) ∧
      m₁.trace = .began (.instanceField 2 className y record) :: old ∧
      Occasions.Stage (.instanceField 2 className y record) (.eval e ctx) m₁ ∧
      (m.begun 2 2).frames.length = m.frames.length + 1 ∧
      (superCall (interpret {} 9) []).outcome (m.begun 2 2) = (some (.ok z), m₃) ∧
      InConstruction {} m 2 2 [] m₃) ∧
        HandsUp {} m.frames.length 2 2 o m₁ ∧ x = o ∧ y = o ∧ ctx = { receiver := .ref o } ∧
          z = o) ∧
    ∃ o m', (superCall (interpret {} 9) []).outcome (m.begun 2 2) = (some (.ok o), m') ∧
      ∃ f rest c p levels' m₁, (m.begun 2 2).frames = f :: rest ∧ f.this = none ∧
        m'.frames = { f with this := some o, phase := .body } :: rest ∧
        (m.begun 2 2).registry.class? f.cls = some c ∧ c.parent = some p ∧
        (constructFor {} (interpret {} levels') p f.newTarget []).outcome (m.begun 2 2) =
          (some (.ok o), m₁) := by
  obtain ⟨hout, hup, -, -, hsuper⟩ := object_identity {}
  let moment (m : Machine) : Machine :=
    ((runConstructor (interpretUntil {} (Machine.isBeginning 2) 9) 2 2 []).outcome (m.begun 2 2)).2
  let check (m : Machine) : Bool :=
    succeeds ((construct {} (interpret {} 9) 2 []).outcome m) &&
    succeeds ((constructFor {} (interpret {} 9) 2 2 []).outcome m) &&
    succeeds (thisObject.outcome (moment m)) && (moment m).isBeginning 2 &&
    succeeds ((superCall (interpret {} 9) []).outcome (m.begun 2 2)) &&
    (m.registry.class? 2).any fun c => c.kind == .derived && c.constructor.isNone
  have hrun : ((runStep {} 9 twoFields .initial).any fun p => check p.2) = true := by
    decide +kernel
  obtain ⟨⟨report, m⟩, hm, hcheck⟩ := (Option.any_eq_true ..).mp hrun
  have hm : AtRest {} m := .step .initial hm
  have hframes : m.frames = [] := ((places_moments {}).1 m hm).2.2
  simp only [check, Bool.and_eq_true, and_assoc] at hcheck
  obtain ⟨hconstruct, hfor, hthis, hbeginning, hcall, hclass⟩ := hcheck
  obtain ⟨o, m', hconstruct⟩ := exists_of_succeeds hconstruct
  obtain ⟨o', m'', hfor⟩ := exists_of_succeeds hfor
  obtain ⟨x, m₂, hthis⟩ := exists_of_succeeds hthis
  obtain ⟨z, m₃, hcall⟩ := exists_of_succeeds hcall
  obtain ⟨hlength, className, y, record, old, e, ctx, hbegins, hstage⟩ :=
    Machine.stage_of_isBeginning hbeginning
  have hinner : (moment m).frames.length = m.frames.length + 1 := by rw [hlength, hframes]; rfl
  have hmoment : InConstruction {} m 2 2 [] (moment m) := ⟨_, 9, [], by simp, rfl⟩
  have hreturned : InConstruction {} m 2 2 [] m₃ := by
    obtain ⟨c, hc, hdefault⟩ := (Option.any_eq_true ..).mp hclass
    simp only [Bool.and_eq_true, beq_iff_eq, Option.isNone_iff_eq_none] at hdefault
    have hrun : (runConstructor (interpretUntil {} (fun _ => false) 9) 2 2 []).outcome
        (m.begun 2 2) = (some (.ok ⟨⟩), m₃) := by
      rw [interpretUntil_never]
      exact outcome_runConstructor_of_default hc hdefault.1 hdefault.2 hcall
    exact ⟨fun _ => false, 9, [], by simp, (congrArg Prod.snd hrun).symm⟩
  have hands := hup m 2 2 [] 9 o' m'' hfor
  have hreceiver := (hands _ hmoment).receiver hinner 2 className y record old hbegins
  obtain ⟨honce, hhandsOut⟩ := hout m (.inl hm)
  exact ⟨m, ⟨o, m', ⟨hm, hconstruct⟩, honce, hhandsOut 9 2 [] o m' hconstruct⟩,
    ⟨o', m'', moment m, m₂, m₃, x, y, z, className, record, old, e, ctx,
      ⟨hfor, hmoment, hinner, hthis, hbegins, hstage, rfl, hcall, hreturned⟩, hands _ hmoment,
      (hands _ hmoment).this hinner x m₂ hthis, hreceiver.2.1, hreceiver.2.2 e ctx hstage,
      (hands _ hreturned).returned (m.begun 2 2) 9 [] z rfl hcall⟩,
    z, m₃, hcall, hsuper (m.begun 2 2) [] 9 z m₃ hcall⟩

end ClassMachine
