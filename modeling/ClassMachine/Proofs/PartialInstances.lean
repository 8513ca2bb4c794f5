import ClassMachine.Proofs.Failures
import ClassMachine.Proofs.FieldOrder

/-!
# Partial instances

A field that cannot be installed makes the installation fail, but the object is bound to its
frame already. So what becomes of the object is up to the constructor that has called the
parent constructor: if it catches the failure and ends well, its construction hands out the
object without the remaining fields of the class.

This is the only way. The constructor of a base class begins only when all fields of the
class are on the object, and a derived class without a constructor of its own catches
nothing. So a construction that succeeds has installed all fields of all classes of the
lineage, except at levels of derived classes with constructors of their own where the
failure was caught – right on its way out of the installation, with nothing between but the
ends of what it has interrupted (`ClassMachine.FailureCaught`).

Main statement: `ClassMachine.constructed_levels`.
-/

namespace ClassMachine

open Chronicle Machine

/-! ### Failures that were caught -/

/-- Something that a failure on its way does: it interrupts an activity, or the registration
of a class is taken back. -/
def Event.IsUnwinding : Event → Prop
  | failed _ | withdrawn .. => True
  | _ => False

/-- The failure that has interrupted the activity was caught on its way out of it. -/
def FailureCaught (a : Activity) (new : List Event) : Prop :=
  ∃ later e unwinding earlier,
    new = later ++ .caught e :: (unwinding ++ .failed a :: earlier) ∧
    (∀ x ∈ unwinding, x.IsUnwinding) ∧ a.context ∈ e.contexts

theorem Orderly.of_append {later earlier : List Event} (h : Orderly (later ++ earlier)) :
    Orderly earlier := by
  induction later with
  | nil => exact h
  | cons e later ih => exact ih h.2

/-- A failure on its way is caught, or goes on with nothing but interrupting activities and
taking registrations back. -/
theorem Orderly.unwinding_or_caught {later T : List Event} (h : Orderly (later ++ T))
    {e₀ : Failure} (he₀ : travelling T = some e₀) {context : Fault}
    (hcontext : context ∈ e₀.contexts) :
    ((∀ x ∈ later, x.IsUnwinding) ∧ travelling (later ++ T) ≠ none) ∨
    ∃ later' e unwinding, later = later' ++ .caught e :: unwinding ∧
      (∀ x ∈ unwinding, x.IsUnwinding) ∧ context ∈ e.contexts := by
  -- from the event that comes next on
  induction later using List.reverseRecOn generalizing T e₀ with
  | nil => exact .inl ⟨by simp, by simp [he₀]⟩
  | append_singleton later x ih =>
    rw [List.append_assoc] at h ⊢
    have hfollow : MayFollow x T := h.of_append.1
    have further {e : Failure} (he : travelling (x :: T) = some e) (hmem : context ∈ e.contexts)
        (hx : x.IsUnwinding) :
        ((∀ y ∈ later ++ [x], y.IsUnwinding) ∧ travelling (later ++ ([x] ++ T)) ≠ none) ∨
        ∃ later' e unwinding, later ++ [x] = later' ++ .caught e :: unwinding ∧
          (∀ x ∈ unwinding, x.IsUnwinding) ∧ context ∈ e.contexts := by
      have hmore {events : List Event} (hevents : ∀ y ∈ events, y.IsUnwinding) :
          ∀ y ∈ events ++ [x], y.IsUnwinding := fun y hy =>
        (List.mem_append.mp hy).elim (hevents y) fun hy => List.mem_singleton.mp hy ▸ hx
      rcases ih h he hmem with ⟨hunwinding, hgoes⟩ | ⟨later', e', unwinding, rfl, hunwinding, hmem'⟩
      · exact .inl ⟨hmore hunwinding, hgoes⟩
      · exact .inr ⟨later', e', unwinding ++ [x], by simp, hmore hunwinding, hmem'⟩
    cases x with
    | failed a =>
      exact further (e := e₀.within a.context) (by simp [travelling, he₀])
        (List.mem_cons_of_mem _ hcontext) trivial
    | withdrawn => exact further he₀ hcontext trivial
    | caught e =>
      obtain rfl : e₀ = e := Option.some.inj (he₀.symm.trans hfollow)
      exact .inr ⟨later, e₀, [], by simp, by simp, hcontext⟩
    | finished a => exact absurd (hfollow.2.symm.trans he₀) (by simp)
    | _ => exact absurd (Eq.symm hfollow |>.trans he₀) (by simp)

/-- A failure that has interrupted an activity is caught on its way out of it, or goes on. -/
theorem Orderly.unwinding_or_failureCaught {later earlier : List Event} {a : Activity}
    (h : Orderly (later ++ .failed a :: earlier)) :
    ((∀ x ∈ later, x.IsUnwinding) ∧ travelling (later ++ .failed a :: earlier) ≠ none) ∨
      FailureCaught a (later ++ .failed a :: earlier) := by
  obtain ⟨-, hfailing⟩ : MayFollow (.failed a) earlier := h.of_append.1
  obtain ⟨e₀, he₀⟩ := Option.ne_none_iff_exists'.mp hfailing
  have htravelling : travelling (.failed a :: earlier) = some (e₀.within a.context) := by
    simp [travelling, he₀]
  refine (h.unwinding_or_caught htravelling List.mem_cons_self).imp_right ?_
  rintro ⟨later', e, unwinding, rfl, hunwinding, hmem⟩
  exact ⟨later', e, unwinding, earlier, by simp, hunwinding, hmem⟩

/-- An activity that has failed in an operation that succeeds. -/
theorem Tells.failureCaught {α : Type} {new : List Event} {x : α}
    (h : Tells (some (.ok x : Except Failure α)) new) {a : Activity} (ha : .failed a ∈ new) :
    FailureCaught a new := by
  obtain ⟨later, earlier, rfl⟩ := List.append_of_mem ha
  exact h.orderly.unwinding_or_failureCaught.resolve_left fun hgoes =>
    hgoes.2 (h.travelling _ rfl)

/-! ### Failures in histories -/

/-- A level at which a field could not be installed says so. -/
theorem Level.failed_mem {o : ObjectId} {newTarget : ClassId} {levels : List Level} {l : Level}
    (hl : l ∈ levels) {r : FieldRecord} (hr : l.progress = .failed r) :
    .failed (l.activity o r) ∈ levelHistory o newTarget levels := by
  refine List.mem_cons_of_mem _ (List.mem_flatMap.mpr ⟨l, hl, ?_⟩)
  simp [Level.events, Level.progressEvents, hr]

/-- Whole levels tell of no failure. -/
theorem Level.not_failed_mem {o : ObjectId} {newTarget : ClassId} {levels : List Level}
    (h : ∀ l ∈ levels, l.Whole) (a : Activity) : .failed a ∉ levelHistory o newTarget levels := by
  simp only [levelHistory, List.mem_cons, List.mem_flatMap, not_or, not_exists, not_and]
  refine ⟨by simp, fun l hl => ?_⟩
  simp [Level.events, Level.doneEvents, Level.progressEvents, (h l hl).1]

/-! ### What a construction hands out -/

/-- A field of the level could not be installed; but the class of the level is derived and has
a constructor of its own, and the failure was caught. -/
def Level.Excused (l : Level) (m : Machine) (o : ObjectId) (new : List Event) : Prop :=
  ∃ r, l.progress = .failed r ∧
    (∃ c, .registered c ∈ m.trace ∧ c.id = l.cls ∧ c.parent.isSome ∧ c.constructor.isSome) ∧
    FailureCaught (l.activity o r) new

/-- The first level is that of a base class, so it cannot be excused. -/
theorem Level.Sure.whole_of_base {H : Chronicle}
    (hH : ∀ id p p', H.HasParent id p → H.HasParent id p' → p = p') {ids : List ClassId}
    {cls : ClassId} (hids : Lineage H.HasParent ids cls) {l : Level} (hl : l.Sure H)
    (hcls : ids.head? = some l.cls) : l.Whole := by
  refine hl.resolve_right ?_
  rintro ⟨c, hc, hid, hparent, -⟩
  obtain ⟨base, hhead, hbase⟩ := hids.head?
  obtain rfl : base = l.cls := Option.some.inj (hhead.symm.trans hcls)
  have hnone := hH _ _ _ hbase ⟨c, hc, hid, rfl⟩
  simp [← hnone] at hparent

theorem constructs_levels {settings : Settings} {perform : Performer}
    (hframes : perform.Keeps (framesContract settings)) (hfields : perform.Keeps fieldsContract)
    (hreports : perform.Keeps reportsContract) (hregistry : perform.Keeps registryContract)
    {m m' : Machine} (hm : m.Coherent) (hs : m.Sound) {cls : ClassId} {args : List Value}
    {o : ObjectId} (h : (construct settings perform cls args).outcome m = (some (.ok o), m')) :
    ∃ new levels, m'.trace = new ++ m.trace ∧ m.store.size ≤ o ∧ m'.InOrder o cls levels ∧
      Lineage m'.chronicle.HasParent (levels.map Level.cls) cls ∧
      (∀ l ∈ levels, l.Whole ∨ l.Excused m' o new) ∧ (∀ l ∈ levels.head?, l.Whole) ∧
      ((∀ e, .caught e ∉ new) → ∀ l ∈ levels, l.Whole) := by
  have hrun := ((call_registryLaw hregistry settings (.construct cls args) m).and
    (construct_fields hframes hfields hm hs cls args)).and
      (call_reports hframes hreports (.construct cls args) m)
  rw [Action.Ensures, Call.run, h] at hrun
  obtain ⟨⟨hlaw, hfields', hthrough⟩, new, hnew, htells⟩ := hrun
  have hm' : m'.Coherent := (hlaw hm).1.coherent
  obtain ⟨hs', -, -⟩ := hfields' hs
  obtain ⟨hborn, -, levels, hlevels, hsure⟩ := hthrough o rfl
  have hself : OnLineage m'.chronicle cls cls :=
    ⟨_, hlevels.lineage, _, List.prefix_refl _, hlevels.lineage⟩
  have hinstalled := hlevels.installed hm'.follows.hasParent_unique hself
  -- nothing had been noted about the object before, so its failures are new
  have hfailed {a : Activity} (ha : .failed a ∈ levelHistory o cls levels) : .failed a ∈ new := by
    rw [← hlevels.history, mem_historyOf, hnew, List.mem_append] at ha
    refine ha.1.resolve_right fun hold => ?_
    have hnone := hs.unborn o hborn
    exact List.not_mem_nil (hnone ▸ mem_historyOf.mpr ⟨hold, ha.2⟩)
  have hexcused (l : Level) (hl : l ∈ levels) : l.Whole ∨ l.Excused m' o new := by
    rcases hlevels.closed l hl with hwhole | ⟨r, hr⟩
    · exact .inl hwhole
    rcases hsure l hl with hwhole | ⟨c, hc, hclass⟩
    · exact .inl hwhole
    · exact .inr ⟨r, hr, ⟨c, List.mem_of_mem_filter hc, hclass⟩,
        htells.failureCaught (hfailed (l.failed_mem hl hr))⟩
  refine ⟨new, levels, hnew, hborn, hs'.inOrder hm' hinstalled, hlevels.lineage, hexcused,
    fun l hl => ?_, fun hcaught l hl => ?_⟩
  · exact (hsure l (List.mem_of_mem_head? hl)).whole_of_base hm'.follows.hasParent_unique
      hlevels.lineage (by simp [List.head?_map, Option.mem_def.mp hl])
  · refine (hexcused l hl).resolve_right ?_
    rintro ⟨r, -, -, later, e, unwinding, earlier, rfl, -⟩
    exact hcaught e (by simp)

/-- **What a construction hands out.** A construction that succeeds hands out an object that
was not there before. On it there is a level for each class of the lineage, from the base
class on, all begun during the construction. The first level is whole, and so is every other
one, unless one of its fields could not be installed; then its class is derived and has a
constructor of its own, and client code has caught the failure on its way out of the
installation. So if nothing is caught during a construction, it hands out an object with all
fields of all classes, or fails. -/
theorem constructed_levels (settings : Settings) (m m' : Machine)
    (hm : AtRest settings m ∨ Reachable settings m) (levels : Nat) (cls : ClassId)
    (args : List Value) (o : ObjectId)
    (h : (construct settings (interpret settings levels) cls args).outcome m =
      (some (.ok o), m')) :
    ∃ new ls, m'.trace = new ++ m.trace ∧ m.store.size ≤ o ∧ m'.InOrder o cls ls ∧
      Lineage m'.chronicle.HasParent (ls.map Level.cls) cls ∧
      (∀ l ∈ ls, l.Whole ∨ l.Excused m' o new) ∧ (∀ l ∈ ls.head?, l.Whole) ∧
      ((∀ e, .caught e ∉ new) → ∀ l ∈ ls, l.Whole) := by
  obtain ⟨hregistry, hframes, hfields⟩ := keeps_fullContract.mp
    (interpret_keeps (step_keeps_full settings) levels)
  obtain ⟨-, hreports⟩ := Performer.keeps_and.mp (interpret_keeps_reports settings levels)
  obtain ⟨hcoherent, hs⟩ := sound_of_moment hm
  exact constructs_levels hframes hfields hreports hregistry hcoherent hs h

/-- A derived class of which the constructor goes on whatever the parent constructor does:
`class B extends (class A {}) { f = throw "boom"; constructor() { try { super() } catch {} } }`. -/
def forgivingClass : Expr :=
  .classDefinition
    { name := some (.literal (.str "B")),
      heritage := some (.primitive .classObject [.classDefinition
        { name := some (.literal (.str "A")), heritage := none, constructor := none,
          elements := [] }]),
      constructor := some (.attempt (.reentry .super []) none),
      elements := [.field (.literal "f") false
        (some (.primitive .throw [.literal (.str "boom")]))] }

/-- Is the event the failure of an instance field on the object? -/
def Event.isFailureOn (o : ObjectId) : Event → Bool
  | failed (.instanceField _ _ target _) => target == o
  | _ => false

/-- Has a field failed on the object that was handed out? -/
def handsOutFailed : Option (Except Failure ObjectId) × Machine → Bool
  | (some (.ok o), m) => m.trace.any (Event.isFailureOn o)
  | _ => false

/-- Constructing an instance of the class succeeds, although its field has failed on it. -/
theorem exists_forgiving_run : ∃ m m' o, AtRest {} m ∧
    (construct {} (interpret {} 9) 2 []).outcome m = (some (.ok o), m') ∧
      ∃ e ∈ m'.trace, e.isFailureOn o := by
  have hrun : ((runStep {} 9 forgivingClass .initial).any fun p =>
      handsOutFailed ((construct {} (interpret {} 9) 2 []).outcome p.2)) = true := by
    decide +kernel
  obtain ⟨⟨report, m⟩, hm, hfailed⟩ := (Option.any_eq_true ..).mp hrun
  unfold handsOutFailed at hfailed
  split at hfailed
  next o m' h => exact ⟨m, m', o, .step .initial hm, h, List.any_eq_true.mp hfailed⟩
  next => simp at hfailed

/-- **Not every construction that succeeds hands out a whole instance.** -/
theorem constructed_partially : ∃ m m' o, AtRest {} m ∧
    (construct {} (interpret {} 9) 2 []).outcome m = (some (.ok o), m') ∧
      ¬ ∃ ls, m'.InOrder o 2 ls ∧ ∀ l ∈ ls, l.Whole := by
  obtain ⟨m, m', o, hm, h, e, he, hfailure⟩ := exists_forgiving_run
  refine ⟨m, m', o, hm, h, ?_⟩
  rintro ⟨ls, hls, hwhole⟩
  unfold Event.isFailureOn at hfailure
  split at hfailure
  next =>
    refine Level.not_failed_mem hwhole _ (hls.history ▸ mem_historyOf.mpr ⟨he, hfailure⟩)
  next => simp at hfailure

/-- What it hands out. -/
theorem constructed_levels_of_forgivingClass : ∃ m m' o, (AtRest {} m ∧
    (construct {} (interpret {} 9) 2 []).outcome m = (some (.ok o), m')) ∧
      ∃ new ls, m'.trace = new ++ m.trace ∧ m.store.size ≤ o ∧ m'.InOrder o 2 ls ∧
        Lineage m'.chronicle.HasParent (ls.map Level.cls) 2 ∧
        (∀ l ∈ ls, l.Whole ∨ l.Excused m' o new) ∧ (∀ l ∈ ls.head?, l.Whole) ∧
        ((∀ e, .caught e ∉ new) → ∀ l ∈ ls, l.Whole) := by
  obtain ⟨m, m', o, hm, h, -⟩ := exists_forgiving_run
  exact ⟨m, m', o, ⟨hm, h⟩, constructed_levels {} m m' (.inl hm) 9 2 [] o h⟩

end ClassMachine
