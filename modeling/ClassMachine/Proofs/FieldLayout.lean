import ClassMachine.Proofs.FieldValues
import ClassMachine.Proofs.LevelNames
import ClassMachine.Proofs.Unwinding

/-!
# The layout of an instance

A new instance has no properties, and each field that is installed on it leaves a plain one. A
name that was there before keeps its place and gets the new value. So the keys of an instance
that no client has changed are the names of its fields, each at its first occurrence, and the
value under a name is that of the last field of the name (`ClassMachine.Object.HasLayout`). This
value is what the record of the field has given (`ClassMachine.Machine.HasInstalled`).

Which fields these are is told by the levels of the instance. If a construction succeeds, and
none of the failures of these fields was caught, they are the fields of all classes of the
lineage, from the base class on. If a field fails and the failure is not caught, they are the
fields in front of it; the construction fails as well, for the reason that this field could not be
installed, and nothing runs in it any more.

Main statement: `ClassMachine.field_layout`.
-/

namespace ClassMachine

open Machine

/-! ### Layouts -/

/-- The names of fields that were installed with these values. -/
def namesOf (fields : List (FieldRecord × Value)) : List String :=
  fields.map fun field => field.1.name

/-- The value of the last field of the name. -/
def lastValue? (fields : List (FieldRecord × Value)) (name : String) : Option Value :=
  (fields.reverse.find? fun field => field.1.name == name).map Prod.snd

/-- The properties of the object are those that the fields have left. -/
structure Object.HasLayout (o : Object) (fields : List (FieldRecord × Value)) : Prop where
  /-- Each name stands where it occurs first. -/
  keys : o.keys = (namesOf fields).eraseDups
  /-- Each property is plain, and has the value of the last field of its name. -/
  property? : ∀ key, o.property? key = (lastValue? fields key).map Property.plain
  extensible : o.extensible = true

section Layout

variable {fields : List (FieldRecord × Value)} {field : FieldRecord × Value}

theorem namesOf_concat : namesOf (fields ++ [field]) = namesOf fields ++ [field.1.name] := by
  simp [namesOf]

theorem lastValue?_concat (key : String) :
    lastValue? (fields ++ [field]) key =
      if field.1.name = key then some field.2 else lastValue? fields key := by
  have hreverse : (fields ++ [field]).reverse = field :: fields.reverse := by simp
  rw [lastValue?, hreverse]
  split
  next h => rw [List.find?_cons_of_pos (by simpa using h), Option.map_some]
  next h => rw [List.find?_cons_of_neg (by simpa using h), lastValue?]

theorem isSome_lastValue? (key : String) :
    (lastValue? fields key).isSome ↔ key ∈ namesOf fields := by
  simp [lastValue?, namesOf]

/-- A further name, behind all others unless it is one of them. -/
theorem eraseDups_concat (names : List String) (name : String) :
    (names ++ [name]).eraseDups =
      if name ∈ names then names.eraseDups else names.eraseDups ++ [name] := by
  rw [List.eraseDups_append]
  split
  next h => simp [List.removeAll, h]
  next h => simp [List.removeAll, h, List.eraseDups_cons]

/-- **One field more.** -/
theorem Object.HasLayout.take {o : Object} (h : o.HasLayout fields) :
    (o.take field).HasLayout (fields ++ [field]) := by
  have hsome : (o.property? field.1.name).isSome ↔ field.1.name ∈ namesOf fields := by
    rw [h.property?, Option.isSome_map, isSome_lastValue?]
  -- a plain property may be replaced, and a new one be added
  have hallowed : ¬ ∃ f, o.define field.1.name (.plain field.2) = .error f := by
    rw [define_eq_error_iff]
    rintro (⟨old, hold, hfixed⟩ | ⟨-, hclosed⟩)
    · rw [h.property?, Option.map_eq_some_iff] at hold
      obtain ⟨v, -, rfl⟩ := hold
      simp [Property.plain, Property.isConfigurable] at hfixed
    · simp [h.extensible] at hclosed
  rcases hdefine : o.define field.1.name (.plain field.2) with f | o'
  · exact absurd ⟨f, hdefine⟩ hallowed
  have htake : o.take field = o' := by simp [Object.take, hdefine]
  rw [htake]
  refine ⟨?_, fun key => ?_, (extensible_define hdefine).trans h.extensible⟩
  · simp only [keys_of_define hdefine, hsome, namesOf_concat, eraseDups_concat, h.keys]
  · rw [property?_of_define hdefine, lastValue?_concat, h.property?]
    split <;> rfl

/-- **What fields make of a new object.** -/
theorem Object.hasLayout_takeAll (fields : List (FieldRecord × Value)) :
    (Store.blank.takeAll fields).HasLayout fields := by
  -- the last field comes on top of all others
  induction fields using List.reverseRecOn with
  | nil => exact ⟨rfl, fun key => by simp [Object.takeAll, Store.blank, Object.property?,
      lastValue?], rfl⟩
  | append_singleton fields field ih =>
    rw [Object.takeAll_append]
    exact ih.take

end Layout

/-! ### Fields that are finished -/

theorem Event.eq_allocated {e : Event} {o : ObjectId} (h : e.makes o = true) :
    ∃ newTarget, e = .allocated o newTarget := by
  unfold Event.makes at h
  split at h
  next this newTarget => exact ⟨newTarget, by rw [beq_iff_eq.mp h]⟩
  next => simp at h

/-- A level tells of no object that is made. -/
theorem Level.not_makes {l : Level} {o : ObjectId} {e : Event} (he : e ∈ l.events o) :
    e.makes o = false := by
  simp only [Level.events, Level.doneEvents, Level.progressEvents, List.mem_cons,
    List.mem_append, List.mem_flatMap] at he
  rcases he with rfl | ⟨r, -, he⟩ | he
  · rfl
  · rcases he with rfl | he
    · rfl
    · rcases he with rfl | he
      · rfl
      · exact absurd he List.not_mem_nil
  · split at he <;> simp only [List.mem_cons, List.not_mem_nil, or_false] at he
    · subst he
      rfl
    · rcases he with rfl | rfl <;> rfl

/-- The fields finished in the events of a level are those that are done. -/
theorem Level.filterMap_finish? (l : Level) (o : ObjectId) :
    (l.events o).filterMap (Event.finish? o) = l.done := by
  have hdone : (l.doneEvents o).filterMap (Event.finish? o) = l.done := by
    rw [Level.doneEvents, List.filterMap_flatMap]
    simp [List.filterMap_cons, Event.finish?, Level.activity]
  have hprogress : (l.progressEvents o).filterMap (Event.finish? o) = [] := by
    unfold Level.progressEvents
    split <;> simp [Event.finish?]
  rw [Level.events, List.filterMap_cons_none rfl, List.filterMap_append, hdone, hprogress,
    List.append_nil]

theorem historyOf_append (T T' : List Event) (o : ObjectId) :
    historyOf (T' ++ T) o = historyOf T o ++ historyOf T' o := by
  simp [historyOf]

/-- What is finished on an object belongs to its history. -/
theorem filterMap_historyOf (T : List Event) (o : ObjectId) :
    (historyOf T o).filterMap (Event.finish? o) = (T.filterMap (Event.finish? o)).reverse := by
  rw [historyOf, List.filterMap_reverse, List.filterMap_filter]
  congr 2
  funext e
  cases e with
  | finished a =>
    cases a with
    | instanceField cls className this record =>
      simp only [Event.isAbout, Event.finish?, beq_iff_eq]
      split <;> rfl
    | _ => rfl
  | _ => first | rfl | simp [Event.finish?]

/-- **The fields finished on an instance** are those that are done at its levels. -/
theorem finishesOf_of_history {T : List Event} {o : ObjectId} {newTarget : ClassId}
    {levels : List Level} (h : historyOf T o = levelHistory o newTarget levels) :
    finishesOf T o = levels.flatMap Level.done := by
  have hall : (historyOf T o).filterMap (Event.finish? o) = levels.flatMap Level.done := by
    rw [h, levelHistory, List.filterMap_cons_none rfl, List.filterMap_flatMap]
    simp only [Level.filterMap_finish?]
  -- nothing of the history is older than the object
  have hsplit : historyOf T o =
      historyOf (T.dropWhile fun e => !e.makes o) o ++ historyOf (sinceMade T o) o := by
    rw [← historyOf_append, sinceMade, List.takeWhile_append_dropWhile]
  have hold : (historyOf (T.dropWhile fun e => !e.makes o) o).filterMap (Event.finish? o) = [] := by
    rcases hdrop : T.dropWhile fun e => !e.makes o with _ | ⟨e, old⟩
    · rw [hdrop]
      rfl
    rw [hdrop] at hsplit ⊢
    have hmakes : e.makes o = true := by
      have := List.head?_dropWhile_not (fun e => !Event.makes o e) T
      simpa [hdrop] using this
    obtain ⟨newTarget', rfl⟩ := Event.eq_allocated hmakes
    have habout : historyOf (.allocated o newTarget' :: old) o =
        historyOf old o ++ [.allocated o newTarget'] :=
      historyOf_cons_of_about (beq_self_eq_true o)
    rw [habout] at hsplit ⊢
    rcases hhistory : historyOf old o with _ | ⟨x, xs⟩
    · rfl
    · -- an instance would have been made at one of its levels
      rw [h, levelHistory, hhistory, List.append_assoc, List.cons_append] at hsplit
      have hmem : .allocated o newTarget' ∈ levels.flatMap fun l => l.events o := by
        rw [(List.cons.inj hsplit).2]
        simp
      obtain ⟨l, -, hl⟩ := List.mem_flatMap.mp hmem
      exact absurd hmakes (by simp [l.not_makes hl])
  rw [hsplit, List.filterMap_append, hold, List.nil_append, filterMap_historyOf] at hall
  exact hall

theorem Event.eq_installed {e : Event} {o : ObjectId} {field : FieldRecord × Value}
    (h : e.installed? o = some field) : e = .installed o field.1 field.2 := by
  unfold Event.installed? at h
  split at h
  next =>
    obtain ⟨rfl, hfield⟩ := Option.ite_none_right_eq_some.mp h
    rw [← Option.some.inj hfield]
  next => simp at h

/-- When the object was made, nothing had been noted since. -/
theorem sinceMade_dropWhile (T : List Event) (o : ObjectId) :
    sinceMade (T.dropWhile fun e => !e.makes o) o = [] := by
  rw [sinceMade, List.takeWhile_eq_nil_iff]
  exact fun hl => List.dropWhile_get_zero_not (fun e => !Event.makes o e) T hl

/-- What was noted when a field had been installed. -/
theorem exists_of_installsOf {T : List Event} {o : ObjectId}
    {before after : List (FieldRecord × Value)} {field : FieldRecord × Value}
    (h : installsOf T o = before ++ field :: after) :
    ∃ later earlier, T = later ++ .installed o field.1 field.2 :: earlier ∧
      (∀ e ∈ later, e.makes o = false) ∧ installsOf earlier o = before := by
  let old := T.dropWhile fun e => !e.makes o
  have hsplit : sinceMade T o ++ old = T := List.takeWhile_append_dropWhile
  have hnone : ∀ e ∈ sinceMade T o, e.makes o = false := fun e he => by
    simpa using List.mem_takeWhile_imp he
  have hfields : (sinceMade T o).filterMap (Event.installed? o) =
      after.reverse ++ field :: before.reverse := by
    rw [← List.reverse_reverse (List.filterMap ..), show (List.filterMap ..).reverse = _ from h]
    simp
  obtain ⟨newer, rest, hsince, -, hrest⟩ := List.filterMap_eq_append_iff.mp hfields
  obtain ⟨between, e, older, rfl, -, he, holder⟩ := List.filterMap_eq_cons_iff.mp hrest
  obtain rfl := Event.eq_installed he
  rw [hsince] at hsplit hnone
  have holderNone : ∀ e ∈ older, e.makes o = false := fun e he => hnone e (by simp [he])
  refine ⟨newer ++ between, older ++ old, by simpa using hsplit.symm, fun e he => hnone e ?_, ?_⟩
  · rcases List.mem_append.mp he with he | he <;> simp [he]
  · have holder' : sinceMade older o = older :=
      List.takeWhile_eq_self_iff.mpr fun e he => by simp [holderNone e he]
    rw [installsOf, sinceMade_append holderNone, sinceMade_dropWhile, List.append_nil, holder',
      holder, List.reverse_reverse]

/-! ### What becomes of instances in a call -/

/-- How the machine came to a field on an object behind others: the field was begun, the rule of
its record gave the value, and then it was installed, when the object was laid out by the others. -/
def Machine.HasInstalled (settings : Settings) (m : Machine) (o : ObjectId)
    (before : List (FieldRecord × Value)) (field : FieldRecord × Value) : Prop :=
  ∃ levels m₁ m₂ cls className old later,
    m₁.trace = .began (.instanceField cls className o field.1) :: old ∧
    (fieldValue (interpret settings levels) o field.1).outcome m₁ = (some (.ok field.2), m₂) ∧
    m.trace = later ++ .installed o field.1 field.2 :: m₂.trace ∧
    (m₂.store.object o).HasLayout before

/-- The instance is what the fields that are done at its levels have made of it. -/
structure Machine.LaidOut (settings : Settings) (m : Machine) (o : ObjectId) (newTarget : ClassId)
    (levels : List Level) (fields : List (FieldRecord × Value)) : Prop where
  inOrder : m.InOrder o newTarget levels
  /-- Each level is in the name of its class. -/
  names : ∀ l ∈ levels, ∃ c, .registered c ∈ m.trace ∧ c.id = l.cls ∧ c.displayName = l.className
  records : fields.map Prod.fst = levels.flatMap Level.done
  layout : (m.store.object o).HasLayout fields
  /-- Each value comes from the record of its field. -/
  values : ∀ before field after, fields = before ++ field :: after →
    m.HasInstalled settings o before field

/-- No client changes the object, and none catches the failure of one of its fields. -/
structure LeftAlone (o : ObjectId) (new : List Event) : Prop where
  unchanged : .changed o ∉ new
  uncaught : ∀ cls className record, ¬ FailureCaught (.instanceField cls className o record) new

/-- An instance that was made meanwhile has a layout, if no client has changed it. -/
theorem Machine.FurnishedBy.hasLayout {m m' : Machine} {new : List Event}
    (h : m.FurnishedBy new m') {o : ObjectId} (ho : m.store.size ≤ o)
    (hinstance : (m'.store.object o).kind.IsInstance) (hchanged : .changed o ∉ new) :
    (m'.store.object o).HasLayout (installsOf new o) := by
  have hcontent := h.properties o hinstance hchanged
  rw [Store.object_of_le ho] at hcontent
  have hlayout := Object.hasLayout_takeAll (installsOf new o)
  rw [show Store.blank.takeAll (installsOf new o) = (m'.store.object o).content from
    hcontent.symm] at hlayout
  exact ⟨hlayout.keys, hlayout.property?, hlayout.extensible⟩

/-- And the levels tell of what. -/
theorem Machine.SuppliedBy.laidOut {settings : Settings} {m m' : Machine} {new : List Event}
    (h : m.SuppliedBy settings new m') {o : ObjectId} {newTarget : ClassId} {levels : List Level}
    (ho : m.store.size ≤ o) (hinstance : (m'.store.object o).kind.IsInstance)
    (hchanged : .changed o ∉ new) (hlevels : m'.InOrder o newTarget levels)
    (hnames : m'.NamesLevels) : m'.LaidOut settings o newTarget levels (installsOf new o) := by
  refine ⟨hlevels, fun l hl => ?_, ?_, h.hasLayout ho hinstance hchanged,
    fun before field after hfields => ?_⟩
  · obtain ⟨later, earlier, htrace, -⟩ := hlevels.records l hl
    exact hnames l.frame l.cls l.className o l.records (by simp [htrace])
  · have hsince : sinceMade m'.trace o = sinceMade new o := by
      rw [h.trace, sinceMade_append_of_made (h.told o ho hinstance)]
    have hfinished := finishesOf_of_history hlevels.history
    rw [finishesOf, hsince] at hfinished
    rw [h.finished o hinstance, finishesOf, hfinished]
  · obtain ⟨later, earlier, rfl, hlater, rfl⟩ := exists_of_installsOf hfields
    obtain ⟨levels, m₁, m₂, cls, className, old, hbegan, hvalue, hfurnished, hm₂⟩ :=
      h.values later o field.1 field.2 earlier rfl hlater hinstance
    refine ⟨levels, m₁, m₂, cls, className, old ++ m.trace, later, hbegan.trace, hvalue, ?_,
      hfurnished.hasLayout ho hm₂ fun he => hchanged (by simp [he])⟩
    rw [h.trace, hfurnished.trace, List.append_assoc, List.cons_append]

section Call

variable {α : Type} {settings : Settings} {levels : Nat} {m m' : Machine} {c : Call α}
  {r : Except Failure α}

/-- **The instances made in a call**: each of them has levels that are closed, and nothing else has
been noted of it; and if no client has changed it, its layout is that of the fields that are done
at these levels. -/
theorem call_instances (hm : AtRest settings m ∨ Reachable settings m)
    (h : (c.run settings (interpret settings levels)).outcome m = (some r, m')) :
    ∃ new, m'.trace = new ++ m.trace ∧ Tells (some r) new ∧
      ∀ o newTarget, .allocated o newTarget ∈ new →
        (∃ ls, m'.InOrder o newTarget ls ∧ ∀ l ∈ ls, l.Closed) ∧
        ∀ ls, m'.InOrder o newTarget ls → historyOf new o = levelHistory o newTarget ls ∧
          (.changed o ∉ new → m'.LaidOut settings o newTarget ls (installsOf new o)) := by
  obtain ⟨hregistry, hframes, hfields⟩ := keeps_fullContract.mp
    (interpret_keeps (step_keeps_full settings) levels)
  obtain ⟨-, hreports⟩ := Performer.keeps_and.mp (interpret_keeps_reports settings levels)
  obtain ⟨-, hplaces⟩ := Performer.keeps_and.mp
    (interpret_keeps (step_keeps_placed settings) levels)
  have ha : m.Accounted := accounted_of_moment hm
  obtain ⟨hcoherent, hs⟩ := sound_of_moment hm
  have hrun := (((call_fieldsLaw hframes hregistry hfields c m).and
    (call_placesLaw hregistry hplaces c m)).and
      ((call_reports hframes hreports c m).and (call_furnishes settings levels c m))).and
        (call_named (interpret_keeps (fun _ hp => step_keeps_levelNames hp settings) levels)
          settings c m)
  rw [Action.Ensures, h] at hrun
  obtain ⟨⟨⟨hfieldsLaw, hplacesLaw⟩, ⟨new, hnew, htells⟩, new', hfurnished⟩, hnamed⟩ := hrun
  obtain rfl : new' = new := List.append_cancel_right (hfurnished.trace.symm.trans hnew)
  obtain ⟨hsettles, hlaw⟩ := hfieldsLaw hcoherent
  obtain ⟨hs', hgrown, -⟩ := hlaw hs
  have ha' : m'.Accounted := ((hplacesLaw hcoherent).2 ha).accounted
  have hnames : m'.NamesLevels := (hnamed hcoherent).2 (names_of_moment hm)
  refine ⟨new', hnew, htells, fun o newTarget ho => ?_⟩
  have hborn : m.store.size ≤ o := hfurnished.made o _ ho (beq_self_eq_true o)
  have hmem : .allocated o newTarget ∈ m'.trace := hnew ▸ List.mem_append_left _ ho
  refine ⟨?_, fun ls hinOrder => ⟨?_, fun hchanged => ?_⟩⟩
  · obtain ⟨ls, hls, hclosed⟩ := (hgrown.new o hborn).installed
      (mem_historyOf.mpr ⟨hmem, beq_self_eq_true o⟩)
    exact ⟨ls, hs'.inOrder hsettles.coherent hls, hclosed⟩
  · -- nothing had been noted of the object before
    rw [← hinOrder.history, hnew, historyOf_append, hs.unborn o hborn, List.nil_append]
  · obtain ⟨-, hkind, -⟩ := ha.isInstance_of_new ha' hborn hmem hnew
    have hinstance : (m'.store.object o).kind.IsInstance := by
      rw [hkind]
      trivial
    exact hfurnished.laidOut hborn hinstance hchanged hinOrder hnames

end Call

/-! ### Fields that fail -/

/-- A failure in a history is that of a field of one of the levels. -/
theorem Level.of_failed_mem {o : ObjectId} {newTarget : ClassId} {levels : List Level}
    {a : Activity} (h : .failed a ∈ levelHistory o newTarget levels) :
    ∃ l ∈ levels, ∃ r, l.progress = .failed r ∧ a = l.activity o r := by
  simp only [levelHistory, List.mem_cons, List.mem_flatMap, reduceCtorEq, false_or] at h
  obtain ⟨l, hl, h⟩ := h
  simp only [Level.events, Level.doneEvents, Level.progressEvents, List.mem_cons,
    List.mem_append, List.mem_flatMap, reduceCtorEq, false_or, List.not_mem_nil, or_false,
    and_false, exists_false] at h
  split at h <;> simp only [List.mem_cons, reduceCtorEq, false_or, List.not_mem_nil, or_false,
    Event.failed.injEq] at h
  exact ⟨l, hl, _, ‹_›, h⟩

section Failed

variable {α : Type} {r : Except Failure α} {new : List Event} {o : ObjectId} {newTarget : ClassId}
  (htells : Tells (some r) new)

include htells

/-- Behind a level at which a field has failed there is no other one, unless the failure was
caught. -/
theorem Tells.eq_nil_of_failed {before after : List Level} {l : Level} {record : FieldRecord}
    (hhistory : historyOf new o = levelHistory o newTarget (before ++ l :: after))
    (hfailed : l.progress = .failed record)
    (huncaught : ¬ FailureCaught (l.activity o record) new) : after = [] := by
  -- the events of the level end with the failure
  have hfilter : new.filter (Event.isAbout o) = (after.flatMap fun l => l.events o).reverse ++
      .failed (l.activity o record) :: (levelHistory o newTarget before ++
        Event.installing l.frame l.cls l.className o l.records :: (l.doneEvents o ++
          [Event.began (l.activity o record)])).reverse := by
    rw [← List.reverse_reverse (new.filter (Event.isAbout o)),
      show (new.filter (Event.isAbout o)).reverse = _ from hhistory]
    simp [levelHistory, Level.events, Level.progressEvents, hfailed]
  obtain ⟨later, rest, rfl, hlater, hrest⟩ := List.filter_eq_append_iff.mp hfilter
  obtain ⟨between, earlier, rfl, -, -, -⟩ := List.filter_eq_cons_iff.mp hrest
  rw [← List.append_assoc] at huncaught htells
  obtain ⟨hunwinding, -⟩ := htells.orderly.unwinding_or_failureCaught.resolve_right huncaught
  rcases after with _ | ⟨l', after⟩
  · rfl
  · have hmem : .installing l'.frame l'.cls l'.className o l'.records ∈
        later.filter (Event.isAbout o) := by
      rw [hlater]
      simp [Level.events]
    exact (hunwinding _ (List.mem_append_left _ (List.mem_of_mem_filter hmem))).elim

/-- **A field that fails** is one of the last level, and all other levels are whole. -/
theorem Tells.levels_of_failed {levels : List Level}
    (hhistory : historyOf new o = levelHistory o newTarget levels)
    (hclosed : ∀ l ∈ levels, l.Closed) (halone : LeftAlone o new) {id : ClassId}
    {className : String} {record : FieldRecord}
    (hfailed : .failed (.instanceField id className o record) ∈ new) :
    ∃ before l, levels = before ++ [l] ∧ (∀ l' ∈ before, l'.Whole) ∧ l.cls = id ∧
      l.className = className ∧ l.progress = .failed record := by
  have hmem : .failed (.instanceField id className o record) ∈ levelHistory o newTarget levels :=
    hhistory ▸ mem_historyOf.mpr ⟨hfailed, beq_self_eq_true o⟩
  obtain ⟨l, hl, record', hprogress, ha⟩ := Level.of_failed_mem hmem
  obtain ⟨rfl, rfl, -, rfl⟩ := Activity.instanceField.inj ha
  obtain ⟨before, after, rfl⟩ := List.append_of_mem hl
  obtain rfl := htells.eq_nil_of_failed hhistory hprogress (halone.uncaught _ _ _)
  refine ⟨before, l, rfl, fun l' hl' => ?_, rfl, rfl, hprogress⟩
  refine (hclosed l' (List.mem_append_left _ hl')).resolve_right ?_
  rintro ⟨record', hprogress'⟩
  obtain ⟨before', after', rfl⟩ := List.append_of_mem hl'
  rw [List.append_assoc, List.cons_append] at hhistory
  simpa using htells.eq_nil_of_failed hhistory hprogress' (halone.uncaught _ _ _)

end Failed

/-! ### The way of the failure -/

/-- How a failure goes on that has interrupted the activity and is not caught. -/
structure Failure.HasPassed (e : Failure) (a : Activity) (outer : List Activity) : Prop where
  /-- It has a layer for the activity, and above it one for each activity around that one. -/
  contexts : ∃ inner, e.contexts = (outer.map Activity.context).reverse ++ a.context :: inner
  /-- The outermost layer is that of the outermost activity: of this one, if there is nothing
  around it. -/
  outermost : e.outermost = ((a :: outer).getLast (List.cons_ne_nil a outer)).context

/-- **The way of a failure** that has interrupted an activity and is not caught: the operation
fails with it, it has a layer for the activity, and the fault was raised before. -/
theorem Explains.of_failed {α : Type} {r : Except Failure α} {later earlier : List Event}
    {a : Activity} (h : Explains (later ++ .failed a :: earlier) r)
    (huncaught : ¬ FailureCaught a (later ++ .failed a :: earlier)) :
    (∀ x ∈ later, x.IsUnwinding) ∧ ∃ e outer, r = .error e ∧ activeOf earlier = a :: outer ∧
      e.HasPassed a outer ∧ ∃ inside before, earlier = inside ++ .raised e.cause :: before ∧
        ∀ e', .caught e' ∉ inside := by
  have horderly := h.orderly
  obtain ⟨hunwinding, -⟩ := horderly.unwinding_or_failureCaught.resolve_right huncaught
  obtain ⟨hhead, hgoes⟩ : MayFollow (.failed a) earlier := horderly.of_append.1
  obtain ⟨outer, houter⟩ := List.head?_eq_some_iff.mp hhead
  obtain ⟨e₀, he₀⟩ := Option.ne_none_iff_exists'.mp hgoes
  obtain ⟨inside, f, before, rfl, hinside⟩ := exists_raised_of_travelling he₀
  -- from there on nothing has caught the failure, so it is what is left
  have hcaught : ∀ e, .caught e ∉ later ++ .failed a :: inside := by
    intro e he
    rcases List.mem_append.mp he with he | he
    · exact hunwinding _ he
    · exact hinside e ((List.mem_cons.mp he).resolve_left (by simp))
  have hr := h.raised (later ++ .failed a :: inside) f before (by simp) hcaught
  have hearlier : Orderly (inside ++ .raised f :: before) := horderly.of_append.2
  obtain ⟨interrupted, hactive, -⟩ := hearlier.travelling_of_raised hinside
  rw [houter] at hactive
  have hcontexts : ((activeOf before).map Activity.context).reverse =
      (outer.map Activity.context).reverse ++
        a.context :: (interrupted.map Activity.context).reverse := by
    simp [hactive]
  refine ⟨hunwinding, _, outer, hr, houter, ⟨⟨_, hcontexts⟩, ?_⟩, inside, before, rfl, hinside⟩
  rcases List.eq_nil_or_concat outer with rfl | ⟨between, outermost, rfl⟩
  · simp [Failure.outermost, hcontexts]
  · simp [Failure.outermost, hcontexts, List.getLast_cons]

/-! ### Constructions -/

/-- How a call ends in which a field could not be installed on an instance, between these events
that were noted before and later. -/
structure Call.FailsAtField {α : Type} (c : Call α) (settings : Settings) (levels : Nat)
    (m m' : Machine) (r : Except Failure α) (later earlier : List Event) (o : ObjectId)
    (newTarget id : ClassId) (className : String) (record : FieldRecord) : Prop where
  /-- On the object are the fields in front of this one, and these only. -/
  layout : ∃ before l, (∀ l' ∈ before, l'.Whole) ∧ l.cls = id ∧ l.className = className ∧
    l.progress = .failed record ∧ m'.LaidOut settings o newTarget (before ++ [l])
      (installsOf (later ++ .failed (.instanceField id className o record) :: earlier) o)
  /-- The call fails, and the failure names the field and the class; and nothing has run since the
  fault was raised. -/
  fails : ∃ e outer, r = .error e ∧
    activeOf earlier = .instanceField id className o record :: outer ∧
    e.HasPassed (.instanceField id className o record) outer ∧
    ∃ inside before, earlier = inside ++ .raised e.cause :: before ∧
      c.StopsAt settings levels m (.raised e.cause :: before ++ m.trace) m'
  unwinding : ∀ x ∈ later, x.IsUnwinding

section Call

variable {α : Type} {settings : Settings} {levels : Nat} {m m' : Machine} {c : Call α}
  {r : Except Failure α} (h : (c.run settings (interpret settings levels)).outcome m = (some r, m'))

include h

/-- **A field that fails** makes the call fail, if the failure is not caught. -/
theorem call_failsAtField {new later earlier : List Event} (hnew : m'.trace = new ++ m.trace)
    (htells : Tells (some r) new) {o : ObjectId} {newTarget : ClassId} {ls : List Level}
    (hclosed : ∀ l ∈ ls, l.Closed) (hhistory : historyOf new o = levelHistory o newTarget ls)
    (hlaidOut : m'.LaidOut settings o newTarget ls (installsOf new o)) (halone : LeftAlone o new)
    {id : ClassId} {className : String} {record : FieldRecord}
    (hsplit : new = later ++ .failed (.instanceField id className o record) :: earlier) :
    c.FailsAtField settings levels m m' r later earlier o newTarget id className record := by
  subst hsplit
  have hfailed : .failed (.instanceField id className o record) ∈
      later ++ .failed (.instanceField id className o record) :: earlier := by simp
  obtain ⟨before, l, rfl, hwhole, hcls, hclassName, hprogress⟩ :=
    htells.levels_of_failed hhistory hclosed halone hfailed
  obtain ⟨hunwinding, e, outer, rfl, houter, hpassed, inside, before', rfl, hinside⟩ :=
    htells.explains.of_failed (halone.uncaught id className record)
  refine ⟨⟨before, l, hwhole, hcls, hclassName, hprogress, hlaidOut⟩,
    ⟨e, outer, rfl, houter, hpassed, inside, before', rfl, ?_⟩, hunwinding⟩
  have htrace : m'.trace = ((later ++ .failed (.instanceField id className o record) :: inside) ++
      .raised e.cause :: before') ++ m.trace := by simpa using hnew
  refine call_stopsAt h htrace fun e' he' => ?_
  rcases List.mem_append.mp he' with he' | he'
  · exact hunwinding _ he'
  · exact hinside e' ((List.mem_cons.mp he').resolve_left (by simp))

end Call

/-- All fields of all classes are on the instance, and nothing else. -/
structure Machine.LaidOutWhole (settings : Settings) (m : Machine) (o : ObjectId) (cls : ClassId)
    (levels : List Level) (fields : List (FieldRecord × Value)) : Prop
    extends m.LaidOut settings o cls levels fields where
  /-- There is a level for each class of the lineage, the base class in front. -/
  lineage : Lineage m.chronicle.HasParent (levels.map Level.cls) cls
  whole : ∀ l ∈ levels, l.Whole
  /-- The fields are those of the classes, in this order. -/
  all : fields.map Prod.fst = levels.flatMap Level.records
  /-- And the keys are their names, each at its first occurrence. -/
  keys : (m.store.object o).keys = ((levels.flatMap Level.records).map FieldRecord.name).eraseDups

/-- At whole levels, all records are done. -/
theorem Machine.LaidOut.whole {settings : Settings} {m : Machine} {o : ObjectId} {cls : ClassId}
    {levels : List Level} {fields : List (FieldRecord × Value)}
    (h : m.LaidOut settings o cls levels fields)
    (hlineage : Lineage m.chronicle.HasParent (levels.map Level.cls) cls)
    (hwhole : ∀ l ∈ levels, l.Whole) : m.LaidOutWhole settings o cls levels fields := by
  have hdone : levels.flatMap Level.done = levels.flatMap Level.records :=
    List.flatMap_congr fun l hl => by
      obtain ⟨hprogress, hunstarted⟩ := hwhole l hl
      simp [Level.records, hprogress, hunstarted, Progress.current]
  have hall := h.records.trans hdone
  refine ⟨h, hlineage, hwhole, hall, ?_⟩
  rw [h.layout.keys, ← hall, namesOf, List.map_map]
  rfl

/-- **The layout of an instance.** Take any construction, and instances that no client has changed
in it, while none of the failures of their fields was caught.

If the construction succeeds, there is a level on its object for each class of the lineage, from
the base class on, and each level is whole. So the keys of the object are the names of the fields
of these classes in the order of declaration, each at its first occurrence; each property is a
plain one, and its value is what the record of the last field of the name has given.

If a field fails on an instance that is made in the construction, the fields in front of it are on
the instance, laid out in the same way, and no others are. The construction fails, and nothing has
run since the fault was raised: no initializer, and no other step of a body. The failure has a layer
for this field, which names it and its class. Above it there are only layers for what was under way
around the field; nothing was if the constructors call each other from their bodies, so the layer
is the outermost one then. -/
theorem field_layout (settings : Settings) (m m' : Machine)
    (hm : AtRest settings m ∨ Reachable settings m) (levels : Nat) (cls : ClassId)
    (args : List Value) (r : Except Failure ObjectId)
    (h : (construct settings (interpret settings levels) cls args).outcome m = (some r, m')) :
    ∃ new, m'.trace = new ++ m.trace ∧
      (∀ o, r = .ok o → LeftAlone o new →
        ∃ ls, m'.LaidOutWhole settings o cls ls (installsOf new o)) ∧
      ∀ o newTarget id className record later earlier, .allocated o newTarget ∈ new →
        LeftAlone o new →
        new = later ++ .failed (.instanceField id className o record) :: earlier →
        (Call.construct cls args).FailsAtField settings levels m m' r later earlier o newTarget id
          className record := by
  obtain ⟨new, hnew, htells, hinstances⟩ := call_instances (c := .construct cls args) hm h
  refine ⟨new, hnew, ?_, ?_⟩
  · rintro o rfl halone
    obtain ⟨new', ls, hnew', hborn, hinOrder, hlineage, hexcused, -⟩ :=
      constructed_levels settings m m' hm levels cls args o h
    obtain rfl : new' = new := List.append_cancel_right (hnew'.symm.trans hnew)
    -- the object was not there before, so it was made meanwhile
    have hmade : .allocated o cls ∈ new' := by
      have hmem : .allocated o cls ∈ historyOf m'.trace o := by
        rw [hinOrder.history]
        exact List.mem_cons_self
      rw [hnew, historyOf_append, (sound_of_moment hm).2.unborn o hborn, List.nil_append] at hmem
      exact (mem_historyOf.mp hmem).1
    obtain ⟨-, hlaidOut⟩ := (hinstances o cls hmade).2 ls hinOrder
    refine ⟨ls, (hlaidOut halone.unchanged).whole hlineage fun l hl => ?_⟩
    refine (hexcused l hl).resolve_right ?_
    rintro ⟨record, -, -, hcaught⟩
    exact halone.uncaught _ _ _ hcaught
  · rintro o newTarget id className record later earlier hmade halone hsplit
    obtain ⟨⟨ls, hinOrder, hclosed⟩, hall⟩ := hinstances o newTarget hmade
    obtain ⟨hhistory, hlaidOut⟩ := hall ls hinOrder
    exact call_failsAtField (c := .construct cls args) h hnew htells hclosed hhistory
      (hlaidOut halone.unchanged) halone hsplit

/-- Three classes, each derived from the one before, that share names of fields; the last field but
one fails: `class { y = 9; w = throw "boom"; v } extends class { x; z = "z" } extends
class { x = 1; y = 2 }`. -/
def layeredClasses : Expr :=
  .classDefinition
    { name := none
      heritage := some (.primitive .classObject [.classDefinition
        { name := none
          heritage := some (.primitive .classObject [.classDefinition
            { name := none, heritage := none, constructor := none
              elements := [.field (.literal "x") false (some (.literal (.number 1))),
                .field (.literal "y") false (some (.literal (.number 2)))] }])
          constructor := none
          elements := [.field (.literal "x") false none,
            .field (.literal "z") false (some (.literal (.str "z")))] }])
      constructor := none
      elements := [.field (.literal "y") false (some (.literal (.number 9))),
        .field (.literal "w") false (some (.primitive .throw [.literal (.str "boom")])),
        .field (.literal "v") false none] }

/-- Is nothing changed by the event, and no failure caught? -/
def Event.isPeaceful : Event → Bool
  | changed _ | caught _ => false
  | _ => true

theorem leftAlone_of_isPeaceful {T new : List Event} (h : T.all Event.isPeaceful = true)
    (hnew : new ⊆ T) (o : ObjectId) : LeftAlone o new := by
  have hpeaceful {e : Event} (he : e ∈ new) : e.isPeaceful = true :=
    List.all_eq_true.mp h e (hnew he)
  refine ⟨fun he => by simpa [Event.isPeaceful] using hpeaceful he, fun _ _ _ hcaught => ?_⟩
  obtain ⟨later, e, unwinding, earlier, rfl, -⟩ := hcaught
  simpa [Event.isPeaceful] using hpeaceful (e := .caught e) (by simp)

/-- Is it the making of an instance, or a failure? -/
def Event.isOfConstruction : Event → Bool
  | allocated .. | failed _ => true
  | _ => false

/-- Is it the failure of a field on an object that was made in the trace? -/
def Event.failsIn (T : List Event) : Event → Bool
  | failed (.instanceField _ _ o _) => T.any fun e => e.makes o
  | _ => false

/-- The construction of an instance of the second class, and that of one of the third class, at
which a field fails. -/
theorem field_layout_of_layeredClasses : ∃ m,
    (∃ o m', (AtRest {} m ∧
      (construct {} (interpret {} 9) 2 []).outcome m = (some (.ok o), m')) ∧
        ∃ new ls, m'.trace = new ++ m.trace ∧ LeftAlone o new ∧
          m'.LaidOutWhole {} o 2 ls (installsOf new o)) ∧
    ∃ r m' o newTarget id className record later earlier, (AtRest {} m ∧
      (construct {} (interpret {} 9) 3 []).outcome m = (some r, m')) ∧
        m'.trace = (later ++ .failed (.instanceField id className o record) :: earlier) ++ m.trace ∧
          (Call.construct 3 []).FailsAtField {} 9 m m' r later earlier o newTarget id className
            record := by
  let whole (m : Machine) := (construct {} (interpret {} 9) 2 []).outcome m
  let partly (m : Machine) := (construct {} (interpret {} 9) 3 []).outcome m
  let check (m : Machine) : Bool :=
    !m.trace.any Event.isOfConstruction &&
    succeeds (whole m) && (whole m).2.trace.all Event.isPeaceful &&
    (partly m).1.isSome && (partly m).2.trace.all Event.isPeaceful &&
    (partly m).2.trace.any (Event.failsIn (partly m).2.trace)
  have hrun : ((runStep {} 9 layeredClasses .initial).any fun p => check p.2) = true := by
    decide +kernel
  obtain ⟨⟨report, m⟩, hm, hcheck⟩ := (Option.any_eq_true ..).mp hrun
  have hm : AtRest {} m := .step .initial hm
  simp only [check, Bool.and_eq_true, and_assoc, Bool.not_eq_true', List.any_eq_false] at hcheck
  obtain ⟨hearly, hwhole, hpeaceful, hpartly, hpeaceful', hfails⟩ := hcheck
  refine ⟨m, ?_, ?_⟩
  · obtain ⟨o, m', h⟩ := exists_of_succeeds hwhole
    obtain ⟨new, hnew, hlayout, -⟩ := field_layout {} m m' (.inl hm) 9 2 [] _ h
    have hsubset : new ⊆ (whole m).2.trace := by
      rw [show (whole m).2 = m' from congrArg Prod.snd h, hnew]
      exact List.subset_append_left ..
    have halone := leftAlone_of_isPeaceful hpeaceful hsubset o
    obtain ⟨ls, hls⟩ := hlayout o rfl halone
    exact ⟨o, m', ⟨hm, h⟩, new, ls, hnew, halone, hls⟩
  · obtain ⟨r, hr⟩ := Option.isSome_iff_exists.mp hpartly
    have h : (construct {} (interpret {} 9) 3 []).outcome m = (some r, (partly m).2) :=
      Prod.ext hr rfl
    obtain ⟨new, hnew, -, hlayout⟩ := field_layout {} m (partly m).2 (.inl hm) 9 3 [] r h
    have hsubset : new ⊆ (partly m).2.trace := hnew ▸ List.subset_append_left ..
    -- what tells of a construction is new
    have hnewer {e : Event} (he : e ∈ (partly m).2.trace) (hof : e.isOfConstruction = true) :
        e ∈ new := by
      rw [hnew] at he
      exact (List.mem_append.mp he).resolve_right fun hold => hearly e hold hof
    obtain ⟨e, he, hfailed⟩ := List.any_eq_true.mp hfails
    unfold Event.failsIn at hfailed
    split at hfailed
    next id className o record =>
      obtain ⟨e', he', hmakes⟩ := List.any_eq_true.mp hfailed
      obtain ⟨newTarget, rfl⟩ := Event.eq_allocated hmakes
      obtain ⟨later, earlier, hsplit⟩ := List.append_of_mem (hnewer he rfl)
      refine ⟨r, _, o, newTarget, id, className, record, later, earlier, ⟨hm, h⟩, hsplit ▸ hnew, ?_⟩
      exact hlayout o newTarget id className record later earlier (hnewer he' rfl)
        (leftAlone_of_isPeaceful hpeaceful' hsubset o) hsplit
    next => simp at hfailed

end ClassMachine
