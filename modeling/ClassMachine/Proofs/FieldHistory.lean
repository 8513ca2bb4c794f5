import Mathlib.Data.List.Infix
import ClassMachine.Proofs.Chronicle

/-!
# The history of an instance

What the machine notes about the making of one object is the history of the object
(`ClassMachine.historyOf`): that it was allocated, and which fields have been begun,
finished and failed on it. This file says what such a history should look like. It is
built of levels, one for each class of the lineage, from the base class on. A level
(`ClassMachine.Level`) begins with the records of the class and goes through them in
order; it is closed once it has come to the end of them or to one that has failed
(`ClassMachine.Level.Closed`), and only then may the level of the next class begin
(`ClassMachine.Installed`).

Some events also say something about the history before them; what they say is
`ClassMachine.Told`.
-/

namespace ClassMachine

/-! ### Histories -/

/-- Is the event about the making of the object? -/
def Event.isAbout (o : ObjectId) : Event → Bool
  | allocated this _ => this == o
  | installing _ _ _ target _ => target == o
  | began (.instanceField _ _ target _) => target == o
  | finished (.instanceField _ _ target _) => target == o
  | failed (.instanceField _ _ target _) => target == o
  | _ => false

/-- The history of an object, the oldest event in front. -/
def historyOf (T : List Event) (o : ObjectId) : List Event :=
  (T.filter (Event.isAbout o)).reverse

section History

variable {T : List Event} {o : ObjectId} {e : Event}

@[simp] theorem historyOf_nil : historyOf [] o = [] := rfl

theorem historyOf_cons_of_about (h : e.isAbout o = true) :
    historyOf (e :: T) o = historyOf T o ++ [e] := by
  simp [historyOf, h]

theorem historyOf_cons_of_not_about (h : e.isAbout o = false) :
    historyOf (e :: T) o = historyOf T o := by
  simp [historyOf, h]

theorem mem_historyOf : e ∈ historyOf T o ↔ e ∈ T ∧ e.isAbout o = true := by
  simp [historyOf]

end History

/-- The field that is begun, with its class. -/
def Event.start? : Event → Option (ClassId × FieldRecord)
  | began (.instanceField cls _ _ record) => some (cls, record)
  | _ => none

/-- The fields that have been begun on an object, the first one in front. -/
def startsOf (T : List Event) (o : ObjectId) : List (ClassId × FieldRecord) :=
  (historyOf T o).filterMap Event.start?

/-! ### Levels -/

/-- What goes on at a level. -/
inductive Progress
  /-- Nothing at the moment. -/
  | paused
  /-- A field is being installed. -/
  | running (record : FieldRecord)
  /-- A field could not be installed. -/
  | failed (record : FieldRecord)

/-- The record that the level has come to. -/
def Progress.current : Progress → List FieldRecord
  | paused => []
  | running record | failed record => [record]

/-- The fields of one class on one object, as far as they have come. -/
structure Level where
  /-- The innermost frame when the level began. -/
  frame : Option Frame
  cls : ClassId
  className : String
  /-- The records of the fields that have been installed. -/
  done : List FieldRecord
  progress : Progress
  /-- The records that have not been begun. -/
  unstarted : List FieldRecord

namespace Level

variable (l : Level)

/-- The records of the class when the level began. -/
def records : List FieldRecord :=
  l.done ++ l.progress.current ++ l.unstarted

/-- The records that have been begun. -/
def starts : List FieldRecord :=
  l.done ++ l.progress.current

/-- All fields have been installed. -/
def Whole : Prop :=
  l.progress = .paused ∧ l.unstarted = []

/-- The level has come to its end: all fields have been installed, or one could not be. -/
def Closed : Prop :=
  l.Whole ∨ ∃ r, l.progress = .failed r

/-- The level is whole, or the constructor that it is up to is one that may have gone on
without it: the class is derived and has a constructor of its own. -/
def Sure (H : Chronicle) : Prop :=
  l.Whole ∨ ∃ c : Class, .registered c ∈ H ∧ c.id = l.cls ∧ c.parent.isSome ∧ c.constructor.isSome

/-- Installing a field of the level. -/
def activity (o : ObjectId) (record : FieldRecord) : Activity :=
  .instanceField l.cls l.className o record

/-- The events of what goes on. -/
def progressEvents (o : ObjectId) : List Event :=
  match l.progress with
  | .paused => []
  | .running r => [.began (l.activity o r)]
  | .failed r => [.began (l.activity o r), .failed (l.activity o r)]

/-- The events of the fields that have been installed. -/
def doneEvents (o : ObjectId) : List Event :=
  l.done.flatMap fun r => [.began (l.activity o r), .finished (l.activity o r)]

/-- The events of the level on the object. -/
def events (o : ObjectId) : List Event :=
  .installing l.frame l.cls l.className o l.records :: (l.doneEvents o ++ l.progressEvents o)

/-- A level that has just begun. -/
def start (frame : Option Frame) (cls : ClassId) (className : String)
    (records : List FieldRecord) : Level :=
  { frame, cls, className, done := [], progress := .paused, unstarted := records }

/-- The next record is begun. -/
def run (r : FieldRecord) (rest : List FieldRecord) : Level :=
  { l with progress := .running r, unstarted := rest }

/-- The record that was begun is finished. -/
def finish (r : FieldRecord) : Level :=
  { l with done := l.done ++ [r], progress := .paused }

/-- The record that was begun has failed. -/
def fail (r : FieldRecord) : Level :=
  { l with progress := .failed r }

variable {l} {o : ObjectId} {r : FieldRecord} {rest : List FieldRecord}

theorem events_start {frame : Option Frame} {cls : ClassId} {className : String}
    {records : List FieldRecord} :
    (start frame cls className records).events o = [.installing frame cls className o records] :=
  rfl

theorem events_run (hp : l.progress = .paused) (hu : l.unstarted = r :: rest) :
    (l.run r rest).events o = l.events o ++ [.began (l.activity o r)] := by
  simp [events, run, records, doneEvents, progressEvents, activity, Progress.current, hp, hu]

theorem events_finish (hp : l.progress = .running r) :
    (l.finish r).events o = l.events o ++ [.finished (l.activity o r)] := by
  simp [events, finish, records, doneEvents, progressEvents, activity, Progress.current, hp]

theorem events_fail (hp : l.progress = .running r) :
    (l.fail r).events o = l.events o ++ [.failed (l.activity o r)] := by
  simp [events, fail, records, doneEvents, progressEvents, activity, Progress.current, hp]

theorem starts_prefix : l.starts <+: l.records :=
  List.prefix_append ..

theorem Whole.starts_eq (h : l.Whole) : l.starts = l.records := by
  simp [starts, records, h.2]

theorem Sure.mono {H H' : Chronicle} (h : l.Sure H) (hH : H ⊆ H') : l.Sure H' :=
  h.imp_right fun ⟨c, hc, hrest⟩ => ⟨c, hH hc, hrest⟩

/-- At a closed level all records have been begun, unless the last one that was has failed. -/
theorem Closed.starts_eq (h : l.Closed) :
    l.starts = l.records ∨ ∃ r, l.starts.getLast? = some r ∧ l.progress = .failed r := by
  rcases h with h | ⟨r, hr⟩
  · exact .inl h.starts_eq
  · exact .inr ⟨r, by simp [starts, hr, Progress.current], hr⟩

/-- The fields that are begun in the events of the level are the records that have been. -/
theorem filterMap_events : (l.events o).filterMap Event.start? = l.starts.map (l.cls, ·) := by
  have hdone : (l.doneEvents o).filterMap Event.start? = l.done.map (l.cls, ·) := by
    rw [doneEvents, List.filterMap_flatMap]
    exact List.flatMap_pure_eq_map ..
  have hprogress : (l.progressEvents o).filterMap Event.start? =
      l.progress.current.map (l.cls, ·) := by
    unfold progressEvents
    split <;> simp [Progress.current, Event.start?, activity, *]
  rw [events, List.filterMap_cons_none rfl, List.filterMap_append, hdone, hprogress, starts,
    List.map_append]

end Level

/-- The history of an instance of the new-target with such levels. -/
def levelHistory (o : ObjectId) (newTarget : ClassId) (levels : List Level) : List Event :=
  .allocated o newTarget :: levels.flatMap fun l => l.events o

theorem levelHistory_concat {o : ObjectId} {newTarget : ClassId} {levels : List Level}
    {l : Level} :
    levelHistory o newTarget (levels ++ [l]) = levelHistory o newTarget levels ++ l.events o := by
  simp [levelHistory]

section Levels

variable {o : ObjectId} {newTarget : ClassId} {levels : List Level}

/-- The fields that are begun in such a history, level by level. -/
theorem filterMap_levelHistory :
    (levelHistory o newTarget levels).filterMap Event.start? =
      levels.flatMap fun l => l.starts.map (l.cls, ·) := by
  rw [levelHistory, List.filterMap_cons_none rfl, List.filterMap_flatMap]
  simp only [Level.filterMap_events]

/-- The new-target of such a history. -/
theorem newTarget_of_mem_levelHistory {o' : ObjectId} {newTarget' : ClassId}
    (h : .allocated o' newTarget' ∈ levelHistory o newTarget levels) : newTarget' = newTarget := by
  simp only [levelHistory, List.mem_cons, List.mem_flatMap] at h
  rcases h with h | ⟨l, -, h⟩
  · exact (Event.allocated.inj h).2
  · simp [Level.events, Level.doneEvents, Level.progressEvents] at h
    split at h <;> simp at h

/-- Each level begins with its records. -/
theorem installing_mem_levelHistory (o : ObjectId) (newTarget : ClassId) {l : Level}
    (hl : l ∈ levels) :
    .installing l.frame l.cls l.className o l.records ∈ levelHistory o newTarget levels :=
  List.mem_cons_of_mem _ (List.mem_flatMap.mpr ⟨l, hl, List.mem_cons_self⟩)

end Levels

/-! ### Lineages and levels -/

/-- The class is on the lineage of the other one. -/
def OnLineage (H : Chronicle) (cls newTarget : ClassId) : Prop :=
  ∃ ids, Lineage H.HasParent ids newTarget ∧ ∃ ids', ids' <+: ids ∧ Lineage H.HasParent ids' cls

theorem OnLineage.mono {H H' : Chronicle} (h : H ⊆ H') {cls newTarget : ClassId}
    (hcls : OnLineage H cls newTarget) : OnLineage H' cls newTarget := by
  obtain ⟨ids, hids, ids', hprefix, hids'⟩ := hcls
  exact ⟨ids, hids.mono fun _ _ => .mono h, ids', hprefix, hids'.mono fun _ _ => .mono h⟩

section OnLineage

variable {H : Chronicle} (hH : ∀ id p p', H.HasParent id p → H.HasParent id p' → p = p')
  {cls newTarget : ClassId} (h : OnLineage H cls newTarget)

include hH h

/-- So is its parent. -/
theorem OnLineage.parent {p : ClassId} (hp : H.HasParent cls (some p)) :
    OnLineage H p newTarget := by
  obtain ⟨ids, hids, ids', hprefix, hids'⟩ := h
  refine ⟨ids, hids, ?_⟩
  cases hids' with
  | base h => exact absurd (hH _ _ _ h hp) (by simp)
  | @derived ids' _ _ hparent h =>
    obtain rfl := Option.some.inj (hH _ _ _ h hp)
    exact ⟨ids', (List.prefix_append ids' [cls]).trans hprefix, hparent⟩

/-- A lineage of the class is where the lineage of the other one begins. -/
theorem OnLineage.isPrefix {ids' : List ClassId} (hids' : Lineage H.HasParent ids' cls) :
    ∃ ids, Lineage H.HasParent ids newTarget ∧ ids' <+: ids := by
  obtain ⟨ids, hids, ids'', hprefix, hids''⟩ := h
  obtain rfl := hids'.unique hH hids''
  exact ⟨ids, hids, hprefix⟩

end OnLineage

/-- The history is that of an instance of the new-target, with these levels. -/
structure Installed (H : Chronicle) (o : ObjectId) (newTarget : ClassId) (levels : List Level)
    (h : List Event) : Prop where
  history : h = levelHistory o newTarget levels
  /-- The levels are of the first classes of the lineage. -/
  lineage : ∃ ids, Lineage H.HasParent ids newTarget ∧ levels.map Level.cls <+: ids
  /-- A level begins when the one before has come to its end. -/
  closed : ∀ l ∈ levels.dropLast, l.Closed

/-- Once the last level has come to its end, all have. -/
theorem Installed.all_closed {H : Chronicle} {o : ObjectId} {newTarget : ClassId}
    {before : List Level} {l : Level} {h : List Event}
    (hh : Installed H o newTarget (before ++ [l]) h) (hl : l.Closed) :
    ∀ l' ∈ before ++ [l], l'.Closed := by
  have hbefore : ∀ l' ∈ before, l'.Closed := by simpa using hh.closed
  intro l' hl'
  rcases List.mem_append.mp hl' with hl' | hl'
  · exact hbefore l' hl'
  · obtain rfl : l' = l := by simpa using hl'
    exact hl

/-- The history is empty or that of an instance. -/
def Lawful (H : Chronicle) (o : ObjectId) (h : List Event) : Prop :=
  h = [] ∨ ∃ newTarget levels, Installed H o newTarget levels h

/-- The history is empty or that of an instance on which no field is being installed. -/
def Settled (H : Chronicle) (o : ObjectId) (h : List Event) : Prop :=
  h = [] ∨ ∃ newTarget levels, Installed H o newTarget levels h ∧ ∀ l ∈ levels, l.Closed

/-- An instance is allocated once, for its new-target. -/
theorem Installed.newTarget_eq {H : Chronicle} {o : ObjectId} {newTarget newTarget' : ClassId}
    {levels : List Level} {h : List Event} (hh : Installed H o newTarget' levels h)
    (ho : .allocated o newTarget ∈ h) : newTarget' = newTarget := by
  rw [hh.history] at ho
  exact (newTarget_of_mem_levelHistory ho).symm

theorem Lawful.installed {H : Chronicle} {o : ObjectId} {newTarget : ClassId} {h : List Event}
    (hh : Lawful H o h) (ho : .allocated o newTarget ∈ h) :
    ∃ levels, Installed H o newTarget levels h := by
  obtain rfl | ⟨newTarget', levels, hlevels⟩ := hh
  · simp at ho
  · obtain rfl := hlevels.newTarget_eq ho
    exact ⟨levels, hlevels⟩

theorem Settled.installed {H : Chronicle} {o : ObjectId} {newTarget : ClassId} {h : List Event}
    (hh : Settled H o h) (ho : .allocated o newTarget ∈ h) :
    ∃ levels, Installed H o newTarget levels h ∧ ∀ l ∈ levels, l.Closed := by
  obtain rfl | ⟨newTarget', levels, hlevels, hclosed⟩ := hh
  · simp at ho
  · obtain rfl := hlevels.newTarget_eq ho
    exact ⟨levels, hlevels, hclosed⟩

/-- The history is that of an instance on which the fields of all classes up to the given
one have been installed, as far as possible. -/
structure LevelsUpTo (H : Chronicle) (o : ObjectId) (newTarget cls : ClassId) (h : List Event)
    (levels : List Level) : Prop where
  history : h = levelHistory o newTarget levels
  lineage : Lineage H.HasParent (levels.map Level.cls) cls
  closed : ∀ l ∈ levels, l.Closed

/-- There are such levels, those in front of the last one sure. -/
def Through (H : Chronicle) (o : ObjectId) (newTarget cls : ClassId) (h : List Event) : Prop :=
  ∃ levels, LevelsUpTo H o newTarget cls h levels ∧ ∀ l ∈ levels.dropLast, l.Sure H

/-- There are such levels, all of them sure. -/
def SureThrough (H : Chronicle) (o : ObjectId) (newTarget cls : ClassId) (h : List Event) :
    Prop :=
  ∃ levels, LevelsUpTo H o newTarget cls h levels ∧ ∀ l ∈ levels, l.Sure H

/-- The level of a derived class with a constructor of its own is sure anyway. -/
theorem Through.sure {H : Chronicle} {o : ObjectId} {newTarget cls : ClassId} {h : List Event}
    (hh : Through H o newTarget cls h) {c : Class} (hc : .registered c ∈ H) (hcls : c.id = cls)
    (hparent : c.parent.isSome) (hconstructor : c.constructor.isSome) :
    SureThrough H o newTarget cls h := by
  obtain ⟨levels, hlevels, hsure⟩ := hh
  refine ⟨levels, hlevels, fun l hl => ?_⟩
  rcases levels.eq_nil_or_concat' with rfl | ⟨before, last, rfl⟩
  · simp at hl
  rcases List.mem_append.mp hl with hl | hl
  · exact hsure l (by simpa using hl)
  · obtain rfl : l = last := by simpa using hl
    have hlast : l.cls = cls := by simpa using hlevels.lineage.getLast?
    exact .inr ⟨c, hc, hcls.trans hlast.symm, hparent, hconstructor⟩

/-- If the class is on the lineage of the new-target, this is the history of an instance. -/
theorem LevelsUpTo.installed {H : Chronicle}
    (hH : ∀ id p p', H.HasParent id p → H.HasParent id p' → p = p') {o : ObjectId}
    {newTarget cls : ClassId} (hcls : OnLineage H cls newTarget) {h : List Event}
    {levels : List Level} (hh : LevelsUpTo H o newTarget cls h levels) :
    Installed H o newTarget levels h :=
  ⟨hh.history, hcls.isPrefix hH hh.lineage, fun l hl => hh.closed l (List.mem_of_mem_dropLast hl)⟩

section Mono

variable {H H' : Chronicle} (hH : H ⊆ H') {o : ObjectId} {newTarget : ClassId}
  {h : List Event}

include hH

theorem Installed.mono {levels : List Level} (hlevels : Installed H o newTarget levels h) :
    Installed H' o newTarget levels h := by
  obtain ⟨ids, hids, hprefix⟩ := hlevels.lineage
  exact ⟨hlevels.history, ⟨ids, hids.mono fun _ _ => .mono hH, hprefix⟩, hlevels.closed⟩

theorem Lawful.mono (hh : Lawful H o h) : Lawful H' o h :=
  hh.imp id fun ⟨newTarget, levels, h⟩ => ⟨newTarget, levels, h.mono hH⟩

theorem Settled.mono (hh : Settled H o h) : Settled H' o h :=
  hh.imp id fun ⟨newTarget, levels, h, hclosed⟩ => ⟨newTarget, levels, h.mono hH, hclosed⟩

theorem LevelsUpTo.mono {cls : ClassId} {levels : List Level}
    (hh : LevelsUpTo H o newTarget cls h levels) : LevelsUpTo H' o newTarget cls h levels :=
  ⟨hh.history, hh.lineage.mono fun _ _ => .mono hH, hh.closed⟩

theorem Through.mono {cls : ClassId} (hh : Through H o newTarget cls h) :
    Through H' o newTarget cls h := by
  obtain ⟨levels, hlevels, hsure⟩ := hh
  exact ⟨levels, hlevels.mono hH, fun l hl => (hsure l hl).mono hH⟩

theorem SureThrough.mono {cls : ClassId} (hh : SureThrough H o newTarget cls h) :
    SureThrough H' o newTarget cls h := by
  obtain ⟨levels, hlevels, hsure⟩ := hh
  exact ⟨levels, hlevels.mono hH, fun l hl => (hsure l hl).mono hH⟩

end Mono

/-! ### What events tell -/

/-- What an event says about the trace before it. -/
def Told : Event → List Event → Prop
  /- Fields are installed from a frame of their class that has just bound the object, and
  according to the records that the class has at that moment. -/
  | .installing frame cls _ o records, T =>
    (∃ f, frame = some f ∧ f.cls = cls ∧ f.this = some o ∧
      (f.phase = .allocated ∨ f.phase = .thisBound)) ∧
    records = (chronicleOf T).fieldsOf cls
  /- When a body begins with an object bound, the fields of its class are on it, and no others. -/
  | .bodyEntered cls (some o) _, T =>
    ∃ newTarget l, l.cls = cls ∧ l.Whole ∧ historyOf T o = levelHistory o newTarget [l]
  /- When a call of the parent constructor has succeeded, the fields of the class of the frame
  are on the object, behind those of its ancestors. -/
  | .superReturned cls o, T =>
    ∃ newTarget levels l, l.cls = cls ∧ l.Whole ∧
      Lineage (chronicleOf T).HasParent ((levels ++ [l]).map Level.cls) cls ∧
      historyOf T o = levelHistory o newTarget (levels ++ [l])
  | _, _ => True

/-- What all events of a trace say is true. -/
def Truthful : List Event → Prop
  | [] => True
  | e :: T => Told e T ∧ Truthful T

/-- What an event of a truthful trace says is true of what is older. -/
theorem Truthful.told {T : List Event} (h : Truthful T) {new old : List Event} {e : Event}
    (hT : T = new ++ e :: old) : Told e old := by
  induction new generalizing T with
  | nil =>
    subst hT
    exact h.1
  | cons _ new ih =>
    subst hT
    exact ih h.2 rfl

end ClassMachine
