import ClassMachine.Proofs.FieldHistory
import ClassMachine.Proofs.FrameStack
import ClassMachine.Proofs.Registration

/-!
# Installing the fields of one class

The fields of a class are installed on an object right after a frame of the class has
bound it (`ClassMachine.adopt`). The initializers run client code, which may do anything
– but not to this object: whatever runs leaves the histories of the objects alone that
are not new to it, and no field is left half installed on those that are
(`ClassMachine.Machine.Grown`). Nor can it get at the frame but to bind an object on
which the fields of the parent are already installed (`ClassMachine.Machine.Binds`).
These are the main clauses of the law of instances and frames, `ClassMachine.fieldsLaw`.

So an installation adds one level to the history of its object, and closes it
(`ClassMachine.adopt_fields`).
-/

namespace ClassMachine

open Chronicle

variable {α : Type}

/-! ### What holds of instances and frames -/

/-- What holds of instances and frames at every moment. -/
structure Machine.Sound (m : Machine) : Prop where
  /-- The class of a frame is on the lineage of its new-target. -/
  frames : ∀ f ∈ m.frames, OnLineage m.chronicle f.cls f.newTarget
  /-- Objects that are yet to be made have no history. -/
  unborn : ∀ o, m.store.size ≤ o → historyOf m.trace o = []
  lawful : ∀ o, Lawful m.chronicle o (historyOf m.trace o)
  truthful : Truthful m.trace

/-- What may have become of the objects: the histories of those that were there, but for
one, are as they were, and no field is being installed on those that are new. -/
structure Machine.Grown (except : Option ObjectId) (m m' : Machine) : Prop where
  trace : ∃ new, m'.trace = new ++ m.trace
  size : m.store.size ≤ m'.store.size
  old : ∀ o, o < m.store.size → some o ≠ except → historyOf m'.trace o = historyOf m.trace o
  new : ∀ o, m.store.size ≤ o → Settled m'.chronicle o (historyOf m'.trace o)

/-- What may have become of the innermost frame: it has the same object, or one at the
given place or behind it, with the fields of all classes up to that of the frame. -/
def Machine.Binds (n : Nat) (m m' : Machine) : Prop :=
  ∀ f' ∈ m'.frames.head?, ∃ f ∈ m.frames.head?, f'.cls = f.cls ∧ f'.newTarget = f.newTarget ∧
    (f'.this = f.this ∨ ∀ o ∈ f'.this, n ≤ o ∧ o < m'.store.size ∧
      Through m'.chronicle o f'.newTarget f'.cls (historyOf m'.trace o))

namespace Machine

variable {except : Option ObjectId} {m m' m'' : Machine}

theorem Grown.chronicle (h : Grown except m m') : m.chronicle ⊆ m'.chronicle := by
  obtain ⟨new, hnew⟩ := h.trace
  rw [Machine.chronicle, Machine.chronicle, hnew, chronicleOf, chronicleOf, List.filter_append]
  exact List.subset_append_right ..

/-- Other frames do not matter. -/
theorem Grown.with_frames (h : m.Sound) (fs : List Frame) (except : Option ObjectId) :
    Grown except m { m with frames := fs } :=
  ⟨⟨[], rfl⟩, Nat.le_refl _, fun _ _ _ => rfl, fun o ho => .inl (h.unborn o ho)⟩

theorem Grown.refl (h : m.Sound) (except : Option ObjectId) : Grown except m m :=
  .with_frames h m.frames except

theorem Grown.trans (h : Grown except m m') (h' : Grown except m' m'')
    (hexcept : ∀ o ∈ except, o < m.store.size) : Grown except m m'' where
  trace := by
    obtain ⟨new, hnew⟩ := h.trace
    obtain ⟨new', hnew'⟩ := h'.trace
    exact ⟨new' ++ new, by rw [hnew', hnew, List.append_assoc]⟩
  size := Nat.le_trans h.size h'.size
  old o ho hne := by
    rw [h'.old o (Nat.lt_of_lt_of_le ho h.size) hne, h.old o ho hne]
  new o ho := by
    -- an object is new to one of the two parts, and the other one keeps it
    rcases Nat.lt_or_ge o m'.store.size with hlt | hge
    · have hne : some o ≠ except := by
        rintro rfl
        exact Nat.not_lt_of_le ho (hexcept o rfl)
      rw [h'.old o hlt hne]
      exact (h.new o ho).mono h'.chronicle
    · exact h'.new o hge

theorem Grown.weaken (h : Grown none m m') (except : Option ObjectId) : Grown except m m' :=
  ⟨h.trace, h.size, fun o ho _ => h.old o ho (by simp), h.new⟩

/-- An exception for an object that is new anyway is none, if no field is being installed on
the object in the end. -/
theorem Grown.close {o : ObjectId} (h : Grown none m m') (h' : Grown (some o) m' m'')
    (ho : m.store.size ≤ o) (hsettled : Settled m''.chronicle o (historyOf m''.trace o)) :
    Grown none m m'' where
  trace := by
    obtain ⟨new, hnew⟩ := h.trace
    obtain ⟨new', hnew'⟩ := h'.trace
    exact ⟨new' ++ new, by rw [hnew', hnew, List.append_assoc]⟩
  size := Nat.le_trans h.size h'.size
  old x hx _ := by
    have hne : some x ≠ some o := by
      intro he
      obtain rfl := Option.some.inj he
      exact Nat.not_lt_of_le ho hx
    rw [h'.old x (Nat.lt_of_lt_of_le hx h.size) hne, h.old x hx (by simp)]
  new x hx := by
    by_cases hxo : x = o
    · rw [hxo]
      exact hsettled
    · rcases Nat.lt_or_ge x m'.store.size with hlt | hge
      · rw [h'.old x hlt (by simpa using hxo)]
        exact (h.new x hx).mono h'.chronicle
      · exact h'.new x hge

/-- Other frames with classes on the lineages of their new-targets are as good. -/
theorem Sound.with_frames (h : m.Sound) {fs : List Frame}
    (hfs : ∀ f ∈ fs, OnLineage m.chronicle f.cls f.newTarget) : Sound { m with frames := fs } :=
  ⟨hfs, h.unborn, h.lawful, h.truthful⟩

theorem Binds.of_frames {n : Nat} (h : m'.frames = m.frames) : Binds n m m' := by
  intro f hf
  rw [h] at hf
  exact ⟨f, hf, rfl, rfl, .inl rfl⟩

theorem Binds.trans {n n' : Nat} (h : Binds n m m') (h' : Binds n' m' m'') (hn : n ≤ n')
    (hgrown : Grown except m' m'') (hexcept : ∀ o ∈ except, o < n) : Binds n m m'' := by
  intro f'' hf''
  obtain ⟨f', hf', hcls', hnewTarget', hthis'⟩ := h' f'' hf''
  obtain ⟨f, hf, hcls, hnewTarget, hthis⟩ := h f' hf'
  refine ⟨f, hf, hcls'.trans hcls, hnewTarget'.trans hnewTarget, ?_⟩
  rcases hthis' with hthis' | hthis'
  · rcases hthis with hthis | hthis
    · exact .inl (hthis'.trans hthis)
    · -- the object was bound in the first part, and is not new to the second one
      refine .inr fun o ho => ?_
      rw [hthis'] at ho
      obtain ⟨hno, hsize, hthrough⟩ := hthis o ho
      have hne : some o ≠ except := by
        rintro rfl
        exact Nat.not_lt_of_le hno (hexcept o rfl)
      rw [hgrown.old o hsize hne, hcls', hnewTarget']
      exact ⟨hno, Nat.lt_of_lt_of_le hsize hgrown.size, hthrough.mono hgrown.chronicle⟩
  · refine .inr fun o ho => ?_
    obtain ⟨hno, hrest⟩ := hthis' o ho
    exact ⟨Nat.le_trans hn hno, hrest⟩

end Machine

open Machine

/-- The law of instances and frames. -/
def fieldsLaw : Law where
  ended m m' := m.Sound → m'.Sound ∧ Grown none m m' ∧ Binds m.store.size m m'
  broken m m' := m.Sound → m'.Sound
  refl m h := ⟨h, .refl h none, .of_frames rfl⟩
  trans h h' hm := by
    obtain ⟨hm', hgrown, hbinds⟩ := h hm
    obtain ⟨hm'', hgrown', hbinds'⟩ := h' hm'
    exact ⟨hm'', hgrown.trans hgrown' (by simp), hbinds.trans hbinds' hgrown.size hgrown' (by simp)⟩
  late h hm := (h hm).1
  trans_broken h h' hm := h' (h hm).1

/-! ### Effects that leave fields and frames alone -/

/-- The event is not about the making of an object, and says nothing about it. -/
def Event.KeepsFields (e : Event) : Prop :=
  (∀ o, e.isAbout o = false) ∧ ∀ T, Told e T

/-- The effect changes no frame and tells nothing about the making of an object. -/
def Effect.KeepsFields : Effect → Prop
  | .push _ | .pop | .frame _ => False
  | .note e => e.KeepsFields
  | _ => True

namespace Effect

theorem IsClient.keepsFields {e : Effect} (h : e.IsClient) : e.KeepsFields := by
  cases e with
  | note e => cases e <;> simp_all [IsClient, Event.IsClient, KeepsFields, Event.KeepsFields,
      Event.isAbout, Told]
  | push | pop | frame => exact h
  | _ => trivial

theorem IsDefining.keepsFields {e : Effect} (h : e.IsDefining) : e.KeepsFields := by
  rcases h with h | h
  · exact h.keepsFields
  · cases e with
    | note e =>
      cases e with
      | began a | finished a | failed a =>
        cases a <;> simp_all [Event.IsDefining, Activity.IsInstance, KeepsFields,
          Event.KeepsFields, Event.isAbout, Told]
      | _ => simp_all [Event.IsDefining, KeepsFields, Event.KeepsFields, Event.isAbout, Told]
    | push | pop | frame => exact h
    | _ => trivial

theorem IsReplacing.keepsFields {e : Effect} (h : e.IsReplacing) : e.KeepsFields := by
  rcases h with h | h
  · exact h.keepsFields
  · cases e with
    | note e => cases e <;> simp_all [Event.IsReplacing, KeepsFields, Event.KeepsFields,
        Event.isAbout, Told]
    | push | pop | frame => exact h
    | _ => trivial

theorem KeepsFields.frames_apply {e : Effect} (h : e.KeepsFields) (m : Machine) :
    (e.apply m).frames = m.frames := by
  cases e with
  | push | pop | frame => exact h.elim
  | define => exact frames_apply_define ..
  | _ => rfl

theorem KeepsFields.history_apply {e : Effect} (h : e.KeepsFields) (m : Machine) (o : ObjectId) :
    historyOf (e.apply m).trace o = historyOf m.trace o := by
  cases e with
  | note e => exact historyOf_cons_of_not_about (h.1 o)
  | push | pop | frame => exact h.elim
  | define => rw [trace_apply_define]
  | relink => exact historyOf_cons_of_not_about rfl
  | _ => rfl

theorem KeepsFields.truthful_apply {e : Effect} (h : e.KeepsFields) {m : Machine}
    (hm : Truthful m.trace) : Truthful (e.apply m).trace := by
  cases e with
  | note e => exact ⟨h.2 _, hm⟩
  | push | pop | frame => exact h.elim
  | define =>
    rw [trace_apply_define]
    exact hm
  | relink => exact ⟨trivial, hm⟩
  | _ => exact hm

end Effect

/-- Machines that agree on the frames and on what is noted about the making of objects. -/
theorem fieldsLaw_of_eq {m m' : Machine} (htrace : ∃ new, m'.trace = new ++ m.trace)
    (hsize : m.store.size ≤ m'.store.size) (hframes : m'.frames = m.frames)
    (hhistory : ∀ o, historyOf m'.trace o = historyOf m.trace o)
    (htruthful : Truthful m.trace → Truthful m'.trace) : fieldsLaw.ended m m' := by
  intro hm
  have hgrown : Grown none m m' :=
    ⟨htrace, hsize, fun o _ _ => hhistory o, fun o ho =>
      .inl ((hhistory o).trans (hm.unborn o ho))⟩
  refine ⟨⟨fun f hf => ?_, fun o ho => ?_, fun o => ?_, htruthful hm.truthful⟩, hgrown,
    .of_frames hframes⟩
  · exact (hm.frames f (hframes ▸ hf)).mono hgrown.chronicle
  · exact (hhistory o).trans (hm.unborn o (Nat.le_trans hsize ho))
  · rw [hhistory o]
    exact (hm.lawful o).mono hgrown.chronicle

theorem fieldsLaw_allows {e : Effect} (h : e.KeepsFields) : fieldsLaw.Allows e :=
  fun m => fieldsLaw_of_eq (e.trace_apply m) (e.size_apply m) (h.frames_apply m)
    (h.history_apply m) h.truthful_apply

/-- An event that says something true. -/
theorem fieldsLaw_note {m : Machine} {e : Event} (he : ∀ o, e.isAbout o = false)
    (htold : Told e m.trace) : fieldsLaw.ended m ((Effect.note e).apply m) :=
  fieldsLaw_of_eq ⟨[e], rfl⟩ (Nat.le_refl _) rfl (fun o => historyOf_cons_of_not_about (he o))
    fun h => ⟨htold, h⟩

/-! ### The contract -/

/-- The class of a construction is on the lineage of the new-target, if there is such a
class. -/
def Machine.Related (m : Machine) (cls newTarget : ClassId) : Prop :=
  (m.registry.class? cls).isSome → OnLineage m.chronicle cls newTarget

/-- What is known of a construction beside the law: the object is new, and the fields of all
classes up to that of the construction are on it, the levels being sure. -/
def ConstructsThrough (m : Machine) (cls newTarget : ClassId)
    (r : Option (Except Failure ObjectId)) (m' : Machine) : Prop :=
  ∀ o, r = some (.ok o) → m.store.size ≤ o ∧ o < m'.store.size ∧
    SureThrough m'.chronicle o newTarget cls (historyOf m'.trace o)

@[simp] theorem constructsThrough_none {m m' : Machine} {cls newTarget : ClassId} :
    ConstructsThrough m cls newTarget none m' := by
  simp [ConstructsThrough]

@[simp] theorem constructsThrough_error {m m' : Machine} {cls newTarget : ClassId}
    {e : Failure} : ConstructsThrough m cls newTarget (some (.error e)) m' := by
  simp [ConstructsThrough]

/-- What is known of a task: evaluations obey the law, and so do constructions for which the
classes are related. -/
def Task.Fields : Task α → Machine → Option (Except Failure α) → Machine → Prop
  | .eval .., m, r, m' => (registryLaw fieldsLaw).Holds m r m'
  | .construct cls newTarget _, m, r, m' => m.Coherent → m.Sound → m.Related cls newTarget →
    (registryLaw fieldsLaw).Holds m r m' ∧ ConstructsThrough m cls newTarget r m'

/-- The contract of instances and frames. -/
def fieldsContract : Contract where
  Holds _ := Task.Fields
  start task m := by
    have h := (registryLaw fieldsLaw).late ((registryLaw fieldsLaw).refl m)
    cases task with
    | eval => exact h
    | construct => exact fun _ _ _ => ⟨h, by simp⟩
  late := by
    intro α task m m' r h
    cases task with
    | eval => exact (registryLaw fieldsLaw).late h
    | construct =>
      exact fun hm hs hr => ⟨(registryLaw fieldsLaw).late (h hm hs hr).1, by simp⟩

/-! ### Installing the fields of one class -/

/-- The machine has an instance of the new-target, with these levels. -/
structure Machine.Carries (m : Machine) (o : ObjectId) (newTarget : ClassId)
    (levels : List Level) : Prop where
  coherent : m.Coherent
  sound : m.Sound
  born : o < m.store.size
  installed : Installed m.chronicle o newTarget levels (historyOf m.trace o)

/-- Whatever obeys the law leaves the levels as they are. -/
theorem Machine.Carries.later {m m' : Machine} {o : ObjectId} {newTarget : ClassId}
    {levels : List Level} (h : m.Carries o newTarget levels)
    (hlaw : (registryLaw fieldsLaw).ended m m') :
    m'.Carries o newTarget levels ∧ Grown none m m' ∧ Binds m.store.size m m' := by
  obtain ⟨hsettles, hfields⟩ := hlaw h.coherent
  obtain ⟨hsound, hgrown, hbinds⟩ := hfields h.sound
  refine ⟨⟨hsettles.coherent, hsound, Nat.lt_of_lt_of_le h.born hgrown.size, ?_⟩, hgrown, hbinds⟩
  rw [hgrown.old o h.born (by simp)]
  exact h.installed.mono hgrown.chronicle

/-- An event about one object only. -/
structure Event.ConcernsOnly (e : Event) (o : ObjectId) : Prop where
  isRegistral : e.isRegistral = false
  isAbout : ∀ o', e.isAbout o' = true ↔ o' = o

/-- Noting a further event about an object. -/
theorem Machine.Sound.note {m : Machine} (hm : m.Coherent) (hs : m.Sound) {o : ObjectId}
    (ho : o < m.store.size) {e : Event} (he : e.ConcernsOnly o) (htold : Told e m.trace)
    {newTarget : ClassId} {levels : List Level}
    (h : Installed m.chronicle o newTarget levels (historyOf m.trace o ++ [e])) :
    ((Effect.note e).apply m).Carries o newTarget levels ∧
      Grown (some o) m ((Effect.note e).apply m) := by
  have hchronicle : ((Effect.note e).apply m).chronicle = m.chronicle :=
    List.filter_cons_of_neg (by simp [he.isRegistral])
  have hother (x : ObjectId) (hx : x ≠ o) :
      historyOf ((Effect.note e).apply m).trace x = historyOf m.trace x :=
    historyOf_cons_of_not_about (by simpa using mt (he.isAbout x).mp hx)
  have hself : historyOf ((Effect.note e).apply m).trace o = historyOf m.trace o ++ [e] :=
    historyOf_cons_of_about ((he.isAbout o).mpr rfl)
  have hunborn (x : ObjectId) (hx : m.store.size ≤ x) :
      historyOf ((Effect.note e).apply m).trace x = [] := by
    rw [hother x (fun he => Nat.not_lt_of_le hx (he ▸ ho)), hs.unborn x hx]
  have hsettles : m.Settles ((Effect.note e).apply m) := .of_eq hm rfl hchronicle
  rw [← hchronicle, ← hself] at h
  refine ⟨⟨hsettles.coherent, ⟨?_, hunborn, fun x => ?_, htold, hs.truthful⟩, ho, h⟩, ⟨[e], rfl⟩,
    Nat.le_refl _, fun x _ hx => hother x (by simpa using hx), fun x hx => .inl (hunborn x hx)⟩
  · rw [hchronicle]
    exact hs.frames
  · by_cases hx : x = o
    · rw [hx]
      exact .inr ⟨newTarget, levels, h⟩
    · rw [hother x hx, hchronicle]
      exact hs.lawful x

/-- Noting what becomes of a field takes the last level one step on. -/
theorem Machine.Carries.note {m : Machine} {o : ObjectId} {newTarget : ClassId}
    {before : List Level} {l k : Level} (h : m.Carries o newTarget (before ++ [l])) {e : Event}
    {r : FieldRecord} (he : (Effect.note e).IsNoteOf (l.activity o r)) (hcls : k.cls = l.cls)
    (hevents : k.events o = l.events o ++ [e]) :
    ((Effect.note e).apply m).Carries o newTarget (before ++ [k]) ∧
      Grown (some o) m ((Effect.note e).apply m) := by
  simp only [Effect.IsNoteOf, Effect.note.injEq] at he
  refine h.sound.note h.coherent h.born ?_ ?_ ⟨?_, ?_, ?_⟩
  · rcases he with rfl | rfl | rfl <;> exact ⟨rfl, fun _ => beq_iff_eq.trans eq_comm⟩
  · rcases he with rfl | rfl | rfl <;> trivial
  · rw [h.installed.history, levelHistory_concat, levelHistory_concat, hevents, List.append_assoc]
  · simpa [hcls] using h.installed.lineage
  · simpa using h.installed.closed

/-- What is known once the records of a level have been gone through: the level is closed, and
whole if there was no failure. -/
def LevelClosed (m : Machine) (o : ObjectId) (newTarget : ClassId) (before : List Level)
    (l : Level) (r : Option (Except Failure Unit)) (m' : Machine) : Prop :=
  m'.Sound ∧ ∀ r', r = some r' → ∃ l', m'.Carries o newTarget (before ++ [l']) ∧ l'.cls = l.cls ∧
    l'.Closed ∧ Grown (some o) m m' ∧ Binds m.store.size m m' ∧ (∀ a, r' = .ok a → l'.Whole)

/-- What happens before a level is gone through can be taken with it. -/
theorem LevelClosed.after {m m₁ : Machine} {o : ObjectId} {newTarget : ClassId}
    {before : List Level} {l k : Level} (ho : o < m.store.size) (hcls : k.cls = l.cls)
    (hgrown : Grown (some o) m m₁) (hbinds : Binds m.store.size m m₁)
    {r : Option (Except Failure Unit)} {m' : Machine}
    (h : LevelClosed m₁ o newTarget before k r m') : LevelClosed m o newTarget before l r m' := by
  refine ⟨h.1, fun r' hr => ?_⟩
  obtain ⟨l', hl', hcls', hclosed, hgrown', hbinds', hwhole⟩ := h.2 r' hr
  exact ⟨l', hl', hcls'.trans hcls, hclosed, hgrown.trans hgrown' (by simpa using ho),
    hbinds.trans hbinds' hgrown.size hgrown' (by simpa using ho), hwhole⟩

/-- Moving a frame on changes neither its classes nor its object. -/
theorem enterPhase_fieldsLaw (phase : Phase) :
    (enterPhase phase).Obeys (registryLaw fieldsLaw) := by
  intro m
  rcases hf : m.frames with _ | ⟨f, rest⟩
  · refine .bind_error (outcome_currentFrame_of_nil hf) ?_
    have hclient : (Effect.note (.raised .noConstruction)).IsClient := by
      simp [Effect.IsClient, Event.IsClient]
    exact registryLaw_allows hclient.keepsRegistry (fieldsLaw_allows hclient.keepsFields) m
  · refine .of_outcome (outcome_enterPhase hf phase) fun hm => ⟨.of_eq hm rfl rfl, fun hs => ?_⟩
    have hfs := hs.frames
    rw [hf, List.forall_mem_cons] at hfs
    refine ⟨hs.with_frames (List.forall_mem_cons.mpr hfs), .with_frames hs _ none, fun f' hf' => ?_⟩
    obtain rfl : { f with phase } = f' := by simpa using hf'
    exact ⟨f, by simp [hf], rfl, rfl, .inl rfl⟩

section Installing

variable {perform : Performer}
  (heval : ∀ e ctx, (perform (.eval e ctx)).Obeys (registryLaw fieldsLaw))

include heval

theorem client_fieldsLaw {F : Performer → Action α} (hF : MadeOf Effect.IsClient .none F) :
    (F perform).Obeys (registryLaw fieldsLaw) :=
  hF.obeys_evaluations
    (fun _ h => registryLaw_allows h.keepsRegistry (fieldsLaw_allows h.keepsFields)) heval

/-- What it tells of a field that is installed is not about the levels. -/
theorem installField_fieldsLaw (o : ObjectId) (r : FieldRecord) :
    (installField perform o r).Obeys (registryLaw fieldsLaw) :=
  (installField_madeOf o r).obeys_evaluations
    (fun _ h => registryLaw_allows h.isFraming.isConstructing.keepsRegistry
      (fieldsLaw_allows h.isDefining.keepsFields)) heval

/-- Going through one record of a level. -/
theorem installField_level {o : ObjectId} {newTarget : ClassId} {before : List Level}
    {r : FieldRecord} {rest : List FieldRecord} {m : Machine} {l : Level}
    (h : m.Carries o newTarget (before ++ [l])) (hpaused : l.progress = .paused)
    (hrecords : l.unstarted = r :: rest) :
    (during (l.activity o r) (installField perform o r)).Ensures m fun r' m' =>
      m'.Sound ∧ ∀ r'', r' = some r'' → Grown (some o) m m' ∧ Binds m.store.size m m' ∧
        m'.Carries o newTarget (before ++ [match r'' with
          | .ok _ => (l.run r rest).finish r
          | .error _ => (l.run r rest).fail r]) := by
  -- the record is begun
  let m₁ := (Effect.note (.began (l.activity o r))).apply m
  obtain ⟨h₁, hgrown₁⟩ : m₁.Carries o newTarget (before ++ [l.run r rest]) ∧ Grown (some o) m m₁ :=
    h.note (.inl rfl) rfl (Level.events_run hpaused hrecords)
  have hexcept : ∀ x ∈ some o, x < m.store.size := by simpa using h.born
  refine .bind_ok (n := m₁) rfl ?_
  refine (installField_fieldsLaw heval o r m₁).bind_observe
    (fun r'' m₂ _ hlaw => ?_) fun m₂ hlaw => ⟨(hlaw h₁.coherent).2 h₁.sound, by simp⟩
  -- its initializer leaves the level alone
  obtain ⟨h₂, hgrown₂, hbinds₂⟩ := h₁.later hlaw
  have hgrown : Grown (some o) m m₂ := hgrown₁.trans (hgrown₂.weaken _) hexcept
  have hbinds₁ : Binds m.store.size m m₁ := .of_frames rfl
  have hbinds : Binds m.store.size m m₂ := hbinds₁.trans hbinds₂ hgrown₁.size hgrown₂ (by simp)
  cases r'' with
  | ok a =>
    obtain ⟨h₃, hgrown₃⟩ := h₂.note (k := (l.run r rest).finish r) (.inr (.inl rfl)) rfl
      (Level.events_finish rfl)
    refine ⟨h₃.sound, fun r₃ hr => ?_⟩
    obtain rfl : .ok a = r₃ := Option.some.inj hr
    exact ⟨hgrown.trans hgrown₃ hexcept,
      hbinds.trans (.of_frames rfl) (Nat.le_refl _) hgrown₃ hexcept, h₃⟩
  | error e =>
    obtain ⟨h₃, hgrown₃⟩ := h₂.note (k := (l.run r rest).fail r) (.inr (.inr rfl)) rfl
      (Level.events_fail rfl)
    refine ⟨h₃.sound, fun r₃ hr => ?_⟩
    obtain rfl : .error _ = r₃ := Option.some.inj hr
    exact ⟨hgrown.trans hgrown₃ hexcept,
      hbinds.trans (.of_frames rfl) (Nat.le_refl _) hgrown₃ hexcept, h₃⟩

/-- **Going through the records of a level** closes it. -/
theorem installFields_level {o : ObjectId} {newTarget : ClassId} {before : List Level}
    (records : List FieldRecord) {m : Machine} {l : Level}
    (h : m.Carries o newTarget (before ++ [l])) (hpaused : l.progress = .paused)
    (hrecords : l.unstarted = records) :
    (installFields perform (l.activity o) o records).Ensures m
      (LevelClosed m o newTarget before l) := by
  induction records generalizing m l with
  | nil =>
    have hwhole : l.Whole := ⟨hpaused, hrecords⟩
    exact .of_outcome rfl ⟨h.sound, fun r' hr =>
      ⟨l, h, rfl, .inl hwhole, .refl h.sound _, .of_frames rfl, fun _ _ => hwhole⟩⟩
  | cons r rest ih =>
    refine (installField_level heval h hpaused hrecords).bind (fun a m₁ _ h₁ => ?_)
      (fun e m₁ h₁ => ⟨h₁.1, fun r' hr => ?_⟩) fun m₁ h₁ => ⟨h₁.1, by simp⟩
    · obtain ⟨hgrown, hbinds, h₁⟩ := h₁.2 _ rfl
      exact (ih h₁ rfl rfl).mono fun r' m' h' =>
        h'.after (k := (l.run r rest).finish r) h.born rfl hgrown hbinds
    · obtain ⟨hgrown, hbinds, h₁⟩ := h₁.2 _ rfl
      obtain rfl : .error e = r' := Option.some.inj hr
      exact ⟨_, h₁, rfl, .inr ⟨r, rfl⟩, hgrown, hbinds, by simp⟩

/-- Installing the fields of the class of a frame that has just bound the object. -/
theorem installInstanceFields_level {m : Machine} {f : Frame} (hf : f ∈ m.frames.head?)
    {o : ObjectId} (hthis : f.this = some o) (hphase : f.phase = .allocated ∨ f.phase = .thisBound)
    {c : Class} (hc : m.registry.class? f.cls = some c) {before : List Level}
    (h : m.Carries o f.newTarget before) (hclosed : ∀ l ∈ before, l.Closed)
    (hlineage : ∃ ids, Lineage m.chronicle.HasParent ids f.newTarget ∧
      before.map Level.cls ++ [f.cls] <+: ids) :
    (installInstanceFields perform o f.cls).Ensures m (LevelClosed m o f.newTarget before
      (.start (some f) f.cls c.displayName c.instanceFields)) := by
  let l : Level := .start (some f) f.cls c.displayName c.instanceFields
  let e : Event := .installing (some f) f.cls c.displayName o c.instanceFields
  have htold : Told e m.trace := by
    obtain ⟨c₀, -, -, rfl⟩ := h.coherent.follows.known f.cls c hc
    exact ⟨⟨f, rfl, rfl, hthis, hphase⟩, rfl⟩
  have hinstalled : Installed m.chronicle o f.newTarget (before ++ [l])
      (historyOf m.trace o ++ [e]) :=
    ⟨by rw [h.installed.history, levelHistory_concat, Level.events_start],
      by simpa [l, Level.start] using hlineage, by simpa using hclosed⟩
  obtain ⟨h₁, hgrown⟩ := h.sound.note h.coherent h.born
    ⟨rfl, fun _ => beq_iff_eq.trans eq_comm⟩ htold hinstalled
  refine .bind_ok (outcome_classAt_of_some hc) ?_
  refine .bind_ok (a := m) (n := m) rfl (.bind_ok (a := ⟨⟩) (n := (Effect.note e).apply m) ?_ ?_)
  · rw [Option.mem_def.mp hf]
    rfl
  · exact (installFields_level heval c.instanceFields h₁ rfl rfl).mono fun _ _ h' =>
      h'.after h.born rfl hgrown (.of_frames rfl)

/-- What is known of an object once a frame has tried to adopt it. -/
structure Adopted (m : Machine) (f : Frame) (o : ObjectId) (before : List Level)
    (r : Except Failure Unit) (m' : Machine) : Prop where
  coherent : m'.Coherent
  grown : Grown (some o) m m'
  settled : Settled m'.chronicle o (historyOf m'.trace o)
  binds : ∀ n ≤ o, Binds n m m'
  whole : ∀ a, r = .ok a → ∃ l, m'.Carries o f.newTarget (before ++ [l]) ∧ l.cls = f.cls ∧ l.Whole

/-- The machine once its innermost frame has bound the object. -/
def Machine.bound (m : Machine) (f : Frame) (rest : List Frame) (o : ObjectId) (phase : Phase) :
    Machine :=
  { m with frames := { f with this := some o, phase } :: rest }

section Bound

variable {m : Machine} {f : Frame} {rest : List Frame} (hf : m.frames = f :: rest) {o : ObjectId}
  {before : List Level} (h : m.Carries o f.newTarget before) {phase : Phase}

include hf h

omit heval in
/-- Binding the object leaves its levels as they are. -/
theorem Machine.Carries.bound : (m.bound f rest o phase).Carries o f.newTarget before := by
  have hs : (m.bound f rest o phase).Sound := h.sound.with_frames <| by
    have hfs := h.sound.frames
    rw [hf, List.forall_mem_cons] at hfs
    exact List.forall_mem_cons.mpr hfs
  exact ⟨⟨h.coherent.follows, h.coherent.names⟩, hs, h.born, h.installed⟩

omit heval in
/-- A closed level of the class of the frame is all that it takes. -/
theorem adopted_of_carries {m' : Machine} {l : Level} {r : Except Failure Unit}
    (hl : m'.Carries o f.newTarget (before ++ [l])) (hcls : l.cls = f.cls) (hclosed : l.Closed)
    (hsure : ∀ l ∈ before, l.Sure m.chronicle)
    (hlineage : Lineage m.chronicle.HasParent (before.map Level.cls ++ [f.cls]) f.cls)
    (hgrown : Grown (some o) (m.bound f rest o phase) m')
    (hbinds : Binds m.store.size (m.bound f rest o phase) m')
    (hwhole : ∀ a, r = .ok a → l.Whole) : Adopted m f o before r m' := by
  have hgrown : Grown (some o) m m' :=
    (Grown.with_frames h.sound _ _).trans hgrown (by simpa using h.born)
  have hlevels := hl.installed.all_closed hclosed
  refine ⟨hl.coherent, hgrown, .inr ⟨f.newTarget, _, hl.installed, hlevels⟩,
    fun n hn f' hf' => ?_, fun a ha => ⟨l, hl, hcls, hwhole a ha⟩⟩
  obtain ⟨g, hg, hcls', hnewTarget', hthis'⟩ := hbinds f' hf'
  obtain rfl : { f with this := some o, phase } = g := by simpa [Machine.bound] using hg
  refine ⟨f, by simp [hf], hcls', hnewTarget', .inr fun x hx => ?_⟩
  rcases hthis' with hthis' | hthis'
  · -- the frame has kept the object, which has all levels up to this class now
    obtain rfl : o = x := by simpa [hthis'] using hx
    have hlineage' : Lineage m'.chronicle.HasParent (before.map Level.cls ++ [f.cls]) f.cls :=
      hlineage.mono fun _ _ => .mono hgrown.chronicle
    rw [hcls', hnewTarget']
    refine ⟨hn, hl.born, before ++ [l], ⟨hl.installed.history, ?_, hlevels⟩, fun l' hl' => ?_⟩
    · simpa [hcls] using hlineage'
    · exact (hsure l' (by simpa using hl')).mono hgrown.chronicle
  · obtain ⟨hle, hx⟩ := hthis' x hx
    exact ⟨Nat.le_trans hn (Nat.le_of_lt (Nat.lt_of_lt_of_le h.born hle)), hx⟩

omit heval in
/-- A frame that has an object already takes no other one. -/
theorem adopt_refused (hclosed : ∀ l ∈ before, l.Closed) (hthis : f.this ≠ none) :
    (adopt perform o f.cls phase).Ensures m fun r m' =>
      m'.Sound ∧ ∀ r', r = some r' → Adopted m f o before r' m' := by
  obtain ⟨x, hx⟩ := Option.ne_none_iff_exists'.mp hthis
  let m₁ := (Effect.note (.raised .boundTwice)).apply m
  have hbind : (bindThis o phase).outcome m = (some (.error (.ofFault .boundTwice)), m₁) := by
    rw [outcome_bindThis hf, hx]
    rfl
  have hclient : (Effect.note (.raised .boundTwice)).IsClient := by
    simp [Effect.IsClient, Event.IsClient]
  obtain ⟨h₁, hgrown, -⟩ := h.later
    (registryLaw_allows hclient.keepsRegistry (fieldsLaw_allows hclient.keepsFields) m)
  refine .bind_error hbind ⟨h₁.sound, fun r' hr => ?_⟩
  obtain rfl : .error _ = r' := Option.some.inj hr
  exact ⟨h₁.coherent, hgrown.weaken _, .inr ⟨f.newTarget, before, h₁.installed, hclosed⟩,
    fun n _ => .of_frames rfl, by simp⟩

/-- **Adopting an object** adds the level of the class of the frame. -/
theorem adopt_fields (hclass : (m.registry.class? f.cls).isSome)
    (hclosed : ∀ l ∈ before, l.Closed) (hsure : ∀ l ∈ before, l.Sure m.chronicle)
    (hlineage : Lineage m.chronicle.HasParent (before.map Level.cls ++ [f.cls]) f.cls)
    (hphase : phase = .allocated ∨ phase = .thisBound) :
    (adopt perform o f.cls phase).Ensures m fun r m' =>
      m'.Sound ∧ ∀ r', r = some r' → Adopted m f o before r' m' := by
  by_cases hthis : f.this = none
  swap
  · exact adopt_refused hf h hclosed hthis
  -- the object is bound, and the level of the class of the frame begins
  let m₁ := m.bound f rest o phase
  have hbind : (bindThis o phase).outcome m = (some (.ok ⟨⟩), m₁) := by
    rw [outcome_bindThis hf, hthis]
    rfl
  have h₁ : m₁.Carries o f.newTarget before := h.bound hf
  have hf₁ : { f with this := some o, phase } ∈ m₁.frames.head? := rfl
  have honLineage : OnLineage m.chronicle f.cls f.newTarget := h.sound.frames f (by simp [hf])
  obtain ⟨c, hc⟩ := Option.isSome_iff_exists.mp hclass
  refine .bind_ok hbind ((installInstanceFields_level heval hf₁ rfl hphase hc h₁ hclosed
    (honLineage.isPrefix h.coherent.follows.hasParent_unique hlineage)).bind
    (fun _ m₂ _ h₂ => ?_) (fun e m₂ h₂ => ?_) fun m₂ h₂ => ⟨h₂.1, by simp⟩)
  · -- moving on to the body does not matter
    obtain ⟨l, hl, hcls, hclosed', hgrown, hbinds, hwhole⟩ := h₂.2 _ rfl
    refine ((enterPhase_fieldsLaw .fieldsInstalled).bind
      (fun _ => enterPhase_fieldsLaw .body) m₂).mono fun r m₃ hlaw => ?_
    cases r with
    | none => exact ⟨(hlaw hl.coherent).2 hl.sound, by simp⟩
    | some r =>
      obtain ⟨h₃, hgrown₃, hbinds₃⟩ := hl.later hlaw
      exact ⟨h₃.sound, fun r' _ => adopted_of_carries hf h h₃ hcls hclosed' hsure hlineage
        (hgrown.trans (hgrown₃.weaken _) (by simpa using h₁.born))
        (hbinds.trans hbinds₃ hgrown.size hgrown₃ (by simp)) fun _ _ => hwhole _ rfl⟩
  · obtain ⟨l, hl, hcls, hclosed', hgrown, hbinds, hwhole⟩ := h₂.2 _ rfl
    refine ⟨h₂.1, fun r' hr => ?_⟩
    obtain rfl : .error e = r' := Option.some.inj hr
    exact adopted_of_carries hf h hl hcls hclosed' hsure hlineage hgrown hbinds (by simp)

end Bound

end Installing

end ClassMachine
