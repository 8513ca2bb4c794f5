import ClassMachine.Proofs.FieldOrder
import ClassMachine.Proofs.Persistence

/-!
# Exchanging initializers under a construction

An initializer may be exchanged while instances of its class are under construction, by
client code that these constructions run. What does that change for them? A level takes the
records of its class when it begins (`ClassMachine.Told`), and no sooner. So an exchange
comes too late for a level that has begun, and for those in front of it. But it reaches the
levels that are still to begin, also those of constructions that have begun long before: the
fields of a base class, or a body in front of its call of the parent constructor, can still
exchange what the derived classes are going to install.

So the records of a level are those that the class had when the construction began, each
with the newest initializer that it was given between this and the beginning of the level
(`ClassMachine.FieldRecord.after`).

Main statements: `ClassMachine.level_records`, and `ClassMachine.construction_exchanged` for
a construction that does not install what its classes had at first.
-/

namespace ClassMachine

open Chronicle

/-! ### Exchanges -/

/-- The initializer that the event gives to the fields of that name of the class. -/
def Event.exchange? (cls : ClassId) (name : String) : Event → Option (Option Expr)
  | replaced id field initializer => if id = cls ∧ field = name then some initializer else none
  | _ => none

/-- The newest initializer that the fields of that name of the class were given, if any. -/
def newestExchange? (T : List Event) (cls : ClassId) (name : String) : Option (Option Expr) :=
  T.findSome? (Event.exchange? cls name)

/-- The record of the class once the initializers have been exchanged as in these events. -/
def FieldRecord.after (T : List Event) (cls : ClassId) (r : FieldRecord) : FieldRecord :=
  { r with initializer := (newestExchange? T cls r.name).getD r.initializer }

section Exchanges

variable {cls : ClassId}

@[simp] theorem FieldRecord.after_nil : FieldRecord.after [] cls = id := rfl

/-- An event that is no exchange for the class changes no record of it. -/
theorem FieldRecord.after_cons {e : Event} (he : ∀ name, e.exchange? cls name = none)
    (T : List Event) : FieldRecord.after (e :: T) cls = FieldRecord.after T cls := by
  funext r
  simp [after, newestExchange?, he]

/-- An exchange for the class puts its initializer into all records of that name. -/
theorem FieldRecord.map_after_cons_replaced {field : String} {initializer : Option Expr}
    (T : List Event) (records : List FieldRecord) :
    records.map (FieldRecord.after (.replaced cls field initializer :: T) cls) =
      FieldRecord.replaceAll field initializer (records.map (FieldRecord.after T cls)) := by
  rw [replaceAll, List.map_map]
  refine List.map_congr_left fun r _ => ?_
  by_cases hname : r.name = field
  · simp [after, newestExchange?, Event.exchange?, hname]
  · simp [after, newestExchange?, Event.exchange?, hname, Ne.symm hname]

/-- Records are as they were exactly if none was given another initializer. -/
theorem FieldRecord.map_after_eq_self_iff {T : List Event} {records : List FieldRecord} :
    records.map (FieldRecord.after T cls) = records ↔
      ∀ r ∈ records, ∀ initializer, newestExchange? T cls r.name = some initializer →
        initializer = r.initializer := by
  have hself : records.map (FieldRecord.after T cls) = records ↔
      ∀ r ∈ records, FieldRecord.after T cls r = r := by
    simpa using (List.map_inj_left (l := records) (f := FieldRecord.after T cls) (g := id))
  refine hself.trans (forall₂_congr fun ⟨name, initializer⟩ _ => ?_)
  cases hexchange : newestExchange? T cls name <;> simp [after, hexchange]

end Exchanges

/-- **The records of a class that was there before** are those that it had, with the
exchanges since. -/
theorem Chronicle.fieldsOf_append {cls : ClassId} {T : List Event} (new : List Event)
    (hnew : ∀ c : Class, .registered c ∈ new → c.id ≠ cls) :
    fieldsOf (chronicleOf (new ++ T)) cls =
      (fieldsOf (chronicleOf T) cls).map (FieldRecord.after new cls) := by
  induction new with
  | nil => simp
  | cons e new ih =>
    have ih := ih fun c hc => hnew c (List.mem_cons_of_mem e hc)
    by_cases hregistral : e.isRegistral = true
    · rw [List.cons_append, chronicleOf, List.filter_cons_of_pos hregistral, ← chronicleOf]
      cases e with
      | registered c =>
        rw [FieldRecord.after_cons fun _ => rfl, ← ih, fieldsOf,
          if_neg (hnew c List.mem_cons_self)]
      | replaced id field initializer =>
        by_cases hid : id = cls
        · subst hid
          rw [FieldRecord.map_after_cons_replaced, ← ih, fieldsOf, if_pos rfl]
        · rw [FieldRecord.after_cons fun _ => by simp [Event.exchange?, hid], ← ih, fieldsOf,
            if_neg hid]
      | numbered | completed | withdrawn =>
        rw [FieldRecord.after_cons fun _ => rfl]
        exact ih
      | _ => simp [Event.isRegistral] at hregistral
    · have hnone (name : String) : e.exchange? cls name = none := by
        cases e <;> simp_all [Event.isRegistral, Event.exchange?]
      rw [List.cons_append, chronicleOf, List.filter_cons_of_neg hregistral, ← chronicleOf, ih,
        FieldRecord.after_cons hnone]

/-! ### The levels of a construction -/

/-- The classes of a lineage have a parent or are known to have none. -/
theorem Lineage.hasParent {P : ClassId → Option ClassId → Prop} {ids : List ClassId} {id : ClassId}
    (h : Lineage P ids id) {x : ClassId} (hx : x ∈ ids) : ∃ p, P x p := by
  induction h with
  | base h => exact ⟨none, (List.mem_singleton.mp hx) ▸ h⟩
  | derived _ h ih =>
    rcases List.mem_append.mp hx with hx | hx
    · exact ih hx
    · exact ⟨_, (List.mem_singleton.mp hx) ▸ h⟩

/-- A class that was there had its lineage then. -/
theorem Machine.Coherent.lineage {m : Machine} (hm : m.Coherent) {id : ClassId}
    (hid : (m.registry.class? id).isSome) : ∃ ids, Lineage m.chronicle.HasParent ids id ∧
      ∀ x ∈ ids, (m.registry.class? x).isSome := by
  obtain ⟨ids, hids⟩ := hm.follows.exists_lineage hid
  refine ⟨ids, hids.mono fun _ _ ⟨c, hc, hp⟩ => hp ▸ hm.follows.hasParent hc, fun x hx => ?_⟩
  obtain ⟨_, c, hc, -⟩ := hids.hasParent hx
  exact Option.isSome_iff_exists.mpr ⟨c, hc⟩

/-- Each beginning of an installation is that of a level. -/
theorem exists_level_of_mem {o target : ObjectId} {newTarget cls : ClassId} {levels : List Level}
    {frame : Option Frame} {className : String} {records : List FieldRecord}
    (h : .installing frame cls className target records ∈ levelHistory o newTarget levels) :
    ∃ l ∈ levels, l.cls = cls ∧ l.records = records := by
  simp only [levelHistory, List.mem_cons, reduceCtorEq, List.mem_flatMap, false_or] at h
  obtain ⟨l, hl, h⟩ := h
  refine ⟨l, hl, ?_⟩
  simp only [Level.events, List.mem_cons, Event.installing.injEq, List.mem_append] at h
  rcases h with ⟨-, rfl, -, -, rfl⟩ | h | h
  · exact ⟨rfl, rfl⟩
  · simp [Level.doneEvents] at h
  · simp only [Level.progressEvents] at h
    split at h <;> simp at h

/-- What the records of a level are for an instance that is new since the first machine: those
that the class had there, with the exchanges up to the beginning of the level. -/
def Level.Exchanged (l : Level) (o : ObjectId) (m m' : Machine) : Prop :=
  ∃ c later earlier, m.registry.class? l.cls = some c ∧
    m'.trace = later ++ .installing l.frame l.cls l.className o l.records :: (earlier ++ m.trace) ∧
    l.records = c.instanceFields.map (FieldRecord.after earlier l.cls) ∧
    (l.records = c.instanceFields ↔ ∀ r ∈ c.instanceFields, ∀ initializer,
      newestExchange? earlier l.cls r.name = some initializer → initializer = r.initializer)

section Later

variable {m m' : Machine} (hm : m.Coherent) (hs : m.Sound) (hm' : m'.Coherent) (hs' : m'.Sound)
  {new : List Event} (hnew : m'.trace = new ++ m.trace)

include hm hs hm' hs' hnew

/-- **The levels of an instance** that is new since the first machine, of a class that was there
already. -/
theorem Machine.Sound.exchanged {o : ObjectId} (ho : m.store.size ≤ o) {newTarget : ClassId}
    (hclass : (m.registry.class? newTarget).isSome) {levels : List Level}
    (h : m'.InOrder o newTarget levels) {l : Level} (hl : l ∈ levels) : l.Exchanged o m m' := by
  have hchronicle : m'.chronicle = chronicleOf new ++ m.chronicle := by
    rw [Machine.chronicle, hnew, chronicleOf, List.filter_append]
    rfl
  -- the class of the level was there, and no class has got its number since
  obtain ⟨ids, hids, hfirst⟩ := h.lineage
  obtain ⟨ids', hids', hthere⟩ := hm.lineage hclass
  obtain rfl := hids.unique hm'.follows.hasParent_unique
    (hids'.mono fun _ _ => .mono (hchronicle ▸ List.subset_append_right ..))
  obtain ⟨c, hc⟩ := Option.isSome_iff_exists.mp
    (hthere l.cls (hfirst.subset (List.mem_map_of_mem hl)))
  obtain ⟨c₀, hc₀, hid, hfields⟩ := hm.follows.known l.cls c hc
  have hunused (c' : Class) (hc' : .registered c' ∈ new) : c'.id ≠ l.cls :=
    hid ▸ Registry.Follows.id_ne_of_append (hchronicle ▸ hm'.follows)
      (List.mem_filter.mpr ⟨hc', rfl⟩) hc₀
  -- the object had no history, so the level has begun since
  obtain ⟨hmem, habout⟩ := mem_historyOf.mp
    (h.history ▸ installing_mem_levelHistory o newTarget hl)
  rw [hnew, List.mem_append] at hmem
  have hbegun : .installing l.frame l.cls l.className o l.records ∈ new := by
    refine hmem.resolve_right fun hold => ?_
    have hhistory := mem_historyOf.mpr ⟨hold, habout⟩
    rw [hs.unborn o ho] at hhistory
    exact List.not_mem_nil hhistory
  obtain ⟨later, earlier, rfl⟩ := List.append_of_mem hbegun
  have htrace : m'.trace =
      later ++ .installing l.frame l.cls l.className o l.records :: (earlier ++ m.trace) := by
    simp [hnew]
  obtain ⟨-, hrecords⟩ := hs'.truthful.told htrace
  have hrecords : l.records = c.instanceFields.map (FieldRecord.after earlier l.cls) := by
    rw [hrecords, fieldsOf_append earlier fun c' hc' => hunused c' (by simp [hc']), hfields]
    rfl
  exact ⟨c, later, earlier, hc, htrace, hrecords, hrecords ▸ FieldRecord.map_after_eq_self_iff⟩

end Later

/-- What becomes of the machine in a construction. -/
theorem construct_sound (settings : Settings) {m : Machine} (hm : m.Coherent) (hs : m.Sound)
    (stop : Machine → Bool) (levels : Nat) (cls : ClassId) (args : List Value) :
    (construct settings (interpretUntil settings stop levels) cls args).Ensures m fun _ m' =>
      m'.Coherent ∧ m'.Sound ∧ m.Persists m' := by
  have hkeeps := interpretUntil_keeps (step_keeps_full settings) stop levels
  obtain ⟨hregistry, hframes, hfields⟩ := keeps_fullContract.mp hkeeps
  have hpersists : (construct settings (interpretUntil settings stop levels) cls args).Obeys
      persistenceLaw :=
    call_obeys (L := persistenceLaw) Effect.persists_apply settings
      (fun _ => interpretUntil_obeys (L := persistenceLaw) Effect.persists_apply settings stop
        levels) (.construct cls args)
  refine (((call_registryLaw hregistry settings (.construct cls args) m).and
    (construct_fields hframes hfields hm hs cls args)).and (hpersists m)).mono ?_
  rintro (_ | r) m' ⟨⟨hlaw, hsound, -⟩, hpersists⟩
  · exact ⟨(hlaw hm).1.coherent, hsound hs, hpersists⟩
  · exact ⟨(hlaw hm).1.coherent, (hsound hs).1, hpersists⟩

/-- **What a construction installs.** Take any construction, up to its end or to a moment where
it was broken off, and any instance that was not there when it began, of a class that was:
the object of the construction, or one that is made inside it. The fields of this instance are
installed in order. At each level the records are those that the class had when the
construction began, each with the newest initializer that it was given between this and the
beginning of the level. So they are the same records exactly if no other initializer was
given to one of them in this stretch; exchanges before it and after it do not count. -/
theorem level_records (settings : Settings) (m : Machine)
    (hm : AtRest settings m ∨ Reachable settings m) (stop : Machine → Bool) (levels : Nat)
    (cls : ClassId) (args : List Value) (r : Option (Except Failure ObjectId)) (m' : Machine)
    (h : (construct settings (interpretUntil settings stop levels) cls args).outcome m = (r, m'))
    (o : ObjectId) (newTarget : ClassId) (ho : m.store.size ≤ o)
    (hmade : .allocated o newTarget ∈ m'.trace) (hclass : (m.registry.class? newTarget).isSome) :
    ∃ ls, m'.InOrder o newTarget ls ∧ ∀ l ∈ ls, l.Exchanged o m m' := by
  obtain ⟨hcoherent, hs⟩ := sound_of_moment hm
  have hrun := construct_sound settings hcoherent hs stop levels cls args
  rw [Action.Ensures, h] at hrun
  obtain ⟨hcoherent', hs', hpersists⟩ := hrun
  obtain ⟨new, hnew, -⟩ := hpersists.link
  obtain ⟨ls, hls⟩ := (hs'.fieldsInOrder hcoherent').instances o newTarget hmade
  exact ⟨ls, hls, fun l hl => hs.exchanged hcoherent hcoherent' hs' hnew ho hclass hls hl⟩

/-- A base class of which the field exchanges the initializer of a field of a derived class:
`class A { x = (replace(2, "y", "new"), 1) }` and `class B extends A { y = "old" }`. -/
def meddlingClass : Expr :=
  .classDefinition
    { name := some (.literal (.str "B")),
      heritage := some (.primitive .classObject [.classDefinition
        { name := some (.literal (.str "A")), heritage := none, constructor := none,
          elements := [.field (.literal "x") false
            (some (.sequence [.replaceInitializer (.literal (.number 2)) (.literal (.str "y"))
              (some (.literal (.str "new"))), .literal (.number 1)]))] }]),
      constructor := none,
      elements := [.field (.literal "y") false (some (.literal (.str "old")))] }

/-- The text that the first record has as its initializer. -/
def firstText? : List FieldRecord → Option String
  | { initializer := some (.literal (.str s)), .. } :: _ => some s
  | _ => none

/-- Are fields of class 2 installed on the object, the first one with that initializer? -/
def Event.installsText (text : String) (o : ObjectId) : Event → Bool
  | installing _ cls _ target records =>
    cls == 2 && target == o && firstText? records == some text
  | _ => false

/-- Is it an instance of class 2 that is allocated? -/
def Event.allocatesSecond (o : ObjectId) : Event → Bool
  | allocated target newTarget => target == o && newTarget == 2
  | _ => false

/-- Is a new instance of class 2 handed out on which a field of the class was installed with the
new initializer, while the class had the old one at first? -/
def handsOutExchanged (m : Machine) : Option (Except Failure ObjectId) × Machine → Bool
  | (some (.ok o), m') => m.store.size ≤ o && m'.trace.any (Event.allocatesSecond o) &&
      ((m.registry.class? 2).any fun c => firstText? c.instanceFields == some "old") &&
      m'.trace.any (Event.installsText "new" o)
  | _ => false

/-- There is a construction that hands out such an instance. -/
theorem exists_meddling_run : ∃ m m' o c, AtRest {} m ∧
    (construct {} (interpretUntil {} (fun _ => false) 9) 2 []).outcome m = (some (.ok o), m') ∧
    m.store.size ≤ o ∧ .allocated o 2 ∈ m'.trace ∧ m.registry.class? 2 = some c ∧
    firstText? c.instanceFields = some "old" ∧ ∃ e ∈ m'.trace, e.installsText "new" o := by
  have hrun : ((runStep {} 9 meddlingClass .initial).any fun p =>
      handsOutExchanged p.2 ((construct {} (interpret {} 9) 2 []).outcome p.2)) = true := by
    decide +kernel
  obtain ⟨⟨report, m⟩, hm, hexchanged⟩ := (Option.any_eq_true ..).mp hrun
  rw [← interpretUntil_never] at hexchanged
  unfold handsOutExchanged at hexchanged
  split at hexchanged
  next o m' h =>
    simp only [Bool.and_eq_true, decide_eq_true_eq] at hexchanged
    obtain ⟨⟨⟨ho, hmade⟩, hclass⟩, hinstalls⟩ := hexchanged
    obtain ⟨e, he, hmade⟩ := List.any_eq_true.mp hmade
    obtain ⟨c, hc, hold⟩ := (Option.any_eq_true ..).mp hclass
    cases e <;> simp only [Event.allocatesSecond, Bool.false_eq_true, Bool.and_eq_true,
      beq_iff_eq] at hmade
    obtain ⟨rfl, rfl⟩ := hmade
    exact ⟨m, m', _, c, .step .initial hm, h, ho, he, hc, beq_iff_eq.mp hold,
      List.any_eq_true.mp hinstalls⟩
  next => simp at hexchanged

/-- **A construction does not always install the records that its classes had when it
began.** -/
theorem construction_exchanged : ∃ m m' o, AtRest {} m ∧
    (construct {} (interpretUntil {} (fun _ => false) 9) 2 []).outcome m = (some (.ok o), m') ∧
    ∃ ls, m'.InOrder o 2 ls ∧ ∃ l ∈ ls, ∃ c, m.registry.class? l.cls = some c ∧
      l.records ≠ c.instanceFields := by
  obtain ⟨m, m', o, c, hm, h, -, hmade, hc, hold, e, he, hinstalls⟩ := exists_meddling_run
  obtain ⟨hcoherent, hs⟩ := sound_of_moment (.inl hm)
  have hrun := construct_sound {} hcoherent hs (fun _ => false) 9 2 []
  rw [Action.Ensures, h] at hrun
  obtain ⟨hcoherent', hs', -⟩ := hrun
  obtain ⟨ls, hls⟩ := (hs'.fieldsInOrder hcoherent').instances o 2 hmade
  cases e <;> simp only [Event.installsText, Bool.false_eq_true, Bool.and_eq_true,
    beq_iff_eq] at hinstalls
  obtain ⟨⟨rfl, rfl⟩, hnew⟩ := hinstalls
  obtain ⟨l, hl, hcls, hrecords⟩ := exists_level_of_mem
    (hls.history ▸ mem_historyOf.mpr ⟨he, beq_self_eq_true _⟩)
  refine ⟨m, m', _, hm, h, ls, hls, l, hl, c, hcls ▸ hc, fun heq => ?_⟩
  rw [← hrecords, heq, hold] at hnew
  simp at hnew

/-- What the construction does install. -/
theorem level_records_of_meddlingClass : ∃ m m' o, ((AtRest {} m ∨ Reachable {} m) ∧
    (construct {} (interpretUntil {} (fun _ => false) 9) 2 []).outcome m = (some (.ok o), m') ∧
    m.store.size ≤ o ∧ .allocated o 2 ∈ m'.trace ∧ (m.registry.class? 2).isSome) ∧
      ∃ ls, m'.InOrder o 2 ls ∧ ∀ l ∈ ls, l.Exchanged o m m' := by
  obtain ⟨m, m', o, c, hm, h, ho, hmade, hc, -⟩ := exists_meddling_run
  have hclass : (m.registry.class? 2).isSome := by simp [hc]
  exact ⟨m, m', o, ⟨.inl hm, h, ho, hmade, hclass⟩,
    level_records {} m (.inl hm) _ 9 2 [] _ m' h o 2 ho hmade hclass⟩

end ClassMachine
