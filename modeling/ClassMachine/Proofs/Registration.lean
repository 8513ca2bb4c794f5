import ClassMachine.Proofs.Moments
import ClassMachine.Proofs.NameTable
import ClassMachine.Proofs.Stages

/-!
# Definitions and the registry

Class definitions nest: computed names and static fields run client code, which may
define classes itself. What matters is that definitions end in the reverse of the order
in which they begin. So whatever runs from one moment to a later one tells of no class
that was known before (`ClassMachine.Machine.Later`) and leaves none under way that was
not; and the registry follows its chronicle all the time. This is the law
`ClassMachine.registryLaw`, which all actions of the machine obey. The only one that
takes work is `ClassMachine.defineClass`: a class has to be fit for registration when
its turn comes (`ClassMachine.Machine.Fresh`), and the youngest one under way when its
registration is taken back.

Main statements: `ClassMachine.registry_membership`, `ClassMachine.name_law`.
-/

namespace ClassMachine

open Chronicle

variable {α : Type}

/-! ### How the registry goes on -/

/-- The registry and its names are what the chronicle says. -/
structure Machine.Coherent (m : Machine) : Prop where
  follows : m.registry.Follows m.chronicle
  names : m.registry.NamesFollow m.chronicle

/-- The chronicle goes on, and what is new is about such classes only. -/
def Chronicle.Adds (S : ClassId → Prop) (H H' : Chronicle) : Prop :=
  ∃ new, H' = new ++ H ∧ ∀ e ∈ new, ∀ id ∈ e.subject?, S id

namespace Chronicle.Adds

variable {S S' : ClassId → Prop} {H H' H'' : Chronicle}

theorem refl (H : Chronicle) : Adds S H H :=
  ⟨[], rfl, by simp⟩

theorem mono (h : Adds S H H') (hS : ∀ id, S id → S' id) : Adds S' H H' := by
  obtain ⟨new, rfl, hnew⟩ := h
  exact ⟨new, rfl, fun e he id hid => hS id (hnew e he id hid)⟩

theorem trans (h : Adds S H H') (h' : Adds S H' H'') : Adds S H H'' := by
  obtain ⟨new, rfl, hnew⟩ := h
  obtain ⟨new', rfl, hnew'⟩ := h'
  refine ⟨new' ++ new, (List.append_assoc ..).symm, fun e he => ?_⟩
  rcases List.mem_append.mp he with he | he
  · exact hnew' e he
  · exact hnew e he

/-- A single event. -/
theorem cons {e : Event} (he : ∀ id ∈ e.subject?, S id) : Adds S H (e :: H) :=
  ⟨[e], rfl, by simpa using he⟩

section Others

variable (h : Adds S H H') {id : ClassId} (hS : ¬ S id)

include h hS

/-- An event about another class is not new. -/
theorem mem_iff {e : Event} (hid : e.subject? = some id) : e ∈ H' ↔ e ∈ H := by
  obtain ⟨new, rfl, hnew⟩ := h
  refine ⟨fun he => ?_, List.mem_append_right new⟩
  rcases List.mem_append.mp he with he | he
  · exact absurd (hnew e he id hid) hS
  · exact he

theorem registered_iff : Registered H' id ↔ Registered H id := by
  refine exists_congr fun c => and_congr_left fun hc => ?_
  exact h.mem_iff hS (congrArg some hc)

theorem completed_iff : Completed H' id ↔ Completed H id :=
  h.mem_iff hS rfl

theorem withdrawn_iff : Withdrawn H' id ↔ Withdrawn H id :=
  exists_congr fun _ => h.mem_iff hS rfl

theorem running_iff : Running H' id ↔ Running H id := by
  rw [Running, Running, h.registered_iff hS, h.completed_iff hS, h.withdrawn_iff hS]

end Others

end Chronicle.Adds

/-- The machine has gone on, and tells of no class that was known before. -/
structure Machine.Later (m m' : Machine) : Prop where
  lastId : m.registry.lastId ≤ m'.registry.lastId
  adds : Adds (m.registry.lastId < ·) m.chronicle m'.chronicle

theorem Machine.Later.trans {m m' m'' : Machine} (h : m.Later m') (h' : m'.Later m'') :
    m.Later m'' :=
  ⟨Nat.le_trans h.lastId h'.lastId,
    h.adds.trans (h'.adds.mono fun _ => Nat.lt_of_le_of_lt h.lastId)⟩

/-- The classes that were known before are there or not as before. -/
theorem Machine.Later.isSome_class? {m m' : Machine} (h : m.Later m') (hm : m.Coherent)
    (hm' : m'.Coherent) {id : ClassId} (hid : id ≤ m.registry.lastId) :
    (m'.registry.class? id).isSome = (m.registry.class? id).isSome := by
  have hid := Nat.not_lt_of_le hid
  rw [← Registry.contains_eq_isSome, ← Registry.contains_eq_isSome, Bool.eq_iff_iff,
    hm.follows.contains_iff, hm'.follows.contains_iff, Running, Running,
    h.adds.registered_iff hid, h.adds.completed_iff hid, h.adds.withdrawn_iff hid,
    h.adds.mem_iff hid rfl]

/-- A class that was known before and is there is so as before, but for its fields. -/
theorem Machine.Later.class? {m m' : Machine} (h : m.Later m') (hm : m.Coherent)
    (hm' : m'.Coherent) {id : ClassId} {c : Class} (hc : m.registry.class? id = some c) :
    ∃ fields, m'.registry.class? id = some (c.withFields fields) := by
  have hsome : (m'.registry.class? id).isSome := by
    rw [h.isSome_class? hm hm' (hm.follows.registered_le (hm.follows.registered_of_class? hc)), hc]
    rfl
  obtain ⟨c', hc'⟩ := Option.isSome_iff_exists.mp hsome
  obtain ⟨c₀, hc₀, hid, rfl⟩ := hm.follows.known id c hc
  obtain ⟨c₁, hc₁, hid', rfl⟩ := hm'.follows.known id c' hc'
  obtain ⟨new, hnew, -⟩ := h.adds
  have hc₀ : .registered c₀ ∈ m'.chronicle := hnew ▸ List.mem_append_right new hc₀
  obtain rfl := hm'.follows.registered_unique hc₀ hc₁ (hid.trans hid'.symm)
  exact ⟨_, by rw [Class.withFields_withFields]; exact hc'⟩

/-- What is known of the registry after an action: it is coherent, and what is told is
about new classes. -/
structure Machine.Continues (m m' : Machine) : Prop where
  coherent : m'.Coherent
  later : m.Later m'

/-- What is known of the registry once an action has ended: no class is under way that was
not before, either. -/
structure Machine.Settles (m m' : Machine) : Prop extends Machine.Continues m m' where
  quiet : ∀ id, Running m'.chronicle id → Running m.chronicle id

theorem Machine.Continues.trans {m m' m'' : Machine} (h : m.Continues m')
    (h' : m'.Continues m'') : m.Continues m'' :=
  ⟨h'.coherent, h.later.trans h'.later⟩

theorem Machine.Settles.trans {m m' m'' : Machine} (h : m.Settles m') (h' : m'.Settles m'') :
    m.Settles m'' :=
  ⟨h.toContinues.trans h'.toContinues, fun id hid => h.quiet id (h'.quiet id hid)⟩

/-- Machines that agree on the registry and its chronicle. -/
theorem Machine.Settles.of_eq {m m' : Machine} (hm : m.Coherent)
    (hregistry : m'.registry = m.registry) (hchronicle : m'.chronicle = m.chronicle) :
    m.Settles m' := by
  refine ⟨⟨⟨?_, ?_⟩, Nat.le_of_eq (hregistry ▸ rfl), hchronicle ▸ .refl _⟩,
    fun _ hid => hchronicle ▸ hid⟩
  · rw [hregistry, hchronicle]
    exact hm.follows
  · rw [hregistry, hchronicle]
    exact hm.names

/-- The law of all actions: from a coherent registry on, the registry goes on in this way,
and another law holds as well. -/
def registryLaw (L : Law) : Law where
  ended m m' := m.Coherent → m.Settles m' ∧ L.ended m m'
  broken m m' := m.Coherent → m.Continues m' ∧ L.broken m m'
  refl m h := ⟨.of_eq h rfl rfl, L.refl m⟩
  trans h h' hm := by
    obtain ⟨hr, hL⟩ := h hm
    obtain ⟨hr', hL'⟩ := h' hr.coherent
    exact ⟨hr.trans hr', L.trans hL hL'⟩
  late h hm := ⟨(h hm).1.toContinues, L.late (h hm).2⟩
  trans_broken h h' hm := by
    obtain ⟨hr, hL⟩ := h hm
    obtain ⟨hr', hL'⟩ := h' hr.coherent
    exact ⟨hr.toContinues.trans hr', L.trans_broken hL hL'⟩

/-- The law is to be shown from coherent machines on only. -/
theorem registryLaw_ensures {L : Law} {x : Action α} {m : Machine}
    (h : m.Coherent → x.Ensures m ((registryLaw L).Holds m)) :
    x.Ensures m ((registryLaw L).Holds m) := by
  unfold Action.Ensures at *
  generalize x.outcome m = o at h ⊢
  rcases o with ⟨_ | _, m'⟩ <;> exact fun hm => h hm hm

/-- The law of the registry is known, so the other one remains, and it has to be shown from
coherent machines on only. -/
theorem registryLaw_of_trivial {L : Law} {x : Action α} {m : Machine}
    (hregistry : x.Ensures m ((registryLaw .trivial).Holds m))
    (h : m.Coherent → x.Ensures m (L.Holds m)) : x.Ensures m ((registryLaw L).Holds m) := by
  unfold Action.Ensures at *
  generalize x.outcome m = o at hregistry h ⊢
  rcases o with ⟨_ | _, m'⟩ <;> exact fun hm => ⟨(hregistry hm).1, h hm⟩

/-- From a coherent machine on, the other law holds. -/
theorem Law.Holds.of_registryLaw {L : Law} {m m' : Machine} {r : Option (Except Failure α)}
    (h : (registryLaw L).Holds m r m') (hm : m.Coherent) : L.Holds m r m' := by
  cases r <;> exact (h hm).2

/-- From a coherent machine on, the registry goes on. -/
theorem Law.Holds.continues {L : Law} {m m' : Machine} {r : Option (Except Failure α)}
    (h : (registryLaw L).Holds m r m') (hm : m.Coherent) : m.Continues m' := by
  cases r with
  | some r => exact (h hm).1.toContinues
  | none => exact (h hm).1

/-- The contract that every task obeys the law. -/
def registryContract : Contract :=
  .ofLaws fun _ _ => registryLaw .trivial

/-! ### Effects that leave the registry alone -/

/-- The effect neither changes the registry nor tells of it. -/
def Effect.KeepsRegistry : Effect → Prop
  | .note e => e.isRegistral = false
  | .draw | .register _ | .withdraw .. | .exchange _ => False
  | _ => True

namespace Effect

theorem IsClient.keepsRegistry {e : Effect} (h : e.IsClient) : e.KeepsRegistry := by
  cases e with
  | note e => cases e <;> simp_all [IsClient, Event.IsClient, KeepsRegistry, Event.isRegistral]
  | draw | register | withdraw | exchange => exact h
  | _ => trivial

theorem IsConstructing.keepsRegistry {e : Effect} (h : e.IsConstructing) : e.KeepsRegistry := by
  rcases h with h | h
  · exact h.keepsRegistry
  · cases e with
    | note e => cases e <;> simp_all [Event.IsConstructing, KeepsRegistry, Event.isRegistral]
    | draw | register | withdraw | exchange => exact h
    | _ => trivial

theorem IsCollecting.keepsRegistry {cls : ClassId} {className : String} {e : Effect}
    (h : e.IsCollecting cls className) : e.KeepsRegistry := by
  rcases h with h | ⟨name, rfl | rfl | rfl⟩
  · exact h.keepsRegistry
  all_goals rfl

theorem IsNoteOf.keepsRegistry {activity : Activity} {e : Effect} (h : e.IsNoteOf activity) :
    e.KeepsRegistry := by
  rcases h with rfl | rfl | rfl <;> rfl

theorem KeepsRegistry.registry_apply {e : Effect} (h : e.KeepsRegistry) (m : Machine) :
    (e.apply m).registry = m.registry := by
  cases e with
  | draw | register | withdraw | exchange => exact h.elim
  | define => exact registry_apply_define ..
  | _ => rfl

theorem KeepsRegistry.chronicle_apply {e : Effect} (h : e.KeepsRegistry) (m : Machine) :
    (e.apply m).chronicle = m.chronicle := by
  cases e with
  | note e => exact List.filter_cons_of_neg (by simpa [KeepsRegistry] using h)
  | draw | register | withdraw | exchange => exact h.elim
  | define => rw [Machine.chronicle, trace_apply_define, Machine.chronicle]
  | relink id =>
    exact List.filter_cons_of_neg (p := Event.isRegistral) (a := .relinked id) Bool.false_ne_true
  | _ => rfl

end Effect

/-- An effect that leaves the registry alone obeys the law if it obeys the other one. -/
theorem registryLaw_allows {L : Law} {e : Effect} (h : e.KeepsRegistry) (hL : L.Allows e) :
    (registryLaw L).Allows e :=
  fun m hm => ⟨.of_eq hm (h.registry_apply m) (h.chronicle_apply m), hL m⟩

theorem registryLaw_note {L : Law} {e : Event} (h : e.isRegistral = false)
    (hL : L.Allows (.note e)) : (registryLaw L).Allows (.note e) :=
  registryLaw_allows h hL

/-! ### Definitions -/

/-- The class is fit for registration: its number is drawn, not in use and greater than
those of the classes under way, and its parent is there. -/
structure Machine.Fresh (m : Machine) (c : Class) : Prop where
  drawn : c.id ≤ m.registry.lastId
  new : ¬ Registered m.chronicle c.id
  youngest : ∀ id, Running m.chronicle id → id < c.id
  kind : c.kind = .ofParent c.parent
  parent : ∀ p ∈ c.parent, p < c.id ∧ (m.registry.class? p).isSome

/-- A class with a number that was drawn and not registered since, under a parent that
was there before. -/
theorem ClassDefinition.toClass_fresh (d : ClassDefinition) {m m' : Machine} (hm : m.Coherent)
    (h : m.Settles m') {id : ClassId} (hid : m.registry.lastId < id)
    (hdrawn : id ≤ m'.registry.lastId) (hnew : ¬ Registered m'.chronicle id)
    {parent : Option Class} (hparent : ∀ c ∈ parent, ∃ p, m.registry.class? p = some c)
    (homes : Homes) (fields : List DeclaredField) :
    m'.Fresh (d.toClass id parent homes fields) := by
  refine ⟨hdrawn, hnew, fun x hx => ?_, rfl, fun p hp => ?_⟩
  · exact Nat.lt_of_le_of_lt (hm.follows.registered_le (h.quiet x hx).1) hid
  obtain ⟨c, hc, rfl⟩ := Option.map_eq_some_iff.mp hp
  obtain ⟨p, hp⟩ := hparent c hc
  have hle := hm.follows.registered_le (hm.follows.registered_of_class? hp)
  obtain rfl := hm.follows.class?_id hp
  exact ⟨Nat.lt_of_le_of_lt hle hid, by rw [h.later.isSome_class? hm h.coherent hle, hp]; rfl⟩

/-- Taking back the registration of a class, when nothing but new classes was told of
since: it has to be the youngest one under way. -/
theorem Machine.Coherent.withdraw {m m₂ : Machine} (hm : m.Coherent) (hm₂ : m₂.Coherent)
    {c : Class} (hc : m.Fresh c) {H₁ : Chronicle}
    (hH : m₂.chronicle = H₁ ++ .registered c :: m.chronicle)
    (hnew : ∀ e ∈ H₁, ∀ id ∈ e.subject?, m.registry.lastId < id)
    (hrunning : Running m₂.chronicle c.id)
    (hyoungest : ∀ id, Running m₂.chronicle id → id ≤ c.id) :
    ((Effect.note (.withdrawn c.id (m₂.registry.hasSubclass c.id))).apply
      ((Effect.withdraw c.id (m.registry.register c).1).apply m₂)).Coherent := by
  have hpresent := hm₂.follows.present c.id hrunning.1 hrunning.2.2
  refine ⟨hm₂.follows.withdraw hrunning hyoungest _,
    hm₂.names.withdraw _ hH ?_ ?_ hrunning.2.2 ?_ ?_⟩
  · obtain ⟨c', hc'⟩ := Option.isSome_iff_exists.mp hpresent
    obtain ⟨c₀, hc₀, hid, rfl⟩ := hm₂.follows.known c.id c' hc'
    obtain rfl := hm₂.follows.registered_unique hc₀ (by simp [hH]) hid
    simp [hc']
  · rintro c' (hc' | hc') hid
    · -- what was registered since has a younger number
      exact Nat.not_lt_of_le hc.drawn (hid ▸ hnew _ hc' _ rfl)
    · exact hc.new ⟨c', hc', hid⟩
  · rintro c' hc' ⟨kept, hw⟩
    exact Nat.not_lt_of_le (hm.follows.drawn c' hc') (hnew _ hw _ rfl)
  · intro name hname
    simpa [Registry.register, hname] using hm.names name

/-- The class is registered, and its definition under way: apart from it there are only
new classes, of which none is under way any more. -/
structure Machine.Launched (m : Machine) (c : Class) (m' : Machine) : Prop where
  coherent : m'.Coherent
  lastId : m.registry.lastId ≤ m'.registry.lastId
  adds : Adds (fun id => id = c.id ∨ m.registry.lastId < id) m.chronicle m'.chronicle
  running : Running m'.chronicle c.id
  others : ∀ id, Running m'.chronicle id → id = c.id ∨ Running m.chronicle id

/-- Registering a class that is fit for it. -/
theorem Machine.Fresh.launched {m : Machine} (hm : m.Coherent) {c : Class} (hc : m.Fresh c) :
    m.Launched c (m.launched c) := by
  have hw : ¬ Withdrawn m.chronicle c.id := fun h => hc.new (hm.follows.withdrawn _ h)
  have hcompleted : ¬ Completed m.chronicle c.id := fun h => hc.new (hm.follows.completed _ h).1
  refine ⟨⟨hm.follows.register hc.drawn hc.new hc.kind hc.parent, hm.names.register hw⟩,
    Nat.le_of_eq (Registry.lastId_register ..).symm,
    .cons fun id hid => .inl (Option.some.inj hid).symm, ?_, fun id hid => ?_⟩
  · change Running (.registered c :: m.chronicle) c.id
    simpa [Running] using ⟨hcompleted, hw⟩
  · have hid : Running (.registered c :: m.chronicle) id := hid
    by_cases hne : c.id = id
    · exact .inl hne.symm
    · exact .inr (by simpa [Running, hne] using hid)

namespace Machine.Launched

variable {m m₁ m₂ : Machine} {c : Class}

theorem adds_later (h : m.Launched c m₁) (hlater : m₁.Later m₂) :
    Adds (fun id => id = c.id ∨ m.registry.lastId < id) m.chronicle m₂.chronicle :=
  h.adds.trans (hlater.adds.mono fun _ hid => .inr (Nat.lt_of_le_of_lt h.lastId hid))

/-- What runs during the definition leaves it under way. -/
theorem trans (h : m.Launched c m₁) (hdrawn : c.id ≤ m.registry.lastId) (hm₂ : m₁.Settles m₂) :
    m.Launched c m₂ where
  coherent := hm₂.coherent
  lastId := Nat.le_trans h.lastId hm₂.later.lastId
  adds := h.adds_later hm₂.later
  running :=
    (hm₂.later.adds.running_iff (Nat.not_lt_of_le (Nat.le_trans hdrawn h.lastId))).mpr h.running
  others id hid := h.others id (hm₂.quiet id hid)

/-- Once the definition has ended, no class is under way that was not before. -/
theorem quiet (h : m.Launched c m₁) {e : Event} (he : e.class? = none)
    (hend : ¬ Running (e :: m₁.chronicle) c.id) (id : ClassId)
    (hid : Running (e :: m₁.chronicle) id) : Running m.chronicle id := by
  refine (h.others id (hid.of_cons he)).resolve_left ?_
  rintro rfl
  exact hend hid

end Machine.Launched

section Definition

variable {L : Law} {perform : Performer} (hL : ∀ e : Effect, e.IsDefining → L.Allows e)
  (hp : ∀ e ctx, (perform (.eval e ctx)).Obeys (registryLaw L))

include hL hp

omit hp in
theorem client_allowed {e : Effect} (h : e.IsClient) : (registryLaw L).Allows e :=
  registryLaw_allows h.keepsRegistry (hL e (.inl h))

omit hp in
/-- Drawing a number. -/
theorem draw_registryLaw (m : Machine) : (registryLaw L).ended m
    ((Effect.note (.numbered (m.registry.lastId + 1))).apply (Effect.draw.apply m)) := by
  intro hm
  have hadds : Adds (m.registry.lastId < ·) m.chronicle
      (.numbered (m.registry.lastId + 1) :: m.chronicle) := .cons fun id hid => by
    obtain rfl := Option.some.inj hid
    exact Nat.lt_succ_self _
  exact ⟨⟨⟨⟨hm.follows.number, hm.names.number⟩, Nat.le_succ _, hadds⟩, fun _ hid =>
    hid.of_cons rfl⟩, L.trans (hL _ (.inr trivial) _) (hL _ (.inr trivial) _)⟩

omit hp in
theorem makeHomes_registryLaw (id : ClassId) (name : Option String) (parent : Option Class) :
    (makeHomes id name parent).Obeys (registryLaw L) :=
  (makeHomes_madeOf id name parent (fun _ => client_allowed hL) fun _ =>
    registryLaw_allows trivial (hL _ (.inr trivial))).obeys_alone fun _ h => h

theorem collectFields_registryLaw (id : ClassId) (className : String) (homes : Homes)
    (elements : List ClassElement) :
    (collectFields perform id className homes elements).Obeys (registryLaw L) :=
  (collectFields_madeOf id className homes elements).obeys_evaluations
    (fun e he => registryLaw_allows he.keepsRegistry (hL e he.isDefining)) hp

theorem staticFields_registryLaw (c : Class) :
    (installFields perform (.staticField c.id c.displayName c.classObject)
      c.classObject c.staticFields).Obeys (registryLaw L) :=
  installFields_obeys
    (fun _ e h =>
      registryLaw_allows h.isFraming.isConstructing.keepsRegistry (hL e h.isDefining))
    (fun _ e h => registryLaw_allows h.keepsRegistry (hL e (h.isDefining id))) hp c.staticFields

omit hp in
/-- The number is drawn and the two objects are made. -/
theorem prepared_registryLaw (m : Machine) (d : ClassDefinition) (parent : Option Class) :
    (registryLaw L).ended m (m.prepared d parent) := by
  have hdefining : (registryLaw L).ended m ((Effect.note (.defining d.displayName)).apply m) :=
    registryLaw_note rfl (hL (.note (.defining _)) (.inr trivial)) m
  have hhomes := makeHomes_registryLaw hL m.nextClass d.name parent (m.numbered d.displayName)
  rw [Action.Ensures, Machine.outcome_makeHomes] at hhomes
  exact (registryLaw L).trans hdefining ((registryLaw L).trans (draw_registryLaw hL _) hhomes)

/-- A definition that can go on to the registration has a class that is fit for it. -/
theorem prepareClass_fresh (d : ClassDefinition) {m : Machine} (hm : m.Coherent) :
    (prepareClass perform d).Ensures m fun r m' => (registryLaw L).Holds m r m' ∧
      ∀ c, r = some (.ok c) → m.registry.lastId < c.id ∧ m'.Fresh c := by
  refine prepareClass_ensures (fun f hf => ⟨?_, by simp⟩) fun parent hd => ?_
  · exact (registryLaw L).trans
      (registryLaw_note rfl (hL (.note (.defining d.displayName)) (.inr trivial)) m)
      (registryLaw_note rfl (hL (.note (.raised f)) (.inl hf.not_lost)) _)
  · have hprepared := prepared_registryLaw hL m d parent
    refine (collectFields_registryLaw hL hp m.nextClass d.displayName m.homes d.elements
      (m.prepared d parent)).mono fun r m' hcollect => ?_
    have hlaw := hcollect.of_ended hprepared
    refine ⟨Law.holds_map.mpr hlaw, fun c hc => ?_⟩
    obtain ⟨fields, rfl, rfl⟩ := eq_ok_of_map hc
    -- the number is older than everything that was registered meanwhile
    have hlater : (m.prepared d parent).Later m' := (hcollect (hprepared hm).1.coherent).1.later
    have hnew : ¬ Registered m'.chronicle m.nextClass := by
      intro hr
      have hr : Registered (.numbered m.nextClass :: m.chronicle) m.nextClass :=
        (hlater.adds.registered_iff (Nat.lt_irrefl m.nextClass)).mp hr
      have hr : Registered m.chronicle m.nextClass := by simpa using hr
      exact Nat.not_succ_le_self _ (hm.follows.registered_le hr)
    exact ⟨Nat.lt_succ_self _, d.toClass_fresh hm (hlaw hm).1 (Nat.lt_succ_self _) hlater.lastId
      hnew (fun c => d.parent?_eq_ok hd.2) m.homes fields⟩

/-- What is known of a class that was fit for registration once its definition has
ended or was broken off: the machine is coherent, tells of this class and of new ones
only, and the class is not under way in the end. -/
theorem launchClass_registered {m : Machine} (hm : m.Coherent) {c : Class} (hc : m.Fresh c) :
    (launchClass perform c).Ensures m fun r m' => m'.Coherent ∧
      m.registry.lastId ≤ m'.registry.lastId ∧
      Adds (fun id => id = c.id ∨ m.registry.lastId < id) m.chronicle m'.chronicle ∧
      (r.isSome → ∀ id, Running m'.chronicle id → Running m.chronicle id) ∧ L.Holds m r m' := by
  have launched₁ : m.Launched c (m.launched c) := hc.launched hm
  have hL₁ : L.ended m (m.launched c) := L.trans (hL _ (.inr trivial) _) (hL _ (.inr trivial) _)
  -- what is told at the end is of the class itself
  have adds {m₂ : Machine} (h : m.Launched c m₂) {e : Event} (he : e.subject? = some c.id) :
      Adds (fun id => id = c.id ∨ m.registry.lastId < id) m.chronicle (e :: m₂.chronicle) :=
    h.adds.trans (.cons fun id hid => .inl (Option.some.inj (hid.symm.trans he)))
  refine launchClass_ensures (staticFields_registryLaw hL hp c (m.launched c))
    (fun m₂ h₂ => ?_) (fun e m₂ h₂ => ?_) fun m₂ h₂ => ?_
  · obtain ⟨hsettles, hL₂⟩ := h₂ launched₁.coherent
    have launched₂ : m.Launched c m₂ := launched₁.trans hc.drawn hsettles
    have hm₂ := launched₂.coherent
    exact ⟨⟨hm₂.follows.complete launched₂.running, hm₂.names.complete _⟩, launched₂.lastId,
      adds launched₂ rfl, fun _ => launched₂.quiet rfl fun h => h.2.1 (by simp),
      L.trans (L.trans hL₁ hL₂) (hL (.note (.completed c.id)) (.inr trivial) m₂)⟩
  · obtain ⟨hsettles, hL₂⟩ := h₂ launched₁.coherent
    have launched₂ : m.Launched c m₂ := launched₁.trans hc.drawn hsettles
    -- nothing under way is younger, so the registration can be taken back
    obtain ⟨H₁, hH, hnew⟩ := hsettles.later.adds
    have hle (id : ClassId) (hid : Running m₂.chronicle id) : id ≤ c.id :=
      (launched₂.others id hid).elim Nat.le_of_eq fun h => Nat.le_of_lt (hc.youngest id h)
    have hm₃ := hm.withdraw launched₂.coherent hc hH
      (fun e he id hid => Nat.lt_of_le_of_lt launched₁.lastId (hnew e he id hid))
      launched₂.running hle
    exact ⟨hm₃, launched₂.lastId, adds launched₂ rfl,
      fun _ => launched₂.quiet rfl fun h => h.2.2 (by simp),
      L.trans (L.trans hL₁ hL₂) (L.trans (hL (.withdraw c.id _) (.inr trivial) m₂)
        (hL (.note (.withdrawn c.id _)) (.inr trivial) _))⟩
  · obtain ⟨hcontinues, hL₂⟩ := h₂ launched₁.coherent
    exact ⟨hcontinues.coherent, Nat.le_trans launched₁.lastId hcontinues.later.lastId,
      launched₁.adds_later hcontinues.later, by simp, L.trans_broken hL₁ hL₂⟩

theorem defineClass_registryLaw (d : ClassDefinition) :
    (defineClass perform d).Obeys (registryLaw L) := by
  refine fun m => registryLaw_ensures fun hm => (prepareClass_fresh hL hp d hm).bind
    (fun c m₁ _ h₁ => ?_) (fun _ _ h => h.1) fun _ h => h.1
  obtain ⟨hsettles, hL₁⟩ := h₁.1 hm
  obtain ⟨hid, hc⟩ := h₁.2 c rfl
  refine (launchClass_registered hL hp hsettles.coherent hc).mono fun r m₂ h₂ => ?_
  obtain ⟨hm₂, hlast, hadds, hquiet, hL₂⟩ := h₂
  have hnew : Adds (m.registry.lastId < ·) m₁.chronicle m₂.chronicle := hadds.mono fun id h =>
    h.elim (fun h => h ▸ hid) (Nat.lt_of_le_of_lt hsettles.later.lastId)
  have hcontinues : m.Continues m₂ :=
    ⟨hm₂, Nat.le_trans hsettles.later.lastId hlast, hsettles.later.adds.trans hnew⟩
  cases r with
  | none => exact fun _ => ⟨hcontinues, L.trans_broken hL₁ hL₂⟩
  | some r =>
    exact fun _ => ⟨⟨hcontinues, fun id h => hsettles.quiet id (hquiet rfl id h)⟩, L.trans hL₁ hL₂⟩

end Definition

/-- A number is drawn from a coherent registry. -/
theorem Machine.Coherent.prepared {m : Machine} (hm : m.Coherent) (d : ClassDefinition)
    (parent : Option Class) : (m.prepared d parent).Coherent :=
  (prepared_registryLaw (L := .trivial) (fun _ _ _ => trivial) m d parent hm).1.coherent

/-- Exchanging initializers does not touch what classes there are. -/
theorem replaceInitializer_registryLaw {L : Law} (hL : ∀ e : Effect, e.IsReplacing → L.Allows e)
    (id : ClassId) (field : String) (initializer : Option Expr) :
    (replaceInitializer id field initializer).Obeys (registryLaw L) := by
  intro m
  let m₁ : Machine := (Effect.note (.replacing field id)).apply m
  have h₁ : (registryLaw L).ended m m₁ :=
    registryLaw_note rfl (hL (.note (.replacing ..)) (.inr trivial)) m
  have refused {f : Fault} (hf : f ≠ .frameLost) :
      (registryLaw L).ended m ((Effect.note (.raised f)).apply m₁) :=
    (registryLaw L).trans h₁ (registryLaw_note rfl (hL (.note (.raised f)) (.inl hf)) m₁)
  refine .bind_ok (n := m₁) rfl (.bind_ok (a := m₁) (n := m₁) rfl ?_)
  rcases hc : m₁.registry.requireForChange id with f | c
  · have hf : f ≠ .frameLost := by simp [Registry.requireForChange_eq_error hc]
    exact .bind_error (n := (Effect.note (.raised f)).apply m₁) rfl (refused hf)
  refine .bind_ok (a := c) (n := m₁) rfl ?_
  rcases hc' : c.replaceInitializer field initializer with f | c'
  · have hf : f ≠ .frameLost := by simp [Class.replaceInitializer_eq_error hc']
    exact .bind_error (n := (Effect.note (.raised f)).apply m₁) rfl (refused hf)
  have hc := Registry.requireForChange_eq_ok hc
  refine (registryLaw L).trans h₁ fun hm₁ => ?_
  exact ⟨⟨⟨⟨hm₁.follows.replace hc hc', hm₁.names.replace c' id field initializer⟩,
    Nat.le_refl _, .cons (by simp [Event.subject?])⟩, fun id hid => hid.of_cons rfl⟩,
    L.trans (hL (.exchange c') (.inr trivial) m₁)
      (hL (.note (.replaced id field initializer)) (.inr trivial) _)⟩

/-! ### All calls, all tasks -/

section Tasks

variable {L : Law} {perform : Performer} (hkeeps : ∀ e : Effect, e.KeepsRegistry → L.Allows e)
  (hp : ∀ ⦃β : Type⦄ (task : Task β), (perform task).Obeys (registryLaw L))

include hkeeps hp

/-- What is made of effects that leave the registry alone obeys the law. -/
theorem MadeOf.registryLaw {F : Performer → Action α}
    (hF : MadeOf Effect.KeepsRegistry .Constructions F) :
    (F perform).Obeys (ClassMachine.registryLaw L) :=
  hF.obeys_tasks (fun e h => registryLaw_allows h (hkeeps e h)) hp

variable (hreplacing : ∀ e : Effect, e.IsReplacing → L.Allows e)
  (hdefine : ∀ d, (defineClass perform d).Obeys (registryLaw L))

include hreplacing hdefine

/-- Of all calls, only definitions have to be looked at. -/
theorem call_obeys_registryLaw (settings : Settings) (c : Call α) :
    (c.run settings perform).Obeys (ClassMachine.registryLaw L) :=
  call_obeys_of_operations
    (fun e he => registryLaw_allows he.keepsRegistry (hkeeps e he.keepsRegistry)) hp
    (replaceInitializer_registryLaw hreplacing) hdefine settings c

theorem step_obeys_registryLaw (settings : Settings) (task : Task α) :
    (step settings perform task).Obeys (ClassMachine.registryLaw L) :=
  step_obeys_of_operations
    (fun e he => registryLaw_allows he.keepsRegistry (hkeeps e he.keepsRegistry)) hp
    (replaceInitializer_registryLaw hreplacing) hdefine settings task

end Tasks

section Calls

variable {perform : Performer} (hp : perform.Keeps registryContract)

include hp

theorem call_registryLaw (settings : Settings) (c : Call α) :
    (c.run settings perform).Obeys (ClassMachine.registryLaw .trivial) :=
  call_obeys_registryLaw (fun _ _ _ => trivial) hp (fun _ _ _ => trivial)
    (defineClass_registryLaw (fun _ _ _ => trivial) fun e ctx => hp (.eval e ctx)) settings c

/-- **Each level passes the contract on.** -/
theorem step_keeps_registry (settings : Settings) :
    (step settings perform).Keeps registryContract := fun _ =>
  step_obeys_registryLaw (fun _ _ _ => trivial) hp (fun _ _ _ => trivial)
    (defineClass_registryLaw (fun _ _ _ => trivial) fun e ctx => hp (.eval e ctx)) settings

end Calls

/-! ### The registry at all moments -/

theorem Machine.initial_coherent : Machine.initial.Coherent where
  follows := by
    constructor <;>
      simp [Machine.initial, Machine.chronicle, chronicleOf, Registered, Completed, Withdrawn,
        Registry.class?]
  names name := by
    simp [Machine.initial, Machine.chronicle, chronicleOf, Registry.classId?, holder?, newest?]

/-- **The registry is coherent at all moments**, and no class is under way between the
steps of a program. -/
theorem registry_coherent (settings : Settings) :
    (∀ m, AtRest settings m → m.Coherent ∧ ∀ id, ¬ Running m.chronicle id) ∧
      ∀ m, Reachable settings m → m.Coherent := by
  refine Contract.moments _ _ (fun _ hp => step_keeps_registry hp settings)
    ⟨Machine.initial_coherent,
      by simp [Machine.initial, Machine.chronicle, chronicleOf, Running, Registered]⟩
    (fun m h => ⟨⟨h.1.follows, h.1.names⟩, h.2⟩) (fun e m r m' hm h => ?_)
    (fun e m m' hm h => (h hm.1).1.coherent) fun e m he hm =>
      (registryLaw_allows (L := .trivial) he.keepsRegistry (fun _ => trivial) m hm).1.coherent
  obtain ⟨hsettles, -⟩ := h hm.1
  exact ⟨hsettles.coherent, fun id hid => hm.2 id (hsettles.quiet id hid)⟩

/-- What holds of the registry at every moment. -/
structure Machine.RegistryInOrder (m : Machine) : Prop where
  /-- The classes that are there are those that were registered and of which the
  definition is under way, has succeeded, or has failed while a subclass was there. -/
  contains_iff : ∀ id, m.registry.contains id ↔ Registered m.chronicle id ∧
    (Running m.chronicle id ∨ Completed m.chronicle id ∨ .withdrawn id true ∈ m.chronicle)
  /-- Whether a subclass was there when the definition failed does not change later. -/
  kept_iff : ∀ id kept, .withdrawn id kept ∈ m.chronicle →
    (kept = true ↔ m.registry.hasSubclass id)
  /-- A class is found under its own number, is derived exactly if it has a parent, and the
  parent is there and older. -/
  parent : ∀ id c, m.registry.class? id = some c → c.id = id ∧
    (c.kind = .derived ↔ c.parent.isSome) ∧ ∀ p ∈ c.parent, p < id ∧ m.registry.contains p
  /-- Every chain of parents ends with a base class. -/
  lineage : ∀ id, m.registry.contains id →
    ∃ ids, Lineage m.registry.HasParent ids id ∧ ids.Pairwise (· < ·)
  /-- The numbers that were drawn are those up to the last one, each drawn once. -/
  numbers : m.chronicle.filterMap Event.number? = (List.range' 1 m.registry.lastId).reverse
  /-- Only drawn numbers are registered, each of them once. -/
  registered : (∀ id, Registered m.chronicle id → id ≤ m.registry.lastId) ∧
    ((m.chronicle.filterMap Event.class?).map Class.id).Nodup

theorem Machine.Coherent.inOrder {m : Machine} (hm : m.Coherent) : m.RegistryInOrder where
  contains_iff _ := hm.follows.contains_iff
  kept_iff _ _ := hm.follows.kept_iff
  parent id c hc := by
    refine ⟨hm.follows.class?_id hc, ?_, fun p hp => ⟨hm.follows.parent_lt hc hp, ?_⟩⟩
    · rw [hm.follows.class?_kind hc]
      cases c.parent <;> simp [ConstructorKind.ofParent]
    · rw [Registry.contains_eq_isSome]
      exact hm.follows.parent id c p hc hp
  lineage id hid := by
    rw [Registry.contains_eq_isSome] at hid
    obtain ⟨ids, hids⟩ := hm.follows.exists_lineage hid
    refine ⟨ids, hids, (hids.pairwise ?_).1⟩
    rintro id p ⟨c, hc, hp⟩
    exact hm.follows.parent_lt hc hp
  numbers := hm.follows.numbers
  registered := ⟨fun _ => hm.follows.registered_le, hm.follows.nodup⟩

/-- **Membership in the registry.** At every moment of a program the classes that are
there are those that were registered and of which the definition is under way, has
succeeded, or has failed while a subclass was there; parents are there and older, so all
chains of parents end; and no number is used twice. Between the steps of a program, no
definition is under way. -/
theorem registry_membership (settings : Settings) :
    (∀ m, Reachable settings m → m.RegistryInOrder) ∧
      ∀ m, AtRest settings m → m.RegistryInOrder ∧ ∀ id, ¬ Running m.chronicle id := by
  obtain ⟨hrest, hmoment⟩ := registry_coherent settings
  exact ⟨fun m hm => (hmoment m hm).inOrder, fun m hm => ⟨(hrest m hm).1.inOrder, (hrest m hm).2⟩⟩

/-- Static fields with which the definition of a class fails after another one, called `N`
and derived from it, has been defined inside: `static inner = class N extends this {}`, and
a field without a value. -/
def brokenFields : List (FieldName × Expr) :=
  [(.literal "inner", .classDefinition
      { name := some (.literal (.str "N")), heritage := some (.primitive .receiver []),
        constructor := none, elements := [] }),
    (.literal "broken", .malformed .form)]

/-- The definition of a class `N` with these fields. -/
def brokenClass : ClassDefinition where
  name := some "N"
  heritage := none
  constructor := none
  elements := brokenFields.map fun (name, e) => .field name true (some e)

/-- The same definition as an expression. -/
def brokenExpr : Expr :=
  .classDefinition
    { name := some (.literal (.str "N")), heritage := none, constructor := none,
      elements := brokenFields.map fun (name, e) => .field name true (some e) }

/-- A class of which the definition fails is there while it is under way, and afterwards if
another one is derived from it. -/
theorem registry_membership_of_brokenClass :
    (∃ m, (Reachable {} m ∧ m.registry.contains 1) ∧ m.RegistryInOrder) ∧
      ∃ m, (AtRest {} m ∧ Withdrawn m.chronicle 1 ∧ m.registry.contains 1) ∧
        m.RegistryInOrder ∧ ∀ id, ¬ Running m.chronicle id := by
  obtain ⟨hreachable, hrest⟩ := registry_membership {}
  constructor
  · let stop (m : Machine) : Bool := m.registry.contains 1
    let m := ((interpretUntil {} stop 9 (.eval brokenExpr {})).outcome
      { Machine.initial with log := [] }).2
    have hm : Reachable {} m := AtRest.initial.reachable brokenExpr stop 9
    exact ⟨m, ⟨hm, by decide +kernel⟩, hreachable m hm⟩
  · have hrun : ((runStep {} 9 brokenExpr .initial).any fun p =>
        decide (Withdrawn p.2.chronicle 1) && p.2.registry.contains 1) = true := by decide +kernel
    obtain ⟨⟨report, m⟩, hm, h⟩ := (Option.any_eq_true ..).mp hrun
    rw [Bool.and_eq_true, decide_eq_true_eq] at h
    have hm : AtRest {} m := .step .initial hm
    exact ⟨m, ⟨hm, h⟩, hrest m hm⟩

/-! ### Names -/

/-- **The names after an action**: a name belongs to the class of this name that was
completed last meanwhile, or else to the class that it belonged to before. -/
theorem Machine.Coherent.names_after {m m' : Machine} (hm : m.Coherent) (hm' : m'.Coherent)
    {new : Chronicle} (hnew : m'.chronicle = new ++ m.chronicle)
    (hold : ∀ c, .registered c ∈ m.chronicle → ¬ Withdrawn new c.id)
    (hrun : ∀ id, Running m'.chronicle id → Running m.chronicle id) (name : String) :
    m'.registry.classId? name =
      (newest? (Completed new) new name).or (m.registry.classId? name) := by
  rw [hm'.names, hm.names, hnew, holder?_append hold]
  congr 1
  -- of the classes that are new, those count whose definition has not failed; none of them
  -- is under way any more, so these are the completed ones
  refine newest?_congr fun c hc => ?_
  rw [← hnew]
  have hregistered : Registered m'.chronicle c.id := ⟨c, by simp [hnew, hc], rfl⟩
  have hunknown : ¬ Registered m.chronicle c.id := by
    rintro ⟨c', hc', hid⟩
    exact Registry.Follows.id_ne_of_append (hnew ▸ hm'.follows) hc hc' hid.symm
  -- its definition cannot have been completed before it was registered
  have hcompleted : Completed m'.chronicle c.id ↔ Completed new c.id := by
    have := mt (hm.follows.completed c.id) fun h => hunknown h.1
    simp_all [Completed]
  rw [← hcompleted]
  constructor
  · intro hw
    by_contra h
    exact hunknown (hrun c.id ⟨hregistered, h, hw⟩).1
  · exact fun h => (hm'.follows.completed c.id h).2

/-- A name leads to a class that is there and is called so. -/
theorem Machine.Coherent.class?_of_classId? {m : Machine} (hm : m.Coherent) {name : String}
    {id : ClassId} (h : m.registry.classId? name = some id) :
    ∃ c, m.registry.class? id = some c ∧ c.name = some name := by
  rw [hm.names] at h
  obtain ⟨c, hc, hname, rfl, hw⟩ := newest?_eq_some h
  obtain ⟨c', hc'⟩ := Option.isSome_iff_exists.mp (hm.follows.present c.id ⟨c, hc, rfl⟩ hw)
  obtain ⟨c₀, hc₀, hid, rfl⟩ := hm.follows.known c.id c' hc'
  obtain rfl := hm.follows.registered_unique hc₀ hc hid
  exact ⟨_, hc', hname⟩

/-- **The law of names.** At every moment a name belongs to the class that was registered
under it last, classes aside of which the definition has failed; so it leads to a class
that is there and is called so. A definition that fails leaves each name with the class of
this name of which the definition has succeeded last meanwhile, and if there is none, with
the class that had it before – before the definition began as well as before its class
was registered. -/
theorem name_law (settings : Settings) :
    (∀ m, AtRest settings m ∨ Reachable settings m → ∀ name,
      m.registry.classId? name = holder? m.chronicle name ∧
      ∀ id, m.registry.classId? name = some id →
        ∃ c, m.registry.class? id = some c ∧ c.name = some name) ∧
    ∀ m, AtRest settings m ∨ Reachable settings m → ∀ levels d,
      (∀ e m', (defineClass (interpret settings levels) d).outcome m = (some (.error e), m') →
        ∃ new, m'.chronicle = new ++ m.chronicle ∧ ∀ name, m'.registry.classId? name =
          (newest? (Completed new) new name).or (m.registry.classId? name)) ∧
      ∀ c m₁ e m', (prepareClass (interpret settings levels) d).outcome m = (some (.ok c), m₁) →
        (launchClass (interpret settings levels) c).outcome m₁ = (some (.error e), m') →
        ∃ new, m'.chronicle = new ++ m₁.chronicle ∧ ∀ name, m'.registry.classId? name =
          (newest? (Completed new) new name).or (m₁.registry.classId? name) := by
  have hcoherent {m : Machine} (hm : AtRest settings m ∨ Reachable settings m) : m.Coherent :=
    hm.elim (fun hm => ((registry_coherent settings).1 m hm).1) ((registry_coherent settings).2 m)
  refine ⟨fun m hm name => ⟨(hcoherent hm).names name, fun _ => (hcoherent hm).class?_of_classId?⟩,
    fun m hm levels d => ?_⟩
  · have hm := hcoherent hm
    have heval (e : Expr) (ctx : Context) :
        (interpret settings levels (.eval e ctx)).Obeys (registryLaw .trivial) :=
      interpret_keeps (fun _ hp => step_keeps_registry hp settings) levels (.eval e ctx)
    constructor
    · intro e m' h
      have hlaw := defineClass_registryLaw (fun _ _ _ => trivial) heval d m
      rw [Action.Ensures, h] at hlaw
      obtain ⟨hsettles, -⟩ := hlaw hm
      obtain ⟨new, hnew, hsubject⟩ := hsettles.later.adds
      refine ⟨new, hnew, hm.names_after hsettles.coherent hnew ?_ hsettles.quiet⟩
      rintro c hc ⟨kept, hw⟩
      exact Nat.not_lt_of_le (hm.follows.drawn c hc) (hsubject _ hw _ rfl)
    · intro c m₁ e m' h h'
      have hprepare := prepareClass_fresh (L := .trivial) (fun _ _ _ => trivial) heval d hm
      rw [Action.Ensures, h] at hprepare
      have hm₁ := (hprepare.1 hm).1.coherent
      obtain ⟨-, hc⟩ := hprepare.2 c rfl
      have hlaunch := launchClass_registered (L := .trivial) (fun _ _ _ => trivial) heval hm₁ hc
      rw [Action.Ensures, h'] at hlaunch
      obtain ⟨hm', -, ⟨new, hnew, hsubject⟩, hrun, -⟩ := hlaunch
      refine ⟨new, hnew, hm₁.names_after hm' hnew ?_ (hrun rfl)⟩
      rintro c' hc' ⟨kept, hw⟩
      rcases hsubject _ hw _ rfl with hid | hid
      · exact hc.new ⟨c', hc', hid⟩
      · exact Nat.not_lt_of_le (hm₁.follows.drawn c' hc') hid

/-- The name of a class of which the definition has failed belongs to the one inside. -/
theorem name_law_of_brokenClass :
    (∃ m, (AtRest {} m ∧ m.registry.classId? "N" = some 2) ∧
      ∃ c, m.registry.class? 2 = some c ∧ c.name = some "N") ∧
    ∃ c m₁ e m', ((prepareClass (interpret {} 9) brokenClass).outcome .initial =
        (some (.ok c), m₁) ∧
      (launchClass (interpret {} 9) c).outcome m₁ = (some (.error e), m') ∧
      (defineClass (interpret {} 9) brokenClass).outcome .initial = (some (.error e), m')) ∧
      (∃ new, m'.chronicle = new ++ m₁.chronicle ∧ m'.registry.classId? "N" =
        (newest? (Completed new) new "N").or (m₁.registry.classId? "N")) ∧
      ∃ new, m'.chronicle = new ++ Machine.initial.chronicle ∧ m'.registry.classId? "N" =
        (newest? (Completed new) new "N").or (Machine.initial.registry.classId? "N") := by
  obtain ⟨hnames, hfailing⟩ := name_law {}
  constructor
  · have hrun : ((runStep {} 9 brokenExpr .initial).any fun p =>
        p.2.registry.classId? "N" == some 2) = true := by decide +kernel
    obtain ⟨⟨report, m⟩, hm, h⟩ := (Option.any_eq_true ..).mp hrun
    have hm : AtRest {} m := .step .initial hm
    have hname : m.registry.classId? "N" = some 2 := beq_iff_eq.mp h
    exact ⟨m, ⟨hm, hname⟩, (hnames m (.inl hm) "N").2 2 hname⟩
  · obtain ⟨hdefine, hlaunch⟩ := hfailing .initial (.inl .initial) 9 brokenClass
    have hends : (((prepareClass (interpret {} 9) brokenClass).outcome .initial).1.any
      fun r => r.toOption.isSome) = true := by decide +kernel
    have hfails : (((defineClass (interpret {} 9) brokenClass).outcome .initial).1.any
      fun r => r.toOption.isNone) = true := by decide +kernel
    rcases hp : (prepareClass (interpret {} 9) brokenClass).outcome .initial with ⟨_ | e | c, m₁⟩
    · simp [hp] at hends
    · simp [hp, Except.toOption] at hends
    have hd : (defineClass (interpret {} 9) brokenClass).outcome .initial =
        (launchClass (interpret {} 9) c).outcome m₁ := by
      rw [defineClass, outcome_bind, hp]
    rcases hl : (launchClass (interpret {} 9) c).outcome m₁ with ⟨_ | e | id, m'⟩
    · simp [hd, hl] at hfails
    · rw [hl] at hd
      obtain ⟨new, hnew, hname⟩ := hdefine e m' hd
      obtain ⟨new₁, hnew₁, hname₁⟩ := hlaunch c m₁ e m' hp hl
      exact ⟨c, m₁, e, m', ⟨rfl, hl, hd⟩, ⟨new₁, hnew₁, hname₁ "N"⟩, new, hnew, hname "N"⟩
    · simp [hd, hl, Except.toOption] at hfails
end ClassMachine
