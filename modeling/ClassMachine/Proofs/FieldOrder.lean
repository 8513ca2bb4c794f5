import ClassMachine.Proofs.FieldInstallation

/-!
# The order in which fields are installed

No loop goes along a lineage. The fields of a class are installed where a frame of the
class binds its object, and frames nest, through any amount of client code. Still the
history of each instance is built level by level, from the base class on.

The reason is that an object changes hands in one direction only. It is new when it is
allocated. A construction hands its object up to the frame that has asked for it, with
all levels up to the class of the construction (`ClassMachine.ConstructsThrough`), and
keeps no other way to it. So the next level can only be that of the class of this frame,
and only once.

Main statement: `ClassMachine.field_order`.
-/

namespace ClassMachine

open Chronicle Machine

variable {α : Type}

/-! ### What is to be shown -/

/-- The law is to be shown from sound machines on only. -/
theorem fieldsLaw_ensures {x : Action α} {m : Machine}
    (h : m.Sound → x.Ensures m (fieldsLaw.Holds m)) : x.Ensures m (fieldsLaw.Holds m) := by
  unfold Action.Ensures at *
  generalize x.outcome m = o at h ⊢
  rcases o with ⟨_ | _, m'⟩ <;> exact fun hs => h hs hs

section Operations

variable {settings : Settings} {perform : Performer}
  (hframes : perform.Keeps (framesContract settings)) (hregistry : perform.Keeps registryContract)
  (hfields : perform.Keeps fieldsContract)

/-! ### Adopting a new object -/

/-- The machine has got a new instance with these levels, all closed and sure, and kept its
frames. -/
structure Machine.Provides (m : Machine) (o : ObjectId) (newTarget : ClassId)
    (levels : List Level) (m' : Machine) : Prop extends m'.Carries o newTarget levels where
  grown : Grown none m m'
  frames : m'.frames = m.frames
  new : m.store.size ≤ o
  closed : ∀ l ∈ levels, l.Closed
  sure : ∀ l ∈ levels, l.Sure m'.chronicle

include hfields

/-- **Adopting a new object** obeys the law, and adds a level that is whole if there was no
failure. -/
theorem adopt_new {m m₁ : Machine} {f : Frame} {rest : List Frame} (hf : m.frames = f :: rest)
    {o : ObjectId} {levels : List Level} (h : m.Provides o f.newTarget levels m₁)
    (hclass : (m₁.registry.class? f.cls).isSome)
    (hlineage : Lineage m₁.chronicle.HasParent (levels.map Level.cls ++ [f.cls]) f.cls)
    {phase : Phase} (hphase : phase = .allocated ∨ phase = .thisBound) :
    (adopt perform o f.cls phase).Ensures m₁ fun r m' => fieldsLaw.Holds m r m' ∧
      (r = some (.ok ⟨⟩) → ∃ l, m'.Carries o f.newTarget (levels ++ [l]) ∧ l.cls = f.cls ∧
        l.Whole ∧ Lineage m'.chronicle.HasParent ((levels ++ [l]).map Level.cls) f.cls ∧
        ∀ l' ∈ levels ++ [l], l'.Sure m'.chronicle) := by
  refine (adopt_fields (fun e ctx => hfields (.eval e ctx)) (h.frames.trans hf) h.toCarries hclass
    h.closed h.sure hlineage hphase).mono fun r m' h' => ?_
  cases r with
  | none => exact ⟨fun _ => h'.1, by simp⟩
  | some r =>
    have hadopted := h'.2 r rfl
    refine ⟨fun _ => ⟨h'.1, h.grown.close hadopted.grown h.new hadopted.settled, ?_⟩, fun hr => ?_⟩
    · -- the frames are still those of the machine at first
      have hbinds := hadopted.binds m.store.size h.new
      rwa [Binds, h.frames] at hbinds
    · obtain ⟨l, hl, hcls, hwhole⟩ := hadopted.whole ⟨⟩ (Option.some.inj hr)
      have hlineage' : Lineage m'.chronicle.HasParent (levels.map Level.cls ++ [f.cls]) f.cls :=
        hlineage.mono fun _ _ => .mono hadopted.grown.chronicle
      refine ⟨l, hl, hcls, hwhole, by simpa [hcls] using hlineage', fun l' hl' => ?_⟩
      rcases List.mem_append.mp hl' with hl' | hl'
      · exact (h.sure l' hl').mono hadopted.grown.chronicle
      · obtain rfl : l' = l := by simpa using hl'
        exact .inl hwhole

/-! ### Inside a frame -/

omit hfields in
/-- **Allocating** provides a new object without any fields. -/
theorem allocate_fields {m : Machine} (hm : m.Coherent) (hs : m.Sound) {newTarget : ClassId}
    (hlineage : ∃ ids, Lineage m.chronicle.HasParent ids newTarget) :
    (allocate newTarget).Ensures m fun r m' => fieldsLaw.Holds m r m' ∧
      ∀ o, r = some (.ok o) → m.Provides o newTarget [] m' ∧ m'.registry = m.registry := by
  rcases hc : m.registry.class? newTarget with _ | c
  · exact .bind_error (outcome_classAt_of_none hc)
      ⟨fieldsLaw_note (fun _ => rfl) trivial, by simp⟩
  let o := m.store.size
  let m₁ := (Effect.object (.instance newTarget) (some c.prototype)).apply m
  let m₂ := (Effect.note (.allocated o newTarget)).apply m₁
  have h₁ : (registryLaw fieldsLaw).ended m m₁ :=
    registryLaw_allows (e := .object ..) trivial (fieldsLaw_allows trivial) m
  obtain ⟨hsettles, hfields₁⟩ := h₁ hm
  obtain ⟨hs₁, hgrown₁, -⟩ := hfields₁ hs
  have hborn : o < m₁.store.size := by simp [m₁, o, Effect.apply]
  have hinstalled : Installed m₁.chronicle o newTarget []
      (historyOf m₁.trace o ++ [.allocated o newTarget]) := by
    obtain ⟨ids, hids⟩ := hlineage
    have hunborn : historyOf m₁.trace o = [] := hs.unborn o (Nat.le_refl _)
    have hids : Lineage m₁.chronicle.HasParent ids newTarget :=
      hids.mono fun _ _ => .mono hgrown₁.chronicle
    exact ⟨by rw [hunborn]; rfl, ⟨ids, hids, List.nil_prefix⟩, by simp⟩
  have htold : Told (.allocated o newTarget) m₁.trace := trivial
  obtain ⟨h₂, hgrown₂⟩ := hs₁.note hsettles.coherent hborn
    ⟨rfl, fun _ => beq_iff_eq.trans eq_comm⟩ htold hinstalled
  have hgrown : Grown none m m₂ := hgrown₁.close hgrown₂ (Nat.le_refl _)
    (.inr ⟨newTarget, [], h₂.installed, by simp⟩)
  refine .bind_ok (outcome_classAt_of_some hc) ?_
  refine .of_outcome (r := some (.ok o)) (n := m₂) rfl
    ⟨fun _ => ⟨h₂.sound, hgrown, .of_frames rfl⟩, fun o' ho => ?_⟩
  obtain rfl : o = o' := by simpa using ho
  exact ⟨⟨h₂, hgrown, rfl, Nat.le_refl _, by simp, by simp⟩, rfl⟩

include hframes

/-- **Calling the parent constructor** obeys the law, and puts all levels up to that of the
frame on the object, sure ones, if it succeeds. -/
theorem superCall_fields {m : Machine} (hm : m.Coherent) (hs : m.Sound) {f : Frame}
    {rest : List Frame} (hf : m.frames = f :: rest) (args : List Value) :
    (superCall perform args).Ensures m fun r m' => fieldsLaw.Holds m r m' ∧
      ∀ o, r = some (.ok o) →
        SureThrough m'.chronicle o f.newTarget f.cls (historyOf m'.trace o) := by
  refine superCall_ensures (fun fault _ => ⟨fieldsLaw_note (fun _ => rfl) trivial, by simp⟩)
    fun g rest' c p hg hc hp => ?_
  obtain rfl : f = g := (List.cons.inj (hf.symm.trans hg)).1
  -- the parent is on the lineage of the new-target, as the class is
  have hparent : m.chronicle.HasParent f.cls (some p) := hp ▸ hm.follows.hasParent hc
  have hlineage : OnLineage m.chronicle p f.newTarget :=
    (hs.frames f (by simp [hf])).parent hm.follows.hasParent_unique hparent
  have hconstruct : (perform (.construct p f.newTarget args)).Ensures m fun r m₁ =>
      (constructionLaw settings).Holds m r m₁ ∧ (registryLaw fieldsLaw).Holds m r m₁ ∧
        ConstructsThrough m p f.newTarget r m₁ :=
    ⟨hframes (.construct p f.newTarget args) m,
      hfields (.construct p f.newTarget args) m hm hs fun _ => hlineage⟩
  refine hconstruct.bind (fun o m₁ _ h₁ => ?_) (fun _ _ h => ⟨(h.2.1 hm).2, by simp⟩)
    fun _ h => ⟨(h.2.1 hm).2, by simp⟩
  -- its object is new, has all levels up to that of the parent, and the frame is as it was
  obtain ⟨hframes₁, hlaw₁, hthrough⟩ := h₁
  obtain ⟨hsettles, hfields₁⟩ := hlaw₁ hm
  obtain ⟨hs₁, hgrown₁, -⟩ := hfields₁ hs
  obtain ⟨hnew, hborn, hthrough⟩ := hthrough o rfl
  obtain ⟨levels, hlevels, hsure⟩ := hthrough
  have hinstalled := hlevels.installed hsettles.coherent.follows.hasParent_unique
    (hlineage.mono hgrown₁.chronicle)
  have hprovides : m.Provides o f.newTarget levels m₁ :=
    ⟨⟨hsettles.coherent, hs₁, hborn, hinstalled⟩, hgrown₁, hframes₁.1, hnew, hlevels.closed, hsure⟩
  have hclass : (m₁.registry.class? f.cls).isSome := by
    rw [hsettles.later.isSome_class? hm hsettles.coherent
      (hm.follows.registered_le (hm.follows.registered_of_class? hc)), hc]
    rfl
  refine (adopt_new hfields hf hprovides hclass
    (hlevels.lineage.derived (hparent.mono hgrown₁.chronicle)) (.inr rfl)).bind
    (fun a m₂ _ h₂ => ?_) (fun _ _ h => ⟨h.1, by simp⟩) fun _ h => ⟨h.1, by simp⟩
  obtain ⟨l, hl, hcls, hwhole, hlineage₂, hsure₂⟩ := h₂.2 rfl
  have hnote : fieldsLaw.ended m₂ ((Effect.note (.superReturned f.cls o)).apply m₂) :=
    fieldsLaw_note (fun _ => rfl)
      ⟨f.newTarget, levels, l, hcls, hwhole, hlineage₂, hl.installed.history⟩
  refine .of_outcome rfl ⟨fieldsLaw.trans h₂.1 hnote, fun o' ho => ?_⟩
  obtain rfl : o = o' := by simpa using ho
  exact ⟨levels ++ [l], ⟨hl.installed.history, hlineage₂, hl.installed.all_closed (.inl hwhole)⟩,
    hsure₂⟩

/-- Calling the parent constructor obeys the law, with or without a frame. -/
theorem superCall_fieldsLaw {m : Machine} (hm : m.Coherent) (hs : m.Sound) (args : List Value) :
    (superCall perform args).Ensures m (fieldsLaw.Holds m) := by
  rcases hf : m.frames with _ | ⟨f, rest⟩
  · exact .bind_error (outcome_currentFrame_of_nil hf) (fieldsLaw_note (fun _ => rfl) trivial)
  · exact (superCall_fields hframes hfields hm hs hf args).mono fun _ _ h => h.1

omit hframes in
/-- **Running a body** obeys the law, if what the note of it says is true. -/
theorem runBody_fields {m : Machine} (hm : m.Coherent) {cls : ClassId} {this : Option ObjectId}
    {args : List Value} (htold : Told (.bodyEntered cls this args) m.trace) (body : Expr) :
    (runBody perform cls this body args).Ensures m (fieldsLaw.Holds m) := by
  let m₁ := (Effect.note (.bodyEntered cls this args)).apply m
  have h₁ : fieldsLaw.ended m m₁ := fieldsLaw_note (fun _ => rfl) htold
  have hsettles : m.Settles m₁ := .of_eq hm rfl rfl
  exact .bind_ok (n := m₁) rfl ((hfields (.eval body { args }) m₁).bind
    (fun _ _ _ h => fieldsLaw.trans h₁ (h hsettles.coherent).2)
    (fun _ _ h => fieldsLaw.trans h₁ (h hsettles.coherent).2)
    fun _ h => fieldsLaw.trans_broken h₁ (h hsettles.coherent).2)

omit hframes hfields in
/-- What client code runs in a frame without an object leaves there, if anything, an object
with all levels up to that of the frame. -/
theorem Machine.Binds.through {m m' : Machine} (h : Binds m.store.size m m') {f f' : Frame}
    {rest : List Frame} (hf : m.frames = f :: rest) (hf' : f' ∈ m'.frames.head?)
    (hfree : f.this = none) {o : ObjectId} (ho : o ∈ f'.this) :
    m.store.size ≤ o ∧ o < m'.store.size ∧
      Through m'.chronicle o f.newTarget f.cls (historyOf m'.trace o) := by
  obtain ⟨g, hg, hcls, hnewTarget, hthis⟩ := h f' hf'
  obtain rfl : f = g := by simpa [hf] using hg
  rcases hthis with hthis | hthis
  · rw [hthis, hfree] at ho
    exact absurd ho (by simp)
  · obtain ⟨hnew, hborn, hthrough⟩ := hthis o ho
    rw [hcls, hnewTarget] at hthrough
    exact ⟨hnew, hborn, hthrough⟩

omit hfields in
/-- A body that begins with an object in the frame leaves it there, and its fields alone. -/
theorem runBody_bound {m : Machine} (hs : m.Sound) {f : Frame} {rest : List Frame}
    (hf : m.frames = f :: rest) {o : ObjectId} (ho : f.this = some o) (hborn : o < m.store.size)
    {cls : ClassId} {this : Option ObjectId} {args : List Value} {body : Expr}
    (hbody : (runBody perform cls this body args).Ensures m (fieldsLaw.Holds m)) :
    (runBody perform cls this body args).Ensures m fun r m' => r.isSome →
      m'.frames = f :: rest ∧ historyOf m'.trace o = historyOf m.trace o ∧
      m.chronicle ⊆ m'.chronicle := by
  have hrun : (runBody perform cls this body args).Ensures m fun r m' =>
      (framesLaw settings).Holds m r m' ∧ fieldsLaw.Holds m r m' :=
    ⟨runBody_framesLaw hframes cls this body args m, hbody⟩
  refine hrun.mono fun r m' h hr => ?_
  obtain ⟨r, rfl⟩ := Option.isSome_iff_exists.mp hr
  have hmoved := h.1.1
  rw [hf] at hmoved
  obtain ⟨-, hgrown, -⟩ := h.2 hs
  exact ⟨hmoved.eq_of_bound (by simp [ho]), hgrown.old o hborn (by simp), hgrown.chronicle⟩

/-- **Running a constructor** in its frame obeys the law, and if it succeeds and the frame has
an object in the end, all levels up to that of the frame are on the object, sure ones. -/
theorem runConstructor_fields {m : Machine} (hm : m.Coherent) (hs : m.Sound) {f : Frame}
    {rest : List Frame} (hf : m.frames = f :: rest) (hfree : f.this = none) (args : List Value) :
    (runConstructor perform f.cls f.newTarget args).Ensures m fun r m' =>
      fieldsLaw.Holds m r m' ∧ (r = some (.ok ⟨⟩) → ∀ f' ∈ m'.frames.head?, ∀ o ∈ f'.this,
        SureThrough m'.chronicle o f.newTarget f.cls (historyOf m'.trace o)) := by
  rcases hc : m.registry.class? f.cls with _ | c
  · exact .bind_error (outcome_classAt_of_none hc)
      ⟨fieldsLaw_note (fun _ => rfl) trivial, by simp⟩
  refine .bind_ok (outcome_classAt_of_some hc) ?_
  have hkind := hm.follows.class?_kind hc
  rcases hp : c.parent with _ | p
  · rw [hp] at hkind
    simp only [hkind, ConstructorKind.ofParent]
    -- the constructor of a base class
    obtain ⟨ids, hids, -⟩ := hs.frames f (by simp [hf])
    refine (allocate_fields hm hs ⟨ids, hids⟩).bind (fun o m₁ _ h₁ => ?_)
      (fun _ _ h => ⟨h.1, by simp⟩) fun _ h => ⟨h.1, by simp⟩
    obtain ⟨hprovides, hregistry⟩ := h₁.2 o rfl
    have hbase : m.chronicle.HasParent f.cls none := hp ▸ hm.follows.hasParent hc
    have hphase : Phase.allocated ≠ .awaitingSuper := by simp
    refine ((adopt_new hfields hf hprovides (by rw [hregistry, hc]; rfl)
      (.base (hbase.mono hprovides.grown.chronicle)) (.inl rfl)).and
      (adopt_frames hframes (hprovides.frames.trans hf) o f.cls hphase)).bind
      (fun a m₂ _ h₂ => ?_) (fun _ _ h => ⟨h.1.1, by simp⟩) fun _ h => ⟨h.1.1, by simp⟩
    -- the object is in the frame, and all fields of the class are on it
    obtain ⟨l, hl, hcls, hwhole, hlineage, hsure⟩ := h₂.1.2 rfl
    obtain ⟨-, hm₂⟩ := h₂.2.2.2 rfl
    have hthrough : SureThrough m₂.chronicle o f.newTarget f.cls (historyOf m₂.trace o) :=
      ⟨[l], ⟨hl.installed.history, hlineage, hl.installed.all_closed (.inl hwhole)⟩, hsure⟩
    have hsame {m' : Machine} (hm' : m'.frames = { f with this := some o, phase := .body } :: rest)
        {f' : Frame} (hf' : f' ∈ m'.frames.head?) {o' : ObjectId} (ho' : o' ∈ f'.this) :
        o' = o := by
      rw [hm'] at hf'
      obtain rfl : _ = f' := by simpa using hf'
      simpa [eq_comm] using ho'
    split
    · have htold : Told (.bodyEntered f.cls (some o) args) m₂.trace :=
        ⟨f.newTarget, l, hcls, hwhole, hl.installed.history⟩
      have hbody := runBody_fields hfields hl.coherent htold ‹Expr›
      refine (hbody.and (runBody_bound hframes hl.sound hm₂ rfl hl.born hbody)).mono
        fun r m' h => ⟨h.1.of_ended h₂.1.1, fun hr f' hf' o' ho' => ?_⟩
      obtain ⟨hm', hhistory, hchronicle⟩ := h.2 (by simp [hr])
      rw [hsame hm' hf' ho', hhistory]
      exact hthrough.mono hchronicle
    · refine .of_outcome rfl ⟨h₂.1.1, fun _ f' hf' o' ho' => ?_⟩
      rw [hsame hm₂ hf' ho']
      exact hthrough
  · rw [hp] at hkind
    simp only [hkind, ConstructorKind.ofParent]
    -- that of a derived class
    split
    next body hbody =>
      have htold : Told (.bodyEntered f.cls none args) m.trace := trivial
      refine (runBody_fields hfields hm htold body).mono fun r m' h => ⟨h, fun hr => ?_⟩
      -- the body may have gone on without the fields of the class
      subst hr
      intro f' hf' o ho
      obtain ⟨-, hgrown, hbinds⟩ := h hs
      obtain ⟨c₀, hc₀, hid, rfl⟩ := hm.follows.known f.cls c hc
      exact (hbinds.through hf hf' hfree ho).2.2.sure (hgrown.chronicle hc₀) hid
        (Option.isSome_of_mem hp) (Option.isSome_of_mem hbody)
    · refine (superCall_fields hframes hfields hm hs hf args).bind (fun o m' hcall h => ?_)
        (fun _ _ h => ⟨h.1, by simp⟩) fun _ h => ⟨h.1, by simp⟩
      refine .of_outcome rfl ⟨h.1, fun _ f' hf' o' ho' => ?_⟩
      -- the object in the frame is the one that the call has answered with
      obtain ⟨g, rest', hg, -, hm'⟩ := superCall_bound hframes hcall
      rw [hm'] at hf'
      obtain rfl : _ = f' := by simpa using hf'
      obtain rfl : o = o' := by simpa using ho'
      exact h.2 o rfl

/-! ### The frame around it -/

/-- **A construction** obeys the law and hands its object up. -/
theorem constructFor_fields {m : Machine} (hm : m.Coherent) (hs : m.Sound)
    {cls newTarget : ClassId} (hrelated : m.Related cls newTarget) (args : List Value) :
    (constructFor settings perform cls newTarget args).Ensures m fun r m' =>
      fieldsLaw.Holds m r m' ∧ ConstructsThrough m cls newTarget r m' := by
  let f : Frame := { cls, newTarget }
  let m₂ := m.begun cls newTarget
  have raised {m' : Machine} (h : fieldsLaw.ended m m') (fault : Fault) :
      fieldsLaw.ended m ((Effect.note (.raised fault)).apply m') :=
    fieldsLaw.trans h (fieldsLaw_note (fun _ => rfl) trivial)
  have h₁ : fieldsLaw.ended m ((Effect.note (.called cls newTarget)).apply m) :=
    fieldsLaw_note (fun _ => rfl) trivial
  obtain ⟨hs₁, hgrown₁, -⟩ := h₁ hs
  rcases hc : m.registry.class? cls with _ | c
  · -- without a class, the frame is gone at once
    have hc₂ : m₂.registry.class? cls = none := hc
    let m₃ := (Effect.note (.raised (.noSuchClass cls))).apply m₂
    have hm₃ : m₃.frames = f :: m.frames := rfl
    have hrun : (runConstructor perform cls newTarget args).outcome m₂ =
        (some (.error (.ofFault (.noSuchClass cls))), m₃) :=
      outcome_runConstructor_of_none hc₂ newTarget args
    refine constructFor_ensures (P := fun r m' => (∃ e, r = some (.error e)) ∧ m' = m₃)
      ⟨raised h₁ _, constructsThrough_error⟩ (fun _ => .of_outcome hrun ⟨⟨_, rfl⟩, rfl⟩) ?_
      (by simp)
    rintro r _ ⟨⟨e, hr⟩, rfl⟩
    obtain rfl : r = .error e := Option.some.inj hr
    exact finishConstruction_ensures hm₃ (by simp) (by simp)
      fun _ _ => ⟨raised h₁ _, constructsThrough_error⟩
  have hs₂ : m₂.Sound := hs₁.with_frames <| List.forall_mem_cons.mpr
    ⟨(hrelated (by rw [hc]; rfl)).mono hgrown₁.chronicle, hs₁.frames⟩
  have hsettles : m.Settles m₂ := .of_eq hm rfl rfl
  have hgrown₂ : Grown none m m₂ := hgrown₁.trans (.with_frames hs₁ _ none) (by simp)
  have hrun : (runConstructor perform cls newTarget args).Ensures m₂ _ :=
    (runConstructor_ownFrameLaw hframes cls newTarget args m₂).and
      (runConstructor_fields hframes hfields hsettles.coherent hs₂ (f := f) rfl rfl args)
  refine constructFor_ensures ⟨raised h₁ _, constructsThrough_error⟩ (fun _ => hrun)
    (fun outcome m₃ h₃ => ?_) fun m₃ h₃ => ⟨fun _ => h₃.2.1 hs₂, constructsThrough_none⟩
  -- the frame is taken off, and all others are as they were
  obtain ⟨f', hm₃⟩ := h₃.1.1 f m.frames rfl
  obtain ⟨hs₃, hgrown₃, hbinds₃⟩ := h₃.2.1 hs₂
  have hgrown : Grown none m m₃ := hgrown₂.trans hgrown₃ (by simp)
  have h₄ : fieldsLaw.ended m { m₃ with frames := m.frames } := fun _ =>
    ⟨hs₃.with_frames fun f hf => (hs.frames f hf).mono hgrown.chronicle,
      hgrown.trans (.with_frames hs₃ _ none) (by simp), .of_frames rfl⟩
  refine finishConstruction_ensures hm₃ (fun this hr hthis => ⟨h₄, fun o ho => ?_⟩)
    (fun _ => ⟨raised h₄ _, constructsThrough_error⟩) fun _ _ => ⟨h₄, constructsThrough_error⟩
  obtain rfl : this = o := Except.ok.inj (Option.some.inj ho)
  have hm₂ : m₂.frames = f :: m.frames := rfl
  have hf' : f' ∈ m₃.frames.head? := by simp [hm₃]
  obtain ⟨hnew, hborn, -⟩ := hbinds₃.through hm₂ hf' rfl hthis
  exact ⟨hnew, hborn, h₃.2.2 (congrArg some hr) f' hf' this hthis⟩

omit hframes hfields in
/-- An existing class is on its own lineage. -/
theorem Machine.Coherent.related_self {m : Machine} (hm : m.Coherent) (cls : ClassId) :
    m.Related cls cls := by
  intro hcls
  obtain ⟨ids, hids⟩ := hm.follows.exists_lineage hcls
  have hids : Lineage m.chronicle.HasParent ids cls := hids.mono fun id p ⟨c, hc, hp⟩ =>
    hp ▸ hm.follows.hasParent hc
  exact ⟨ids, hids, ids, List.prefix_refl ids, hids⟩

theorem construct_fields {m : Machine} (hm : m.Coherent) (hs : m.Sound) (cls : ClassId)
    (args : List Value) :
    (construct settings perform cls args).Ensures m fun r m' =>
      fieldsLaw.Holds m r m' ∧ ConstructsThrough m cls cls r m' := by
  have hannounce : (announceConstruction settings cls).Obeys (registryLaw fieldsLaw) :=
    MadeOf.obeys_alone (A := fun e => e.KeepsRegistry ∧ e.KeepsFields)
      (announceConstruction_madeOf (fun _ h => ⟨h.keepsRegistry, h.keepsFields⟩)
        fun _ => ⟨rfl, fun _ => rfl, fun _ => trivial⟩)
      fun _ h => registryLaw_allows h.1 (fieldsLaw_allows h.2)
  refine (hannounce m).bind (fun _ m₁ _ h => ?_) (fun _ _ h => ⟨(h hm).2, by simp⟩)
    fun _ h => ⟨(h hm).2, by simp⟩
  obtain ⟨hsettles, hlaw⟩ := h hm
  obtain ⟨hs₁, hgrown₁, -⟩ := hlaw hs
  refine (constructFor_fields hframes hfields hsettles.coherent hs₁
    (hsettles.coherent.related_self cls) args).bind (fun this m₂ _ h₂ => ?_)
    (fun _ _ h => ⟨h.1.of_ended hlaw, by simp⟩) fun _ h => ⟨h.1.of_ended hlaw, by simp⟩
  let m₃ := (Effect.note (.constructed cls this)).apply m₂
  have h₃ : fieldsLaw.ended m₂ m₃ := fieldsLaw_note (fun _ => rfl) trivial
  obtain ⟨hnew, hborn, hthrough⟩ := h₂.2 this rfl
  refine .of_outcome rfl ⟨fieldsLaw.trans hlaw (fieldsLaw.trans h₂.1 h₃), fun o ho => ?_⟩
  obtain rfl : this = o := by simpa using ho
  exact ⟨Nat.le_trans hgrown₁.size hnew, hborn, hthrough⟩

theorem constructValue_fields {m : Machine} (hm : m.Coherent) (hs : m.Sound) (callee : Value)
    (args : List Value) :
    (constructValue settings perform callee args).Ensures m (fieldsLaw.Holds m) := by
  have hcalled : (calledClass callee).Obeys (registryLaw fieldsLaw) :=
    MadeOf.obeys_alone (calledClass_client callee) fun _ h =>
      registryLaw_allows h.keepsRegistry (fieldsLaw_allows h.keepsFields)
  refine (hcalled m).bind (fun cls m₁ _ h => ?_) (fun _ _ h => (h hm).2) fun _ h => (h hm).2
  obtain ⟨hsettles, hlaw⟩ := h hm
  exact (construct_fields hframes hfields hsettles.coherent (hlaw hs).1 cls args).mono
    fun _ _ h => h.1.of_ended hlaw

/-! ### All calls, all tasks -/

include hregistry

theorem call_fieldsLaw (c : Call α) : (c.run settings perform).Obeys (registryLaw fieldsLaw) := by
  have heval (e : Expr) (ctx : Context) : (perform (.eval e ctx)).Obeys (registryLaw fieldsLaw) :=
    hfields (.eval e ctx)
  have hcall := call_registryLaw hregistry settings c
  cases c with
  | construct cls args =>
    exact fun m => registryLaw_of_trivial (hcall m) fun hm => fieldsLaw_ensures fun hs =>
      (construct_fields hframes hfields hm hs cls args).mono fun _ _ => And.left
  | constructValue callee args =>
    exact fun m => registryLaw_of_trivial (hcall m) fun hm => fieldsLaw_ensures fun hs =>
      constructValue_fields hframes hfields hm hs callee args
  | super args =>
    exact fun m => registryLaw_of_trivial (hcall m) fun hm => fieldsLaw_ensures fun hs =>
      superCall_fieldsLaw hframes hfields hm hs args
  | define d =>
    exact defineClass_registryLaw (fun _ h => fieldsLaw_allows h.keepsFields) heval d
  | replace cls field initializer =>
    exact replaceInitializer_registryLaw (fun _ h => fieldsLaw_allows h.keepsFields) cls field
      initializer
  | get target key => exact client_fieldsLaw heval (readProperty_client target key)
  | set target key value => exact client_fieldsLaw heval (assignProperty_client target key value)
  | call callee receiver args =>
    exact client_fieldsLaw heval (callValue_client callee receiver args)
  | invoke receiver key args => exact client_fieldsLaw heval (invokeMethod_client receiver key args)

/-- **Each level passes the contract on.** -/
theorem step_keeps_fields : (step settings perform).Keeps fieldsContract := by
  intro α task
  cases task with
  | eval e ctx =>
    refine (evaluateExpr_client ctx e).obeys
      (fun _ h => registryLaw_allows (Effect.IsClient.keepsRegistry h)
        (fieldsLaw_allows (Effect.IsClient.keepsFields h))) ?_ fun e ctx => hfields (.eval e ctx)
    rintro β _ ⟨c, rfl⟩
    exact call_fieldsLaw hframes hregistry hfields c
  | construct cls newTarget args =>
    intro m hm hs hrelated
    have hfor := constructFor_fields hframes hfields hm hs hrelated args
    exact ⟨registryLaw_of_trivial (step_keeps_registry hregistry settings
      (.construct cls newTarget args) m) fun _ => hfor.mono fun _ _ => And.left, hfor.2⟩

end Operations

/-! ### The order -/

/-- The fields of an instance are installed in order. -/
structure Machine.InOrder (m : Machine) (o : ObjectId) (newTarget : ClassId)
    (levels : List Level) : Prop
    extends Installed m.chronicle o newTarget levels (historyOf m.trace o) where
  /-- The levels are of different classes, the oldest one first. -/
  pairwise : (levels.map Level.cls).Pairwise (· < ·)
  /-- The fields begun on the object are those begun at the levels. -/
  starts : startsOf m.trace o = levels.flatMap fun l => l.starts.map (l.cls, ·)
  /-- These are the first ones of the records of the level, and in front of a further level
  all of them, unless the last one could not be installed. -/
  starts_prefix : ∀ l ∈ levels, l.starts <+: l.records
  starts_eq : ∀ l ∈ levels.dropLast,
    l.starts = l.records ∨ ∃ r, l.starts.getLast? = some r ∧ l.progress = .failed r
  /-- The records of a level are those that the class has when the level begins, from a frame
  of the class that has bound the object. -/
  records : ∀ l ∈ levels, ∃ new old, m.trace =
    new ++ .installing l.frame l.cls l.className o l.records :: old ∧
      l.records = (chronicleOf old).fieldsOf l.cls ∧
      ∃ f, l.frame = some f ∧ f.cls = l.cls ∧ f.this = some o

/-- What holds of the making of instances at every moment. -/
structure Machine.FieldsInOrder (m : Machine) : Prop where
  /-- The fields of each instance are installed in order. -/
  instances : ∀ o newTarget, .allocated o newTarget ∈ m.trace →
    ∃ levels, m.InOrder o newTarget levels
  /-- No field is installed on another object. -/
  others : ∀ o, (∀ newTarget, .allocated o newTarget ∉ m.trace) → historyOf m.trace o = []
  /-- What events tell is true. -/
  told : ∀ new e old, m.trace = new ++ e :: old → Told e old

theorem Machine.Sound.inOrder {m : Machine} (hm : m.Coherent) (hs : m.Sound) {o : ObjectId}
    {newTarget : ClassId} {levels : List Level}
    (h : Installed m.chronicle o newTarget levels (historyOf m.trace o)) :
    m.InOrder o newTarget levels := by
  refine ⟨h, ?_, ?_, fun l _ => l.starts_prefix, fun l hl => (h.closed l hl).starts_eq,
    fun l hl => ?_⟩
  · obtain ⟨ids, hids, hprefix⟩ := h.lineage
    refine ((hids.pairwise ?_).1).sublist hprefix.sublist
    rintro _ p ⟨c, hc, rfl, hp⟩
    exact (hm.follows.kind c hc).2 p hp
  · rw [startsOf, h.history, filterMap_levelHistory]
  · have hmem := installing_mem_levelHistory o newTarget hl
    rw [← h.history] at hmem
    obtain ⟨new, old, htrace⟩ := List.append_of_mem (mem_historyOf.mp hmem).1
    obtain ⟨⟨f, hf, hcls, hthis, -⟩, hrecords⟩ := hs.truthful.told htrace
    exact ⟨new, old, htrace, hrecords, f, hf, hcls, hthis⟩

theorem Machine.Sound.fieldsInOrder {m : Machine} (hm : m.Coherent) (hs : m.Sound) :
    m.FieldsInOrder where
  instances o newTarget ho := by
    obtain ⟨levels, hlevels⟩ := (hs.lawful o).installed
      (mem_historyOf.mpr ⟨ho, beq_self_eq_true o⟩)
    exact ⟨levels, hs.inOrder hm hlevels⟩
  others o ho := by
    rcases hs.lawful o with h | ⟨newTarget, levels, h⟩
    · exact h
    · have hmem : .allocated o newTarget ∈ historyOf m.trace o := by simp [h.history, levelHistory]
      exact absurd (mem_historyOf.mp hmem).1 (ho newTarget)
  told _ _ _ := hs.truthful.told

/-- All contracts together. -/
def fullContract (settings : Settings) : Contract :=
  registryContract.and ((framesContract settings).and fieldsContract)

theorem keeps_fullContract {settings : Settings} {perform : Performer} :
    perform.Keeps (fullContract settings) ↔ perform.Keeps registryContract ∧
      perform.Keeps (framesContract settings) ∧ perform.Keeps fieldsContract := by
  simp only [fullContract, Performer.keeps_and]

theorem step_keeps_full (settings : Settings) (perform : Performer)
    (hp : perform.Keeps (fullContract settings)) :
    (step settings perform).Keeps (fullContract settings) := by
  obtain ⟨hregistry, hframes, hfields⟩ := keeps_fullContract.mp hp
  exact keeps_fullContract.mpr ⟨step_keeps_registry hregistry settings, step_keeps_frames hframes,
    step_keeps_fields hframes hregistry hfields⟩

/-- **Instances and frames are sound at all moments**, and no field is being installed
between the steps of a program. -/
theorem fields_sound (settings : Settings) :
    (∀ m, AtRest settings m → m.Coherent ∧ m.Sound ∧
      ∀ o, Settled m.chronicle o (historyOf m.trace o)) ∧
    ∀ m, Reachable settings m → m.Coherent ∧ m.Sound := by
  refine Contract.moments _ _ (step_keeps_full settings)
    ⟨Machine.initial_coherent, ?_, fun _ => .inl rfl⟩ ?_ ?_ ?_ ?_
  · exact ⟨by simp [Machine.initial], fun _ _ => rfl, fun _ => .inl rfl, trivial⟩
  · exact fun m h => ⟨⟨h.1.follows, h.1.names⟩, ⟨h.2.1.frames, h.2.1.unborn, h.2.1.lawful,
      h.2.1.truthful⟩, h.2.2⟩
  · rintro e m r m' ⟨hm, hs, hsettled⟩ ⟨-, -, hlaw⟩
    obtain ⟨hsettles, hfields⟩ := hlaw hm
    obtain ⟨hs', hgrown, -⟩ := hfields hs
    refine ⟨hsettles.coherent, hs', fun o => ?_⟩
    -- an object is settled since before the step, or new to it
    rcases Nat.lt_or_ge o m.store.size with ho | ho
    · rw [hgrown.old o ho (by simp)]
      exact (hsettled o).mono hgrown.chronicle
    · exact hgrown.new o ho
  · rintro e m m' ⟨hm, hs, -⟩ ⟨-, -, hlaw⟩
    exact ⟨(hlaw hm).1.coherent, (hlaw hm).2 hs⟩
  · rintro e m he ⟨hm, hs⟩
    obtain ⟨hsettles, hfields⟩ :=
      registryLaw_allows he.keepsRegistry (fieldsLaw_allows he.keepsFields) m hm
    exact ⟨hsettles.coherent, (hfields hs).1⟩

/-- The machine is coherent and sound at all moments. -/
theorem sound_of_moment {settings : Settings} {m : Machine}
    (hm : AtRest settings m ∨ Reachable settings m) : m.Coherent ∧ m.Sound := by
  obtain ⟨hrest, hmoment⟩ := fields_sound settings
  exact hm.elim (fun hm => ⟨(hrest m hm).1, (hrest m hm).2.1⟩) (hmoment m)

/-- A call of the parent constructor that succeeds says so at last. -/
theorem superCall_returned (perform : Performer) (args : List Value) (m : Machine) :
    (superCall perform args).Ensures m fun r m' => ∀ o, r = some (.ok o) →
      ∃ f ∈ m.frames.head?, ∃ old, m'.trace = .superReturned f.cls o :: old := by
  intro o ho
  obtain ⟨f, hf, -, -, -, m₂, -, -, -, -, hm'⟩ := superCall_ok (Prod.ext ho rfl)
  exact ⟨f, hf, m₂.trace, congrArg Machine.trace hm'⟩

/-- **The order in which fields are installed.** At every moment of a program the history
of an instance consists of levels: these belong to the first classes of the lineage of its
new-target, one to each; a level goes through the records that its class has when it
begins, and does so from a frame of this class with the object bound; the fields begun at
it are the first ones of the records, and all of them unless the last one could not be
installed or the level is the last one. Between the steps of a program this goes for the
last level, too. The body of a base class begins when all fields of the class are on its
object, and a call of the parent constructor succeeds only when all fields of the class of
the frame are on the object, behind those of its ancestors. -/
theorem field_order (settings : Settings) :
    (∀ m, AtRest settings m ∨ Reachable settings m → m.FieldsInOrder) ∧
    (∀ m, AtRest settings m → ∀ o newTarget, .allocated o newTarget ∈ m.trace →
      ∃ levels, m.InOrder o newTarget levels ∧ ∀ l ∈ levels, l.Closed) ∧
    ∀ m, AtRest settings m ∨ Reachable settings m → ∀ levels args o m',
      (superCall (interpret settings levels) args).outcome m = (some (.ok o), m') →
        ∃ f ∈ m.frames.head?, ∃ old, m'.trace = .superReturned f.cls o :: old ∧
          Told (.superReturned f.cls o) old := by
  obtain ⟨hrest, hmoment⟩ := fields_sound settings
  have hsound {m : Machine} (hm : AtRest settings m ∨ Reachable settings m) :
      m.Coherent ∧ m.Sound :=
    hm.elim (fun hm => ⟨(hrest m hm).1, (hrest m hm).2.1⟩) (hmoment m)
  refine ⟨fun m hm => (hsound hm).2.fieldsInOrder (hsound hm).1, fun m hm o newTarget ho => ?_,
    fun m hm levels args o m' h => ?_⟩
  · obtain ⟨hcoherent, hs, hsettled⟩ := hrest m hm
    obtain ⟨levels, hlevels, hclosed⟩ := (hsettled o).installed
      (mem_historyOf.mpr ⟨ho, beq_self_eq_true o⟩)
    exact ⟨levels, hs.inOrder hcoherent hlevels, hclosed⟩
  · obtain ⟨hcoherent, hs⟩ := hsound hm
    obtain ⟨hregistry, hframes, hfields⟩ := keeps_fullContract.mp
      (interpret_keeps (step_keeps_full settings) levels)
    have hlaw := call_fieldsLaw hframes hregistry hfields (.super args) m
    have hreturned := superCall_returned (interpret settings levels) args m
    rw [Action.Ensures, Call.run, h] at hlaw
    rw [Action.Ensures, h] at hreturned
    obtain ⟨f, hf, old, htrace⟩ : ∃ f ∈ m.frames.head?, ∃ old,
      m'.trace = .superReturned f.cls o :: old := hreturned o rfl
    have hs' : m'.Sound := ((hlaw hcoherent).2 hs).1
    have htruthful := hs'.truthful
    rw [htrace] at htruthful
    exact ⟨f, hf, old, htrace, htruthful.1⟩

/-- A base class with a field, and a class derived from it with a field and an instance:
`class { x; static derived = class extends this { constructor() { super() } y;
static instance = new this } }`. -/
def nestedClasses : Expr :=
  .classDefinition
    { name := none, heritage := none, constructor := none,
      elements := [
        .field (.literal "x") false none,
        .field (.literal "derived") true (some (.classDefinition
          { name := none, heritage := some (.primitive .receiver []),
            constructor := some (.reentry .super []),
            elements := [
              .field (.literal "y") false none,
              .field (.literal "instance") true
                (some (.reentry .constructValue [.primitive .receiver []]))] }))] }

/-- The instance between the steps, and the call of the parent constructor for it. -/
theorem field_order_of_nestedClasses :
    (∃ m o, (AtRest {} m ∧ .allocated o 2 ∈ m.trace) ∧ m.FieldsInOrder ∧
      ∃ levels, m.InOrder o 2 levels ∧ ∀ l ∈ levels, l.Closed) ∧
    ∃ m o m', (Reachable {} m ∧
      (superCall (interpret {} 9) []).outcome m = (some (.ok o), m')) ∧ m.FieldsInOrder ∧
      ∃ f ∈ m.frames.head?, ∃ old, m'.trace = .superReturned f.cls o :: old ∧
        Told (.superReturned f.cls o) old := by
  obtain ⟨horder, hrest, hsuper⟩ := field_order {}
  constructor
  · let isInstance (e : Event) : Bool := match e with
      | .allocated _ newTarget => newTarget == 2
      | _ => false
    have hrun : ((runStep {} 9 nestedClasses .initial).any fun p => p.2.trace.any isInstance) =
        true := by decide +kernel
    obtain ⟨⟨report, m⟩, hm, h⟩ := (Option.any_eq_true ..).mp hrun
    have hm : AtRest {} m := .step .initial hm
    obtain ⟨e, he, hinstance⟩ := List.any_eq_true.mp h
    cases e <;> simp only [isInstance, Bool.false_eq_true, beq_iff_eq] at hinstance
    obtain rfl := hinstance
    exact ⟨m, _, ⟨hm, he⟩, horder m (.inl hm), hrest m hm _ _ he⟩
  · -- the frame of the derived class, before its body begins
    let stop (m : Machine) : Bool := m.frames.head?.any fun f => f.phase == .awaitingSuper
    let m := ((interpretUntil {} stop 9 (.eval nestedClasses {})).outcome
      { Machine.initial with log := [] }).2
    have hm : Reachable {} m := AtRest.initial.reachable nestedClasses stop 9
    have hends : (((superCall (interpret {} 9) []).outcome m).1.any
      fun r => r.toOption.isSome) = true := by decide +kernel
    rcases hcall : (superCall (interpret {} 9) []).outcome m with ⟨_ | e | o, m'⟩
    · simp [hcall] at hends
    · simp [hcall, Except.toOption] at hends
    · exact ⟨m, o, m', ⟨hm, hcall⟩, horder m (.inr hm), hsuper m (.inr hm) 9 [] o m' hcall⟩

end ClassMachine
