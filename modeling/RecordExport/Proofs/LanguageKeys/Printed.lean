import RecordExport.Proofs.Dialog.Flow
import RecordExport.Proofs.LanguageKeys.Table
import RecordExport.Proofs.Render.Cast
/-!
# The keys a render prints

Where a render prints a key it has requested it from its collaborators. An observer writes the requests
down as they are answered, which changes nothing else, so the keys printed by a render over a table of
keys are those in his notes.

* `Noted` relates a render over a table to the same render with notes: the notes say what became of the
  table (`KeyTable.Answers`), and every request in them is for a text that is shown;
* `printedKeys_render`: two texts are printed under one key exactly if their ids are the same, and so
  the table maps every key to the text it was printed for exactly if no two texts share an id.
-/

namespace RecordExport

/-! ## 1. Notes -/

/-- Requests for keys, each with the key it was answered. -/
abbrev KeyNotes := List (KeyRequest × String)

/-- The observer who writes down the requests for keys as they are answered. -/
def Observer.keyNoter : Observer KeyNotes where
  called
    | .languageKey r (.ok key), _, notes => notes ++ [(r, key)]
    | _, _, notes => notes
  happens _ _ _ notes := notes

/-- The same collaborators in a world where the requests for keys are written down. -/
def Services.noted {ω : Type} (s : Services ω) : Services (ω × KeyNotes) :=
  s.onLeft.seen Observer.keyNoter.beside

/-- Who a render over a project is about: its subjects and the objects and dialogs of the project. -/
def Project.cast (p : Project) (subjects : List GameObject) : Cast where
  shows := p.Shows subjects
  object id o := p.object? id = some o
  dialog objectId d := p.dialogOf? objectId = some d
  source o s := s ∈ p.keySources o
  shows_of_object h := p.shows_of_object? h
  source_name _ := p.mem_keySources.2 (.inl rfl)
  source_field hf := p.mem_keySources.2 (.inr (.inl ⟨_, hf, rfl⟩))
  source_node hd hn hs := p.mem_keySources.2 (.inr (.inr ⟨_, _, hd, hn, hs⟩))

/-- Keys are requested for texts of objects that are shown. -/
def Project.keyContract (p : Project) (subjects : List GameObject) : Contract :=
  (p.cast subjects).contract

theorem Project.view_of_mem {p : Project} {subjects : List GameObject} {v : GameObject}
    (hv : v ∈ subjects) : (p.cast subjects).View v := Cast.view_of_shows (.inl hv)

/-- A table with notes that say how it came about, and the same table without. -/
structure Noted (t₀ : KeyTable) (allowed : KeyRequest → Prop) (w : KeyTable × KeyNotes)
    (t : KeyTable) : Prop where
  same : w.1 = t
  answers : t₀.Answers w.2 w.1
  allowed : ∀ c ∈ w.2, allowed c.1

variable {p : Project} {subjects : List GameObject} {t₀ : KeyTable}

theorem noted_pure {allowed : KeyRequest → Prop} {α : Type} {Q : α → Prop}
    {made : Except ServiceError α → CallMade} {result : Except ServiceError α}
    (h : ∀ a, result = .ok a → Q a)
    (hmade : ∀ result cancels notes, Observer.keyNoter.called (made result) cancels notes = notes) :
    Call.Alike (Noted t₀ allowed) Q ((Call.pure result).onLeft.seen Observer.keyNoter.beside made)
      (Call.pure result) := by
  rw [Call.seen_of_unnoticed hmade]
  exact fun _ _ hw => ⟨rfl, h, rfl, hw⟩

/-- **Writing requests down changes nothing else.** -/
theorem services_noted (p : Project) (subjects : List GameObject) (registry : TemplateRegistry)
    (config : Config) :
    (Services.inMemory p registry config).noted.Alike
      (Noted t₀ (p.keyContract subjects).key) (p.keyContract subjects)
      (Services.inMemory p registry config) where
  object id := by
    refine noted_pure (fun o ho => ?_) fun _ _ _ => rfl
    unfold Project.find at ho
    split at ho
    · rename_i o' ho'
      exact ho'.trans (congrArg some (Except.ok.inj ho))
    · cases ho
  dialog objectId := by
    refine noted_pure (fun found hfound d hd => ?_) fun _ _ _ => rfl
    exact (Except.ok.inj hfound).trans hd
  languageKey r hr := by
    rintro ⟨t, notes⟩ _ ⟨rfl, ha, hn⟩
    refine ⟨rfl, fun _ _ => trivial, rfl, rfl, KeyTable.answers_concat ha r, fun c hc => ?_⟩
    rcases List.mem_append.1 hc with hc | hc
    · exact hn c hc
    · obtain rfl := List.mem_singleton.1 hc
      exact hr
  functions owner script := noted_pure (fun _ _ => trivial) fun _ _ _ => rfl
  template projectId kind := noted_pure (fun _ _ => trivial) fun _ _ _ => rfl
  projectId := rfl
  escape := rfl

/-! ## 2. Texts and their keys -/

namespace Project

/-- A text of an object that is shown, and a key that was printed for it. -/
def Printed (p : Project) (subjects : List GameObject) (notes : KeyNotes) (o : GameObject)
    (s : KeySource) (key : String) : Prop :=
  p.Shows subjects o ∧ s ∈ p.keySources o ∧ ∃ type, (s.request o type, key) ∈ notes

/-- **The texts under an owner's id are told apart**: different texts have different keys, and a key
    stands for the text it was printed for. -/
structure ToldApart (p : Project) (subjects : List GameObject) (notes : KeyNotes) (t : KeyTable)
    (ownerId : String) : Prop where
  keys : ∀ o s key o' s' key', o.id = ownerId → o'.id = ownerId →
    p.Printed subjects notes o s key → p.Printed subjects notes o' s' key' →
    (o, s) ≠ (o', s') → key ≠ key'
  texts : ∀ o s key, o.id = ownerId → p.Printed subjects notes o s key →
    t.textOf key = some (s.text o)

/-- No two texts printed under an owner's id have the same id. -/
def IdsDiffer (p : Project) (subjects : List GameObject) (notes : KeyNotes) (ownerId : String) :
    Prop :=
  ∀ o s key o' s' key', o.id = ownerId → o'.id = ownerId →
    p.Printed subjects notes o s key → p.Printed subjects notes o' s' key' →
    s.id? = s'.id? → (o, s) = (o', s')

/-- An object's name, fields, lines and options have different ids, all of them together, and no other
    object that is shown has the object's id. -/
structure DistinctTexts (p : Project) (subjects : List GameObject) (o : GameObject) : Prop where
  ids : ((p.keySources o).map (·.id?)).Nodup
  alone : ∀ o', p.Shows subjects o' → o'.id = o.id → o' = o

/-- **The keys that were printed.** -/
structure PrintedKeys (p : Project) (subjects : List GameObject) (notes : KeyNotes)
    (t : KeyTable) : Prop where
  /-- every key was printed for a text of an object that is shown -/
  sourced : ∀ c ∈ notes, ∃ o s type, p.Printed subjects notes o s c.2 ∧ c.1 = s.request o type
  /-- two texts share a key exactly if their owners' ids and their own ids are the same -/
  key_eq_iff : ∀ o s key o' s' key', p.Printed subjects notes o s key →
    p.Printed subjects notes o' s' key' → (key = key' ↔ o.id = o'.id ∧ s.id? = s'.id?)
  /-- a key stands for the text that was printed last of those that share it -/
  latest : ∀ c ∈ notes, t.textOf c.2 = KeyTable.latestText notes c.1.identity
  toldApart_iff : ∀ ownerId, p.ToldApart subjects notes t ownerId ↔
    p.IdsDiffer subjects notes ownerId
  toldApart : ∀ o, p.DistinctTexts subjects o → p.ToldApart subjects notes t o.id
  /-- texts of a well-formed object only share a key if their ids come from different places, and
      its name shares its key with none -/
  space_ne : ∀ o, p.WellFormed o → ∀ s s' key, p.Printed subjects notes o s key →
    p.Printed subjects notes o s' key → s ≠ s' → s.space ≠ s'.space ∧ s ≠ .name

variable {p : Project} {subjects : List GameObject} {notes : KeyNotes} {t₀ t : KeyTable}

theorem exists_printed (hn : ∀ c ∈ notes, (p.keyContract subjects).key c.1)
    {c : KeyRequest × String} (hc : c ∈ notes) :
    ∃ o s type, p.Printed subjects notes o s c.2 ∧ c.1 = s.request o type := by
  obtain ⟨o, s, type, ho, hs, hr⟩ := hn c hc
  refine ⟨o, s, type, ⟨ho, hs, type, ?_⟩, hr⟩
  rw [← hr]
  exact hc

theorem key_eq_iff_of_printed (ha : t₀.Answers notes t) {o o' : GameObject} {s s' : KeySource}
    {key key' : String} (h : p.Printed subjects notes o s key)
    (h' : p.Printed subjects notes o' s' key') :
    key = key' ↔ o.id = o'.id ∧ s.id? = s'.id? := by
  obtain ⟨-, -, type, hc⟩ := h
  obtain ⟨-, -, type', hc'⟩ := h'
  have hk := ha.key_eq_iff hc hc'
  rw [KeySource.identity_request, KeySource.identity_request, Prod.mk.injEq] at hk
  exact hk

/-- A printed key stands for some text that it was printed for. -/
theorem exists_printed_of_textOf (ha : t₀.Answers notes t)
    (hn : ∀ c ∈ notes, (p.keyContract subjects).key c.1) {o : GameObject} {s : KeySource}
    {key : String} (h : p.Printed subjects notes o s key) :
    ∃ o' s', p.Printed subjects notes o' s' key ∧ t.textOf key = some (s'.text o') := by
  obtain ⟨-, -, type, hc⟩ := h
  obtain ⟨c', hc', hid, hl⟩ := KeyTable.exists_latest hc
  obtain ⟨o', s', type', hp, hr⟩ := exists_printed hn hc'
  have hkey : c'.2 = key := (ha.key_eq_iff hc' hc).2 hid
  rw [hkey] at hp
  refine ⟨o', s', hp, ?_⟩
  rw [ha.textOf_eq hc, hl, hr, KeySource.value_request]

theorem toldApart_iff_idsDiffer (ha : t₀.Answers notes t)
    (hn : ∀ c ∈ notes, (p.keyContract subjects).key c.1) (ownerId : String) :
    p.ToldApart subjects notes t ownerId ↔ p.IdsDiffer subjects notes ownerId := by
  constructor
  · intro h o s key o' s' key' ho ho' hp hp' hid
    have hkey : key = key' := (key_eq_iff_of_printed ha hp hp').2 ⟨ho.trans ho'.symm, hid⟩
    by_contra hne
    exact h.keys o s key o' s' key' ho ho' hp hp' hne hkey
  · intro h
    constructor
    case keys =>
      intro o s key o' s' key' ho ho' hp hp' hne hkey
      exact hne (h o s key o' s' key' ho ho' hp hp' ((key_eq_iff_of_printed ha hp hp').1 hkey).2)
    case texts =>
      intro o s key ho hp
      obtain ⟨o', s', hp', ht⟩ := exists_printed_of_textOf ha hn hp
      obtain ⟨hoo, hid⟩ := (key_eq_iff_of_printed ha hp hp').1 rfl
      obtain ⟨rfl, rfl⟩ := Prod.mk.inj (h o s key o' s' key ho (hoo.symm.trans ho) hp hp' hid)
      exact ht

theorem DistinctTexts.idsDiffer {o : GameObject} (h : p.DistinctTexts subjects o) :
    p.IdsDiffer subjects notes o.id := by
  intro o₁ s₁ key₁ o₂ s₂ key₂ ho₁ ho₂ h₁ h₂ hid
  obtain rfl := h.alone o₁ h₁.1 ho₁
  obtain rfl := h.alone o₂ h₂.1 ho₂
  rw [List.inj_on_of_nodup_map h.ids h₁.2.1 h₂.2.1 hid]

theorem space_ne_of_printed (ha : t₀.Answers notes t) {o : GameObject} (ho : p.WellFormed o)
    {s s' : KeySource} {key : String} (h : p.Printed subjects notes o s key)
    (h' : p.Printed subjects notes o s' key) (hne : s ≠ s') : s.space ≠ s'.space ∧ s ≠ .name := by
  obtain ⟨-, hid⟩ := (key_eq_iff_of_printed ha h h').1 rfl
  constructor
  · intro hspace
    exact hne (ho.eq_of_id?_eq h.2.1 h'.2.1 hspace hid)
  · rintro rfl
    cases s' with
    | name => exact hne rfl
    | _ => cases hid

theorem printedKeys_of_answers (ha : t₀.Answers notes t)
    (hn : ∀ c ∈ notes, (p.keyContract subjects).key c.1) : p.PrintedKeys subjects notes t where
  sourced _ hc := exists_printed hn hc
  key_eq_iff _ _ _ _ _ _ h h' := key_eq_iff_of_printed ha h h'
  latest _ hc := ha.textOf_eq hc
  toldApart_iff := toldApart_iff_idsDiffer ha hn
  toldApart o ho := (toldApart_iff_idsDiffer ha hn o.id).2 ho.idsDiffer
  space_ne _ ho _ _ _ h h' hne := space_ne_of_printed ha ho h h' hne

end Project

/-! ## 3. Renders -/

/-- A render of an object with notes is the render, and the notes say what became of the table. -/
theorem noted_render (p : Project) (registry : TemplateRegistry) (config : Config) (maxDepth : Nat)
    (npc : GameObject) (type : ObjectType) (referenced : List LanguageKey) (kind : ArtifactKind)
    (text : Text) {table : KeyTable} (htable : table.Consistent) (cancelled : Bool) :
    let services := Services.inMemory p registry config
    let plain := (Engine.standard services maxDepth).render kind ⟨.object npc, type, referenced⟩
      text table cancelled
    let noted := (Engine.standard services.noted maxDepth).render kind
      ⟨.object npc, type, referenced⟩ text (table, []) cancelled
    noted.1 = plain.1 ∧ Noted table (p.keyContract [npc]).key noted.2 plain.2 := by
  intro services plain noted
  have halike : (Engine.standard services.noted maxDepth).Alike
      (Noted table (p.keyContract [npc]).key) (p.keyContract [npc]) (Engine.standard services maxDepth) :=
    ⟨rfl, rfl, services_noted p [npc] registry config, keeps_standard _ _⟩
  have hc : (p.keyContract [npc]).context ⟨.object npc, type, referenced⟩ :=
    Project.view_of_mem (List.mem_singleton_self npc)
  exact Engine.render_alike halike kind hc text
    ⟨rfl, KeyTable.answers_nil htable, fun c hc => absurd hc List.not_mem_nil⟩ cancelled

/-- **The keys of a render are told apart by their ids.** A render of an object over a table of keys,
    whatever was requested of the table before, requests keys for texts of the object and of objects
    in the project only. Two texts share a key exactly if they share an id. -/
theorem printedKeys_render (p : Project) (registry : TemplateRegistry) (config : Config)
    (maxDepth : Nat) (npc : GameObject) (type : ObjectType) (referenced : List LanguageKey)
    (kind : ArtifactKind) (text : Text) (earlier : List KeyRequest) (cancelled : Bool) :
    let services := Services.inMemory p registry config
    let table := (KeyTable.empty.answered earlier).2
    let plain := (Engine.standard services maxDepth).render kind ⟨.object npc, type, referenced⟩
      text table cancelled
    let noted := (Engine.standard services.noted maxDepth).render kind
      ⟨.object npc, type, referenced⟩ text (table, []) cancelled
    noted.1 = plain.1 ∧ p.PrintedKeys [npc] noted.2.2 plain.2 := by
  intro services table plain noted
  have htable : table.Consistent :=
    (KeyTable.answers_answered KeyTable.consistent_empty earlier).consistent
  obtain ⟨hout, hsame, ha, hn⟩ :=
    noted_render p registry config maxDepth npc type referenced kind text htable cancelled
  have hplain : table.Answers noted.2.2 plain.2 := by
    rw [← hsame]
    exact ha
  exact ⟨hout, Project.printedKeys_of_answers hplain hn⟩

/-- The guide's name, lines and options have ids of their own. -/
theorem distinctTexts_guide : Project.DistinctTexts ⟨[guide], [crossroads]⟩ [guide] guide where
  ids := by decide
  alone := by
    rintro o' (ho | ho) hid
    · exact List.mem_singleton.1 ho
    · rw [hid] at ho
      exact (Option.some.inj ho).symm

theorem printedKeys_guide :
    let p : Project := ⟨[guide], [crossroads]⟩
    let services := Services.inMemory p .builtIn .standard
    let text := braced "Npc_Name_LangKey".toList ++ braced "Tale_Initial_Function".toList
    let plain := (Engine.standard services 16).render .npc (.ofObject guide) text .empty false
    let noted := (Engine.standard services.noted 16).render .npc (.ofObject guide) text
      (.empty, []) false
    p.DistinctTexts [guide] guide ∧ p.ToldApart [guide] noted.2.2 plain.2 guide.id := by
  intro p services text plain noted
  have h := printedKeys_render p .builtIn .standard 16 guide guide.type [] .npc text [] false
  exact ⟨distinctTexts_guide, h.2.toldApart guide distinctTexts_guide⟩

-- a field and a line with one id, so their keys are the same wherever both are printed
example :
    let npc : GameObject :=
      ⟨"g", "Goblin", .npc, [⟨"1", "Greeting", .text, "Hello", []⟩], [], [], [], []⟩
    let p : Project := ⟨[npc], [⟨"d", "g", [⟨"1", .npcText "Begone" none⟩]⟩]⟩
    (p.keySources npc).map (·.id?) = [none, some "1", some "1"] := by decide

end RecordExport
