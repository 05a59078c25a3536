import RecordExport.Proofs.LanguageKeys.ObjectKeys
import RecordExport.Proofs.LanguageKeys.Printed
/-!
# Language files

A language file and the objects it lists are rendered at different times, from different templates, and
neither knows of the other. They agree on their keys because both ask one table, and ask it for the same
identities.

* `localTexts`: the texts that are listed, in their order;
* `languageListing`: an entry for each of them, with the key the table has for it in the end;
* `fetches_resolveLanguageFile`: the file is the listing, and asks for its keys alone;
* `SharesKeys`: what that means for renders of the objects, before and after.

What was listed is looked through again for blocks with keys of other objects. A text that spells the markers
of such a block is taken for one, and then the file is not its listing.
-/

namespace RecordExport

open RenderProgram

/-! ## 1. The texts of a language file -/

/-- A text of an object. -/
structure OwnedText where
  owner : GameObject
  source : KeySource

namespace OwnedText

/-- The text itself. -/
def text (x : OwnedText) : String := x.source.text x.owner

/-- How its key is requested under its owner's own type. -/
def request (x : OwnedText) : KeyRequest := x.source.request x.owner x.owner.type

/-- The key that a table gives for it. -/
def key (t : KeyTable) (x : OwnedText) : String := (t.request x.request).1

end OwnedText

/-- **The texts of objects that differ between languages**: of each object its name, and then the values of
    its fields that hold text. -/
def localTexts (os : List GameObject) : List OwnedText :=
  os.flatMap fun o => ⟨o, .name⟩ :: (o.fields.filter (·.isLocalizable)).map (⟨o, .field ·⟩)

theorem languageEntries_eq (os : List GameObject) :
    os.flatMap languageEntries = (localTexts os).map (·.request) := by
  unfold localTexts
  rw [List.map_flatMap]
  refine List.flatMap_congr fun o _ => ?_
  rw [List.map_cons, List.map_map]
  rfl

/-- **Texts of a language file are told apart by their ids.** -/
theorem nodup_localTexts {os : List GameObject} (hids : (os.map (·.id)).Nodup)
    (hfields : ∀ o ∈ os, (o.fields.map (·.id)).Nodup) :
    ((localTexts os).map fun x => x.request.identity).Nodup := by
  have howner : ∀ o : GameObject, ∀ i ∈ (⟨o, .name⟩ :: (o.fields.filter (·.isLocalizable)).map
      (⟨o, .field ·⟩) : List OwnedText).map (fun x => x.request.identity), i.1 = o.id := by
    intro o i hi
    obtain ⟨x, hx, rfl⟩ := List.mem_map.1 hi
    rcases List.mem_cons.1 hx with rfl | hx
    · rfl
    · obtain ⟨f, -, rfl⟩ := List.mem_map.1 hx
      rfl
  unfold localTexts
  rw [List.map_flatMap, List.nodup_flatMap]
  constructor
  · intro o ho
    have hsub : ((o.fields.filter (·.isLocalizable)).map (·.id)).Nodup :=
      (List.filter_sublist.map _).nodup (hfields o ho)
    have hmap : ((o.fields.filter (·.isLocalizable)).map fun f => (⟨o, .field f⟩ : OwnedText)).map
        (fun x => x.request.identity) =
        ((o.fields.filter (·.isLocalizable)).map (·.id)).map fun id => (o.id, some id) := by
      rw [List.map_map, List.map_map]
      rfl
    rw [List.map_cons, hmap, List.nodup_cons]
    constructor
    · intro hmem
      obtain ⟨id, -, hid⟩ := List.mem_map.1 hmem
      cases hid
    · exact hsub.map fun a b hab => Option.some.inj (Prod.mk.inj hab).2
  · refine (List.pairwise_map.1 hids).imp fun {o o'} hne => ?_
    rw [Function.onFun, List.disjoint_left]
    intro i hi hi'
    exact hne ((howner o i hi).symm.trans (howner o' i hi'))

/-! ## 2. What the table says of them -/

namespace KeyTable

variable {t : KeyTable} {rs : List KeyRequest} {r : KeyRequest}

/-- A request that was answered has the key that anyone is given who asks again. -/
theorem keyOf_after (ht : t.Consistent) (hr : r ∈ rs) :
    (t.after rs).keyOf r.identity = some ((t.after rs).request r).1 := by
  have hans := answers_answered ht rs
  rw [← map_fst_answered t rs] at hr
  obtain ⟨c, hc, rfl⟩ := List.mem_map.1 hr
  have hk : (t.after rs).keyOf c.1.identity = some c.2 := hans.stable c hc
  rw [request_of_keyOf_eq_some hk]
  exact hk

/-- Where requests with one identity are the same, a key stands for the text of its request. -/
theorem textOf_after (ht : t.Consistent)
    (hinj : ∀ r ∈ rs, ∀ r' ∈ rs, r.identity = r'.identity → r = r') (hr : r ∈ rs) :
    (t.after rs).textOf ((t.after rs).request r).1 = some r.value := by
  have hans := answers_answered ht rs
  have hcalls := map_fst_answered t rs
  have hkey := keyOf_after ht hr
  rw [← hcalls] at hr
  obtain ⟨c, hc, rfl⟩ := List.mem_map.1 hr
  obtain ⟨c', hc', hid, hlatest⟩ := exists_latest hc
  have hmem : ∀ c ∈ (t.answered rs).1, c.1 ∈ rs := fun c hc => hcalls ▸ List.mem_map_of_mem hc
  rw [hinj c'.1 (hmem c' hc') c.1 (hmem c hc) hid] at hlatest
  have htext := hans.texts _ _ hkey
  rw [hlatest, Option.some_or] at htext
  exact htext

end KeyTable

/-! ## 3. What is listed -/

/-- The names of places for keys in an entry. -/
def keyPlace : Pattern := .literal "LangKey_Key".toList

/-- An entry without its key: it knows where it stands and shows a text. -/
def entryFrame (settings : EscapeSettings) (inner : Text) (value : String) (p : ListPosition) : Text :=
  fill "LangKey_Value" .inline (settings.escape value.toList) (fillPosition "LangKey" p inner)

/-- An entry with the key that a table gives for its text. -/
def OwnedText.entry (settings : EscapeSettings) (inner : Text) (t : KeyTable) (x : OwnedText)
    (p : ListPosition) : Text :=
  fill "LangKey_Key" .inline (x.key t).toList (entryFrame settings inner x.text p)

/-- The requests for its key: one for each place. -/
def OwnedText.asked (settings : EscapeSettings) (inner : Text) (x : OwnedText) (p : ListPosition) :
    List KeyRequest :=
  (scalarsIn keyPlace (entryFrame settings inner x.text p)).map fun _ => x.request

/-- **The entries of a language file**, one for each text in their order. -/
def languageListing (settings : EscapeSettings) (os : List GameObject) (inner : Text) (t : KeyTable) : Text :=
  joinItems ((positioned (localTexts os)).map fun e => e.1.entry settings inner t e.2)

/-- The requests for their keys. -/
def listedRequests (settings : EscapeSettings) (os : List GameObject) (inner : Text) : List KeyRequest :=
  (positioned (localTexts os)).flatMap fun e => e.1.asked settings inner e.2

/-- A text with its keys of other objects listed. -/
def withReferenced (settings : EscapeSettings) (referenced : List LanguageKey) (t : Text) : Text :=
  expandBlocks (.ofStem "LangKeys_Referenced".toList)
    (gate "LangKeys_HasReferenced" (!referenced.isEmpty) t) referenced fun k p inner =>
      fill "LangKey_Key" .inline k.key.toList (entryFrame settings inner k.value p)

theorem positioned_map {α β : Type} (f : α → β) (l : List α) :
    positioned (l.map f) = (positioned l).map fun a => (f a.1, a.2) := by
  unfold positioned
  rw [List.zipIdx_map, List.map_map, List.map_map, List.length_map]
  rfl

section Fetching

variable {settings : EscapeSettings} {t T : KeyTable} {os : List GameObject}

theorem fetches_renderLanguageEntry (inner : Text) (x : OwnedText) (p : ListPosition)
    (hT : (t.after (x.asked settings inner p)).Precedes T) :
    (renderLanguageEntry x.request p inner).Fetches settings t (x.asked settings inner p)
      (x.entry settings inner T p) := by
  have hvalue : x.request.value = x.text := KeySource.value_request x.owner x.owner.type x.source
  unfold renderLanguageEntry
  rw [hvalue]
  exact (fetches_escaped _).then (fetches_fillKey hT)

/-- **The listing is fetched**: the keys of the entries, one after the other. -/
theorem fetches_languageListing (settings : EscapeSettings) (os : List GameObject) (inner : Text)
    (t : KeyTable) :
    (do
      let rendered ← (positioned (os.flatMap languageEntries)).mapM fun a => renderLanguageEntry a.1 a.2 inner
      pure (joinItems rendered) : RenderProgram Text).Fetches settings t (listedRequests settings os inner)
        (languageListing settings os inner (t.after (listedRequests settings os inner))) := by
  have hloop : ((positioned (localTexts os)).mapM fun e =>
      renderLanguageEntry e.1.request e.2 inner).Fetches settings t (listedRequests settings os inner)
        ((positioned (localTexts os)).map fun e =>
          e.1.entry settings inner (t.after (listedRequests settings os inner)) e.2) :=
    fetches_mapM (fun e _ _ ht => fetches_renderLanguageEntry inner e.1 e.2 ht) (KeyTable.precedes_refl _)
  have hjoined := hloop.bind (f := fun rendered => pure (joinItems rendered)) (fetches_pure _)
  rw [List.append_nil] at hjoined
  rw [languageEntries_eq, positioned_map, List.mapM_map]
  exact hjoined

theorem fetches_renderReferencedKey (k : LanguageKey) (p : ListPosition) (inner : Text) (t : KeyTable) :
    (renderReferencedKey k p inner).Fetches settings t []
      (fill "LangKey_Key" .inline k.key.toList (entryFrame settings inner k.value p)) :=
  (fetches_escaped _).then (fetches_pure _)

theorem fetches_withReferenced (referenced : List LanguageKey) (u : Text) :
    (expandBlocksM (.ofStem "LangKeys_Referenced".toList)
      (gate "LangKeys_HasReferenced" (!referenced.isEmpty) u) referenced renderReferencedKey).Fetches settings t
        [] (withReferenced settings referenced u) :=
  fetches_expandBlocksM fetches_renderReferencedKey (gate "LangKeys_HasReferenced" (!referenced.isEmpty) u)

/-- The blocks of a language file. -/
def langKeys : BlockFamily := .ofStem "LangKeys".toList

/-- **A language file with one block fetches the keys of its listing.** -/
theorem fetches_resolveLanguageFile {text : Text} {found : BlockMatch}
    (hfound : findBlock langKeys (tokenize text) = some found)
    (honly : findBlock langKeys (tokenize (Block.ofMatch [] found).tail) = none)
    (os : List GameObject) (referenced : List LanguageKey) (t : KeyTable) :
    let b := Block.ofMatch [] found
    let rs := listedRequests settings os b.inner
    (resolveLanguageFile os referenced text).Fetches settings t rs
      (withReferenced settings referenced
        (b.head ++ languageListing settings os b.inner (t.after rs) ++ b.tail)) := by
  intro b rs
  let renderAll (inner : Text) : RenderProgram Text := do
    let rendered ← (positioned (os.flatMap languageEntries)).mapM fun a => renderLanguageEntry a.1 a.2 inner
    pure (joinItems rendered)
  have hexpanded : expandBlocksM langKeys text (os.flatMap languageEntries) renderLanguageEntry =
      (do let listed ← renderAll b.inner; pure (b.head ++ listed ++ b.tail)) := expandBlocksM_of_only hfound honly _ _
  have hlisted := (fetches_languageListing settings os b.inner t).bind
    (f := fun listed => pure (b.head ++ listed ++ b.tail)) (fetches_pure _)
  rw [List.append_nil] at hlisted
  have hfile := hlisted.bind (f := fun u => expandBlocksM (.ofStem "LangKeys_Referenced".toList)
    (gate "LangKeys_HasReferenced" (!referenced.isEmpty) u) referenced renderReferencedKey)
    (fetches_withReferenced referenced _)
  rw [List.append_nil, ← hexpanded] at hfile
  exact hfile

end Fetching

/-! ## 4. The keys of a listing -/

/-- A place with another name is still there once a value went in. -/
theorem scalarsIn_fill_ne_nil {name other : String} (hne : name ≠ other) {u : Text}
    (h : scalarsIn (.literal name.toList) u ≠ []) (value : Text) :
    scalarsIn (.literal name.toList) (fill other .inline value u) ≠ [] := by
  obtain ⟨cs, hcs⟩ := List.exists_mem_of_ne_nil _ h
  obtain ⟨k, hk, hshape, hcaptures⟩ := mem_scalarsIn hcs
  have hname : k.name = name.toList := isMatch_literal_iff.1 (Option.isSome_iff_exists.2 ⟨cs, hcaptures⟩)
  have hstays : scalarCaptures (.literal other.toList) k = none := by
    refine Option.not_isSome_iff_eq_none.1 fun hsome => hne ?_
    unfold scalarCaptures at hsome
    rw [if_pos hshape] at hsome
    exact String.toList_inj.1 (hname.symm.trans (isMatch_literal_iff.1 hsome))
  cases k with
  | literal l => cases hshape
  | placeholder b =>
    obtain ⟨pre, post, hsplit⟩ := List.append_of_mem hk
    have hmem : Token.placeholder b ∈ tokenize (fill other .inline value u) := by
      unfold fill
      rw [replaceScalars_inline, hsplit, List.flatMap_append, List.flatMap_cons, hstays]
      show _ ∈ tokenize (_ ++ (braced b ++ _))
      rw [tokenize_append_braced _ (isBody_of_mem_tokenize hk)]
      exact List.mem_append_right _ List.mem_cons_self
    refine List.ne_nil_of_mem (a := cs) (List.mem_filterMap.2 ⟨_, hmem, ?_⟩)
    unfold scalarCaptures
    rw [if_pos hshape]
    exact hcaptures

/-- **The inner text of a block prints a key**, wherever in the listing it stands. -/
def PrintsKey (inner : Text) : Prop :=
  ∀ p, scalarsIn keyPlace (fillPosition "LangKey" p inner) ≠ []

section Listed

variable {settings : EscapeSettings} {os : List GameObject} {inner : Text}

theorem exists_of_mem_listedRequests {r : KeyRequest} (h : r ∈ listedRequests settings os inner) :
    ∃ x ∈ localTexts os, r = x.request := by
  obtain ⟨e, he, hr⟩ := List.mem_flatMap.1 h
  obtain ⟨-, -, rfl⟩ := List.mem_map.1 hr
  obtain ⟨a, ha, rfl⟩ := List.mem_map.1 he
  exact ⟨a.1, List.fst_mem_of_mem_zipIdx ha, rfl⟩

theorem mem_listedRequests (hkey : PrintsKey inner) {x : OwnedText} (hx : x ∈ localTexts os) :
    x.request ∈ listedRequests settings os inner := by
  obtain ⟨i, hi⟩ := List.mem_iff_getElem?.1 hx
  let p : ListPosition := ⟨i, (localTexts os).length⟩
  have hp : (x, p) ∈ positioned (localTexts os) :=
    List.mem_map_of_mem (f := fun a : OwnedText × Nat => (a.1, (⟨a.2, (localTexts os).length⟩ : ListPosition)))
      (List.mk_mem_zipIdx_iff_getElem?.2 hi)
  have hplaces : scalarsIn keyPlace (entryFrame settings inner x.text p) ≠ [] :=
    scalarsIn_fill_ne_nil (by decide) (hkey p) _
  obtain ⟨cs, hcs⟩ := List.exists_mem_of_ne_nil _ hplaces
  exact List.mem_flatMap.2 ⟨_, hp, List.mem_map.2 ⟨cs, hcs, rfl⟩⟩

end Listed

/-! ## 5. Templates -/

/-- A key is printed if a place for it stands outside all blocks. -/
theorem printsKey_of_avoids {inner : Text} (h : inner.Avoids "LangKey_Is".toList)
    (hkey : scalarsIn keyPlace inner ≠ []) : PrintsKey inner := by
  have hgate : ∀ stem : String, "LangKey_Is".toList <+: stem.toList → ∀ kept, gate stem kept inner = inner :=
    fun _ hstem kept => gate_of_avoids h hstem kept
  intro p
  have hplaces : scalarsIn keyPlace (fill "LangKey_Index" .inline (Json.decimal p.index) inner) ≠ [] :=
    scalarsIn_fill_ne_nil (by decide) hkey _
  unfold fillPosition
  simp only [hgate ("LangKey" ++ "_IsFirst") (by decide), hgate ("LangKey" ++ "_IsNotFirst") (by decide),
    hgate ("LangKey" ++ "_IsLast") (by decide), hgate ("LangKey" ++ "_IsNotLast") (by decide)]
  exact hplaces

/-- **A template of a language file** with one list of texts, which are shown with their keys. -/
structure LanguageTemplate where
  text : Text
  found : BlockMatch
  finds : findBlock langKeys (tokenize text) = some found
  only : findBlock langKeys (tokenize (Block.ofMatch [] found).tail) = none
  printsKey : PrintsKey (Block.ofMatch [] found).inner

namespace LanguageTemplate

/-- The list. -/
def block (T : LanguageTemplate) : Block := Block.ofMatch [] T.found

/-- The built-in template. -/
def builtIn : LanguageTemplate where
  text := BuiltIn.template .languageFile
  found := (findBlock langKeys (tokenize (BuiltIn.template .languageFile))).get (by decide +kernel)
  finds := (Option.some_get _).symm
  only := by decide +kernel
  printsKey := printsKey_of_avoids (avoids_iff.2 (by decide +kernel)) (by decide +kernel)

end LanguageTemplate

/-! ## 6. Renders of language files -/

/-- The objects whose texts a language file about a subject lists. -/
def Subject.listed? : Subject → Option (List GameObject)
  | .object o => some [o]
  | .objects os => some os
  | _ => none

theorem Resolver.resolve_of_listed {c : RenderContext} {os : List GameObject}
    (h : c.subject.listed? = some os) (kind : ArtifactKind) (t : Text) :
    Resolver.language.resolve kind c t = resolveLanguageFile os c.referencedKeys t := by
  unfold Resolver.language
  dsimp only
  cases hs : c.subject with
  | object o =>
    rw [hs] at h
    rw [← Option.some.inj h]
  | objects os' =>
    rw [hs] at h
    rw [← Option.some.inj h]
  | _ =>
    rw [hs] at h
    cases h

/-- Without blocks for keys of other objects none are listed. -/
theorem withReferenced_of_no_block {settings : EscapeSettings} {referenced : List LanguageKey} {t : Text}
    (hgate : findBlock (.ofStem "LangKeys_HasReferenced".toList) (tokenize t) = none)
    (hlist : findBlock (.ofStem "LangKeys_Referenced".toList) (tokenize t) = none) :
    withReferenced settings referenced t = t := by
  have hgated : gate "LangKeys_HasReferenced" (!referenced.isEmpty) t = t :=
    (walksBy_keepFrom (m := Id) _ _).ends hgate
  unfold withReferenced
  rw [hgated]
  exact (walksBy_expandFrom (m := Id) _ _).ends hlist

section Sharing

variable (p : Project) (registry : TemplateRegistry) (config : Config) (n : Nat)

/-- **Objects and a language file share their keys**, where the file was rendered from one table to another:
    the keys of the file are those of the objects' own renders, before it and after it. -/
structure SharesKeys (os : List GameObject) (t t' : KeyTable) : Prop where
  /-- no two texts have one key -/
  distinct : ((localTexts os).map (·.key t')).Nodup
  /-- each key stands for its text -/
  text : ∀ x ∈ localTexts os, t'.textOf (x.key t') = some x.text
  /-- whoever asks for a text is given its key -/
  asked : ∀ x ∈ localTexts os, ∀ (r : KeyRequest) (t₀ : KeyTable), r.identity = x.request.identity →
    (t₀.request r).2.Precedes t ∨ t'.Precedes t₀ → (t₀.request r).1 = x.key t'
  /-- so is a render that asks for it, whatever it renders of which object -/
  rendered : ∀ x ∈ localTexts os, ∀ (kind : ArtifactKind) (o : GameObject) (type : ObjectType)
    (referenced : List LanguageKey) (template : Text) (t₀ : KeyTable) (cancelled : Bool), t₀.Consistent →
      let services := Services.inMemory p registry config
      let plain := (Engine.standard services n).render kind ⟨.object o, type, referenced⟩ template t₀ cancelled
      let noted := (Engine.standard services.noted n).render kind ⟨.object o, type, referenced⟩ template
        (t₀, []) cancelled
      plain.2.Precedes t ∨ t'.Precedes t₀ →
        noted.1 = plain.1 ∧ ∀ c ∈ noted.2.2, c.1.identity = x.request.identity → c.2 = x.key t'
  /-- and a render of the text's owner prints it in the place of each of the text's names -/
  printed : ∀ x ∈ localTexts os, ∀ (kind : ArtifactKind) (space : String) (c : RenderContext) (u : LonePlace)
    (t₀ : KeyTable), kind.space? = some space → c.subject = .object x.owner →
      x.source.IsNamed x.owner space u.name → KeyTable.empty.Precedes t₀ →
        let out := (Engine.standard (Services.inMemory p registry config) n).render kind c u.text t₀ false
        out.2.Precedes t ∨ t'.Precedes t₀ →
          ∃ diagnostics, out.1 = .ok ⟨u.filled (x.key t').toList, diagnostics⟩

section Around

variable {t t' t₀ t₁ : KeyTable} {i : String × Option String} {k k₁ : String} (h : t.Precedes t')
  (hk : t'.keyOf i = some k)
include h hk

/-- An identity has one key, before and after. -/
theorem KeyTable.eq_of_keyOf_around (h₁ : t₀.Precedes t₁) (hk₁ : t₁.keyOf i = some k₁)
    (hwhen : t₁.Precedes t ∨ t'.Precedes t₀) : k₁ = k := by
  rcases hwhen with hbefore | hafter
  · exact Option.some.inj (((hbefore.trans h).keyOf hk₁).symm.trans hk)
  · exact Option.some.inj (hk₁.symm.trans ((hafter.trans h₁).keyOf hk))

theorem KeyTable.request_eq_around {r : KeyRequest} (hr : r.identity = i)
    (hwhen : (t₀.request r).2.Precedes t ∨ t'.Precedes t₀) : (t₀.request r).1 = k := by
  refine eq_of_keyOf_around h hk (t₀.precedes_request r) ?_ hwhen
  rw [keyOf_request, if_pos hr.symm]

/-- A render that asks for the identity is given its key. -/
theorem noted_eq_around (o : GameObject) (type : ObjectType) (referenced : List LanguageKey)
    (kind : ArtifactKind) (template : Text) (ht₀ : t₀.Consistent) (cancelled : Bool) :
    let services := Services.inMemory p registry config
    let plain := (Engine.standard services n).render kind ⟨.object o, type, referenced⟩ template t₀ cancelled
    let noted := (Engine.standard services.noted n).render kind ⟨.object o, type, referenced⟩ template
      (t₀, []) cancelled
    plain.2.Precedes t ∨ t'.Precedes t₀ →
      noted.1 = plain.1 ∧ ∀ c ∈ noted.2.2, c.1.identity = i → c.2 = k := by
  intro services plain noted hwhen
  obtain ⟨hout, hnoted⟩ := noted_render p registry config n o type referenced kind template ht₀ cancelled
  have hrender : t₀.Precedes plain.2 :=
    Engine.precedes_render p registry config n kind ⟨.object o, type, referenced⟩ template t₀ cancelled
  refine ⟨hout, fun c hc hid => KeyTable.eq_of_keyOf_around h hk hrender ?_ hwhen⟩
  rw [← hid, ← hnoted.same]
  exact hnoted.answers.stable c hc

/-- A render that has a place for it prints its key. -/
theorem printed_around {kind : ArtifactKind} {space : String} {c : RenderContext} {u : LonePlace}
    {o : GameObject} {s : KeySource} (hi : (s.request o c.objectType).identity = i)
    (hspace : kind.space? = some space) (hsubject : c.subject = .object o) (hs : s.IsNamed o space u.name)
    (ht₀ : KeyTable.empty.Precedes t₀) :
    let out := (Engine.standard (Services.inMemory p registry config) n).render kind c u.text t₀ false
    out.2.Precedes t ∨ t'.Precedes t₀ → ∃ diagnostics, out.1 = .ok ⟨u.filled k.toList, diagnostics⟩ := by
  intro out hwhen
  obtain ⟨diagnostics, hout⟩ := Engine.render_lonePlace p registry config n hspace hsubject hs ht₀
  have hout : out = _ := hout
  rw [hout] at hwhen ⊢
  rw [KeyTable.request_eq_around h hk hi hwhen]
  exact ⟨diagnostics, rfl⟩

end Around

/-- **Requests for the texts of objects make their keys shared**, whatever was asked for before. -/
theorem sharesKeys_of_requests {os : List GameObject} (hids : (os.map (·.id)).Nodup)
    (hfields : ∀ o ∈ os, (o.fields.map (·.id)).Nodup) {t : KeyTable} (ht : KeyTable.empty.Precedes t)
    {rs : List KeyRequest} (hrs : ∀ x ∈ localTexts os, x.request ∈ rs)
    (honly : ∀ r ∈ rs, ∃ x ∈ localTexts os, r = x.request) :
    SharesKeys p registry config n os t (t.after rs) := by
  have hcons : t.Consistent := ht.consistent KeyTable.consistent_empty
  have hidentity := List.inj_on_of_nodup_map (nodup_localTexts hids hfields)
  have hsame : ∀ r ∈ rs, ∀ r' ∈ rs, r.identity = r'.identity → r = r' := by
    intro r hr r' hr' heq
    obtain ⟨x, hx, rfl⟩ := honly r hr
    obtain ⟨y, hy, rfl⟩ := honly r' hr'
    rw [hidentity hx hy heq]
  have hlater := t.precedes_after rs
  have hkey : ∀ x ∈ localTexts os, (t.after rs).keyOf x.request.identity = some (x.key (t.after rs)) :=
    fun x hx => KeyTable.keyOf_after hcons (hrs x hx)
  constructor
  case distinct =>
    refine (List.Nodup.of_map _ (nodup_localTexts hids hfields)).map_on fun x hx y hy hxy => ?_
    have hy' := hkey y hy
    rw [← hxy] at hy'
    exact hidentity hx hy ((hlater.consistent hcons).injective (hkey x hx) hy')
  case text =>
    intro x hx
    have htext := KeyTable.textOf_after hcons hsame (hrs x hx)
    rw [show x.request.value = x.text from x.source.value_request x.owner x.owner.type] at htext
    exact htext
  case asked =>
    intro x hx r t₀ hr hwhen
    exact KeyTable.request_eq_around hlater (hkey x hx) hr hwhen
  case rendered =>
    intro x hx kind o type referenced template t₀ cancelled ht₀ services plain noted hwhen
    exact noted_eq_around p registry config n hlater (hkey x hx) o type referenced kind template ht₀ cancelled
      hwhen
  case printed =>
    intro x hx kind space c u t₀ hspace hsubject hnamed ht₀ out hwhen
    have hid : (x.source.request x.owner c.objectType).identity = x.request.identity :=
      (x.source.identity_request x.owner _).trans (x.source.identity_request x.owner _).symm
    exact printed_around p registry config n hlater (hkey x hx) hid hspace hsubject hnamed ht₀ hwhen

/-- **A language file lists every text of its objects with the key that the objects' own renders print.** -/
theorem languageFile_sharesKeys (T : LanguageTemplate) {c : RenderContext} {os : List GameObject}
    (hlisted : c.subject.listed? = some os) (hids : (os.map (·.id)).Nodup)
    (hfields : ∀ o ∈ os, (o.fields.map (·.id)).Nodup) {t : KeyTable} (ht : KeyTable.empty.Precedes t) :
    let e := Engine.standard (Services.inMemory p registry config) n
    let t' := t.after (listedRequests config.escape os T.block.inner)
    let listed := T.block.head ++ languageListing config.escape os T.block.inner t' ++ T.block.tail
    (∃ diagnostics, e.render .languageFile c T.text t false =
      (.ok ⟨withReferenced config.escape c.referencedKeys listed, diagnostics⟩, t')) ∧
      (findBlock (.ofStem "LangKeys_HasReferenced".toList) (tokenize listed) = none →
        findBlock (.ofStem "LangKeys_Referenced".toList) (tokenize listed) = none →
          withReferenced config.escape c.referencedKeys listed = listed) ∧
      SharesKeys p registry config n os t t' ∧
      ∀ (kind : ArtifactKind) (c : RenderContext) (text : Text) (t : KeyTable) (cancelled : Bool),
        t.Precedes (e.render kind c text t cancelled).2 := by
  intro e t' listed
  have hfetched : (Resolver.language.resolve .languageFile c T.text).Fetches config.escape t
      (listedRequests config.escape os T.block.inner)
      (withReferenced config.escape c.referencedKeys listed) := by
    rw [Resolver.resolve_of_listed hlisted]
    exact fetches_resolveLanguageFile T.finds T.only os c.referencedKeys t
  have happlicable : e.applicable .languageFile = [] ++ [.language] := by
    rw [Engine.applicable_standard]
    rfl
  refine ⟨?_, withReferenced_of_no_block, ?_, Engine.precedes_render p registry config n⟩
  · exact Engine.render_of_fetches happlicable (fun r hr => absurd hr List.not_mem_nil) hfetched
  · exact sharesKeys_of_requests p registry config n hids hfields ht
      (fun x hx => mem_listedRequests T.printsKey hx) fun r hr => exists_of_mem_listedRequests hr

end Sharing

/-- Two guards with one name, of whose texts two would have the same key. -/
def guards : List GameObject :=
  [⟨"a", "Guard", .npc, [⟨"1", "Greeting", .text, "Halt", []⟩, ⟨"2", "Age", .number, "30", []⟩],
      [], [], [], []⟩,
    ⟨"b", "Guard", .npc, [⟨"1", "Greeting", .multiLineText, "Go", ["Hail"]⟩], [], [], [], []⟩]

/-- Their language file, rendered after the key of a third guard was asked for. -/
def guardsFile : Text :=
  ("return \x7b\n    Npc_Guard_Name_2 = \"Guard\",\n    Npc_Guard_Greeting = \"Halt\",\n" ++
    "    Npc_Guard_Name_3 = \"Guard\",\n    Npc_Guard_Greeting_2 = \"Go\",\n\x7d\n").toList

theorem languageFile_sharesKeys_guards :
    let T := LanguageTemplate.builtIn
    let t := KeyTable.empty.after [.forName "c" "Guard" .npc]
    let t' := t.after (listedRequests Config.standard.escape guards T.block.inner)
    let e := Engine.standard (Services.inMemory ⟨guards, []⟩ .builtIn .standard) 16
    (guards.map (·.id)).Nodup ∧ (∀ o ∈ guards, (o.fields.map (·.id)).Nodup) ∧
      (∃ diagnostics, e.render .languageFile (.of (.objects guards) .npc) T.text t false =
        (.ok ⟨guardsFile, diagnostics⟩, t')) ∧
      SharesKeys ⟨guards, []⟩ .builtIn .standard 16 guards t t' := by
  intro T t t' e
  have hids : (guards.map (·.id)).Nodup := by decide
  have hfields : ∀ o ∈ guards, (o.fields.map (·.id)).Nodup := by decide
  have h := languageFile_sharesKeys ⟨guards, []⟩ .builtIn .standard 16 T
    (c := .of (.objects guards) .npc) rfl hids hfields (KeyTable.precedes_after _ [.forName "c" "Guard" .npc])
  have htext : withReferenced Config.standard.escape []
      (T.block.head ++ languageListing Config.standard.escape guards T.block.inner t' ++ T.block.tail) =
        guardsFile := by
    decide +kernel
  refine ⟨hids, hfields, ?_, h.2.2.1⟩
  rw [← htext]
  exact h.1

end RecordExport
