import RecordExport.Proofs.Fields.Usage
import RecordExport.Proofs.Render.Coupling
import RecordExport.Proofs.Template.SealedBlocks
/-!
# What the texts of a record can do

The texts of a record are put where placeholders stood. As long as none of them can make a placeholder, two
objects whose fields have the same names, aliases, types and ids are resolved side by side: what is asked for
and what is reported is the same but for the texts.

* `SameShape`: objects that differ in their id, their name and the values of their fields;
* `Harmless`: the texts that make no placeholder where they are put into a sealed template;
* `resolveObject_couples`: the programs of such objects go side by side;
* `resolveObject_shape`: they report the same number of problems of each kind and ask for as many keys and
  listings.
-/

namespace RecordExport

open RenderProgram

/-! ## 1. Objects of one shape -/

/-- Two fields that differ in their value. -/
structure SameField (f f' : Field) : Prop where
  id : f.id = f'.id
  name : f.name = f'.name
  type : f.type = f'.type
  aliases : f.aliases = f'.aliases

/-- **Two objects whose fields differ in their values only.** -/
def SameShape (o o' : GameObject) : Prop := List.Forall₂ SameField o.fields o'.fields

variable {o o' : GameObject}

/-- A name leads to a field of both or of neither. -/
theorem SameShape.field? (h : SameShape o o') (name : Text) :
    (∃ f ∈ o.fields, ∃ f' ∈ o'.fields, o.field? name = some f ∧ o'.field? name = some f' ∧
        SameField f f') ∨
      (o.field? name = none ∧ o'.field? name = none) := by
  unfold SameShape at h
  unfold GameObject.field?
  generalize o.fields = fs, o'.fields = fs' at h ⊢
  induction h with
  | nil => exact .inr ⟨rfl, rfl⟩
  | @cons f f' fs fs' hf _ ih =>
    have hnamed : f.isNamed name = f'.isNamed name := by
      unfold Field.isNamed
      rw [hf.name, hf.aliases]
    rw [List.find?_cons, List.find?_cons, ← hnamed]
    cases f.isNamed name with
    | true => exact .inl ⟨f, List.mem_cons_self, f', List.mem_cons_self, rfl, rfl, hf⟩
    | false =>
      rcases ih with ⟨g, hg, g', hg', hfind, hfind', hsame⟩ | hnone
      · exact .inl ⟨g, List.mem_cons_of_mem _ hg, g', List.mem_cons_of_mem _ hg', hfind, hfind', hsame⟩
      · exact .inr hnone

theorem SameShape.isSome_field? (h : SameShape o o') (name : Text) :
    (o.field? name).isSome = (o'.field? name).isSome := by
  rcases h.field? name with ⟨f, -, f', -, hf, hf', -⟩ | ⟨hf, hf'⟩
  · rw [hf, hf']
    rfl
  · rw [hf, hf']

theorem SameShape.reachedFields (h : SameShape o o') (names : List (List Text)) :
    RecordExport.reachedFields o names = RecordExport.reachedFields o' names := by
  unfold RecordExport.reachedFields
  refine List.filterMap_congr fun captures _ => ?_
  rcases h.field? (firstCapture captures) with ⟨f, -, f', -, hf, hf', hsame⟩ | ⟨hf, hf'⟩
  · rw [hf, hf', Option.map_some, Option.map_some, hsame.id]
  · rw [hf, hf']

theorem SameShape.ids (h : SameShape o o') : o.fields.map (·.id) = o'.fields.map (·.id) := by
  have hids : ∀ {fs fs' : List Field}, List.Forall₂ SameField fs fs' →
      fs.map (·.id) = fs'.map (·.id) := by
    intro fs fs' hfs
    induction hfs with
    | nil => rfl
    | cons hf _ ih => rw [List.map_cons, List.map_cons, hf.id, ih]
  exact hids h

/-! ## 2. Texts of a record -/

/-- The value of a field as it is written. -/
def Field.written (s : EscapeSettings) (f : Field) : Text :=
  if f.isNumber then Text.trim f.value.toList else s.escape f.value.toList

/-- **No text of an object can make a placeholder**, as it is written. -/
structure HarmlessObject (s : EscapeSettings) (o : GameObject) : Prop where
  id : Harmless o.id.toList
  name : Harmless (s.escape o.name.toList)
  /-- the name as it stands in what is written for a missing field -/
  missing : unopened o.name.toList = true
  values : ∀ f ∈ o.fields, Harmless (f.written s)

/-- No answer can make a placeholder; values are escaped in this way. -/
def HarmlessAnswer (s : EscapeSettings) : (r : RenderOp) → r.Answer → Prop
  | .settings, given => given = s
  | .languageKey _, key => Harmless key.toList
  | .artifact _ _ _, t => Harmless t
  | _, _ => True

/-- What is written for a missing field makes no placeholder. -/
theorem harmless_missingMarker {subject : String} (h : unopened subject.toList = true) {field : Text}
    (hf : '{' ∉ field) : Harmless (missingMarker subject (String.ofList field)).toList := by
  have hmarker : (missingMarker subject (String.ofList field)).toList =
      ['<', '<'] ++ (subject.toList ++ ('[' :: (field ++ "] MISSING>>".toList))) := by
    simp [missingMarker]
  have hrest : '{' ∉ '[' :: (field ++ "] MISSING>>".toList) := by
    simp [hf]
  rw [hmarker]
  constructor
  · refine unopened_append.2 ⟨rfl, fun hl => by simp at hl, unopened_append.2 ⟨h, fun _ => ?_, ?_⟩⟩
    · simp
    · exact unopened_of_not_mem hrest
  · intro hl
    have hlast : ink (['<', '<'] ++ (subject.toList ++ ('[' :: (field ++ "] MISSING>>".toList)))) =
        ink (['<', '<'] ++ (subject.toList ++ ('[' :: field))) ++ ink "] MISSING>>".toList := by
      rw [← ink_append]
      simp
    rw [hlast, List.getLast?_append] at hl
    have hend : (ink "] MISSING>>".toList).getLast? = some '>' := by decide
    rw [hend] at hl
    cases hl

/-! ## 3. Texts with the same placeholders -/

/-- Two sealed texts with the same placeholders. -/
def SealedAlike (t t' : Text) : Prop := ∃ bs, Sealed bs t ∧ Sealed bs t'

namespace SealedAlike

variable {t t' : Text}

theorem scalarsIn (h : SealedAlike t t') (p : Pattern) :
    RecordExport.scalarsIn p t = RecordExport.scalarsIn p t' := by
  obtain ⟨bs, ht, ht'⟩ := h
  rw [scalarsIn_sealed p ht, scalarsIn_sealed p ht']

theorem placeValues (h : SealedAlike t t') {p : Pattern} (placement : Placement) {vs vs' : List Text}
    (hvs : List.Forall₂ (fun v v' => Harmless v ∧ Harmless v') vs vs')
    (hlength : vs.length = (RecordExport.scalarsIn p t).length) :
    SealedAlike (RecordExport.placeValues p placement vs t)
      (RecordExport.placeValues p placement vs' t') := by
  have hlength' : vs'.length = (RecordExport.scalarsIn p t').length := by
    rw [← hvs.length_eq, ← h.scalarsIn, hlength]
  have hharmless : (∀ v ∈ vs, Harmless v) ∧ ∀ v ∈ vs', Harmless v := by
    clear hlength hlength'
    induction hvs with
    | nil => exact ⟨fun _ hv => (List.not_mem_nil hv).elim, fun _ hv => (List.not_mem_nil hv).elim⟩
    | cons hv _ ih => exact ⟨List.forall_mem_cons.2 ⟨hv.1, ih.1⟩, List.forall_mem_cons.2 ⟨hv.2, ih.2⟩⟩
  obtain ⟨bs, ht, ht'⟩ := h
  exact ⟨_, ht.placeValues placement hharmless.1 hlength, ht'.placeValues placement hharmless.2 hlength'⟩

theorem fill (h : SealedAlike t t') (name : String) (placement : Placement) {v v' : Text}
    (hv : Harmless v) (hv' : Harmless v') :
    SealedAlike (RecordExport.fill name placement v t) (RecordExport.fill name placement v' t') := by
  unfold RecordExport.fill
  rw [replaceScalars_eq, replaceScalars_eq, ← h.scalarsIn]
  refine h.placeValues placement ?_ (List.length_map _)
  induction RecordExport.scalarsIn (.literal name.toList) t with
  | nil => exact .nil
  | cons _ _ ih => exact .cons ⟨hv, hv'⟩ ih

theorem keepBlocks (h : SealedAlike t t') (f : BlockFamily) (decision : List Text → Bool) :
    SealedAlike (RecordExport.keepBlocks f t decision) (RecordExport.keepBlocks f t' decision) := by
  obtain ⟨bs, ht, ht'⟩ := h
  obtain ⟨left, -, hl, hl'⟩ := keepBlocks_sealed f decision ht ht'
  exact ⟨left, hl, hl'⟩

end SealedAlike

/-! ## 4. Side by side -/

/-- Two requests of one kind. -/
inductive SameRequest : RenderOp → RenderOp → Prop
  | key (r r' : KeyRequest) : SameRequest (.languageKey r) (.languageKey r')
  | listing (label : String) (c c' : RenderContext) :
      SameRequest (.artifact .fieldList c label) (.artifact .fieldList c' label)
  | record (kind : DiagnosticKind) (detail detail' : String) :
      SameRequest (.record kind detail) (.record kind detail')
  | settings : SameRequest .settings .settings

/-- Requests of one kind, answered by harmless texts; nothing fails. -/
def harmlessRequests (s : EscapeSettings) : Coupling where
  asks := SameRequest
  answers r r' x x' := HarmlessAnswer s r x ∧ HarmlessAnswer s r' x'
  text _ _ := True
  fails _ := False

variable {s : EscapeSettings}

/-- Two programs that give harmless texts side by side. -/
abbrev GiveHarmless (s : EscapeSettings) (p p' : RenderProgram Text) : Prop :=
  Couples (harmlessRequests s) (fun v v' => Harmless v ∧ Harmless v') p p'

theorem couples_escaped {v v' : Text} :
    Couples (harmlessRequests s) (fun w w' => w = s.escape v ∧ w' = s.escape v') (escaped v)
      (escaped v') := by
  refine (couples_request (C := harmlessRequests s) SameRequest.settings).bind fun a a' ha => couples_pure ?_
  obtain ⟨rfl, rfl⟩ := ha
  exact ⟨rfl, rfl⟩

theorem couples_languageKey (r r' : KeyRequest) :
    GiveHarmless s (languageKey r) (languageKey r') :=
  (couples_request (C := harmlessRequests s) (SameRequest.key r r')).bind fun _ _ hk => couples_pure hk

theorem couples_missing {subject subject' : String} (h : unopened subject.toList = true)
    (h' : unopened subject'.toList = true) {field : Text} (hf : '{' ∉ field) :
    GiveHarmless s (missing subject field) (missing subject' field) :=
  (couples_request (C := harmlessRequests s) (SameRequest.record .missingReference _ _)).bind fun _ _ _ =>
    couples_pure ⟨harmless_missingMarker h hf, harmless_missingMarker h' hf⟩

theorem couples_listing (label : String) (o o' : GameObject) (type : ObjectType)
    (fs fs' : List Field) :
    GiveHarmless s (listing label o type fs) (listing label o' type fs') :=
  couples_request (C := harmlessRequests s) (SameRequest.listing label _ _)

/-! ## 5. Passes over an object -/

/-- Captures without braces. -/
abbrev Braceless (captures : List Text) : Prop := ∀ c ∈ captures, '{' ∉ c

theorem not_mem_firstCapture {captures : List Text} (h : Braceless captures) :
    '{' ∉ firstCapture captures := by
  cases captures with
  | nil => exact List.not_mem_nil
  | cons c captures => exact h c List.mem_cons_self

section Passes

variable (hshape : SameShape o o') (ho : HarmlessObject s o) (ho' : HarmlessObject s o') {t t' : Text}

include hshape ho ho' in
theorem couples_giveField {give give' : Field → RenderProgram Text}
    (hgive : ∀ f ∈ o.fields, ∀ f' ∈ o'.fields, SameField f f' → GiveHarmless s (give f) (give' f'))
    {captures : List Text} (hc : Braceless captures) :
    GiveHarmless s (giveField o give captures) (giveField o' give' captures) := by
  unfold giveField
  rcases hshape.field? (firstCapture captures) with ⟨f, hf, f', hf', hfind, hfind', hsame⟩ | ⟨hn, hn'⟩
  · rw [hfind, hfind']
    exact hgive f hf f' hf' hsame
  · rw [hn, hn']
    exact couples_missing ho.missing ho'.missing (not_mem_firstCapture hc)

include hshape ho ho' in
/-- The values of all scalars of a kind, as many as there are. -/
theorem couples_giveFields {give give' : Field → RenderProgram Text}
    (hgive : ∀ f ∈ o.fields, ∀ f' ∈ o'.fields, SameField f f' → GiveHarmless s (give f) (give' f'))
    (ps : List NamePart) (t : Text) :
    Couples (harmlessRequests s)
      (fun vs vs' => List.Forall₂ (fun v v' => Harmless v ∧ Harmless v') vs vs' ∧
        vs.length = (scalarsIn (.parts ps) t).length)
      ((scalarsIn (.parts ps) t).mapM (giveField o give))
      ((scalarsIn (.parts ps) t).mapM (giveField o' give')) := by
  refine (pairedBy_couples _).mapM (S := fun cs cs' => cs = cs' ∧ Braceless cs) ?_
    (List.forall₂_same.2 fun cs hcs => ⟨rfl, not_mem_of_mem_scalarsIn hcs⟩)
  rintro cs _ ⟨rfl, hcs⟩
  exact couples_giveField hshape ho ho' hgive hcs

include ho ho' in
theorem couples_fieldValue {f f' : Field} (hf : f ∈ o.fields) (hf' : f' ∈ o'.fields)
    (hsame : SameField f f') : GiveHarmless s (fieldValue f) (fieldValue f') := by
  have hnumber : f.isNumber = f'.isNumber := by
    unfold Field.isNumber
    rw [hsame.type]
  have hv := ho.values f hf
  have hv' := ho'.values f' hf'
  unfold Field.written at hv hv'
  unfold fieldValue
  rw [← hnumber] at hv' ⊢
  cases hn : f.isNumber with
  | true =>
    rw [hn] at hv hv'
    exact couples_pure ⟨hv, hv'⟩
  | false =>
    rw [hn] at hv hv'
    refine couples_escaped.mono fun w w' hw => ?_
    rw [hw.1, hw.2]
    exact ⟨hv, hv'⟩

include hshape in
/-- Conditions on fields are settled alike. Without comparisons the values do not matter. -/
theorem couples_settle {space : String} {bs : List Text} {t₀ : Text} (ht₀ : Sealed bs t₀)
    (hnotEquals : findBlock (FieldPlaceholder.notEquals space) (tokenize t₀) = none)
    (hequals : findBlock (FieldPlaceholder.equals space) (tokenize t₀) = none) (c : FieldCondition)
    (h : ∃ bs', bs'.Sublist bs ∧ Sealed bs' t ∧ Sealed bs' t') :
    Couples (harmlessRequests s) (fun t t' => ∃ bs', bs'.Sublist bs ∧ Sealed bs' t ∧ Sealed bs' t')
      (c.settle o space t) (c.settle o' space t') := by
  obtain ⟨bs', hsub, ht, ht'⟩ := h
  have hkeep : ∀ (f : BlockFamily) (d : List Text → Bool),
      Couples (harmlessRequests s) (fun t t' => ∃ bs', bs'.Sublist bs ∧ Sealed bs' t ∧ Sealed bs' t')
        (keepBlocksM f t fun cs => (pure (d cs) : RenderProgram Bool))
        (keepBlocksM f t' fun cs => (pure (d cs) : RenderProgram Bool)) := by
    intro f d
    obtain ⟨left, hleft, hl, hl'⟩ := keepBlocks_sealed f d ht ht'
    rw [keepBlocksM_pure, keepBlocksM_pure]
    exact couples_pure ⟨left, hleft.trans hsub, hl, hl'⟩
  have hpass : ∀ {f : BlockFamily} (d d' : List Text → RenderProgram Bool),
      findBlock f (tokenize t₀) = none →
        Couples (harmlessRequests s) (fun t t' => ∃ bs', bs'.Sublist bs ∧ Sealed bs' t ∧ Sealed bs' t')
          (keepBlocksM f t d) (keepBlocksM f t' d') := by
    intro f d d' hnone
    rw [keepBlocksM_eq, keepBlocksM_eq,
      (walksBy_keepFrom f d).ends (ht₀.findBlock_sublist ht hsub hnone),
      (walksBy_keepFrom f d').ends (ht₀.findBlock_sublist ht' hsub hnone)]
    exact couples_pure ⟨bs', hsub, ht, ht'⟩
  cases c with
  | has =>
    have hdecision : FieldCondition.decision o .has = FieldCondition.decision o' .has :=
      funext fun cs => congrArg pure (hshape.isSome_field? _)
    unfold FieldCondition.settle
    rw [← hdecision]
    exact hkeep _ _
  | hasNot =>
    have hdecision : FieldCondition.decision o .hasNot = FieldCondition.decision o' .hasNot :=
      funext fun cs => congrArg pure (by
        rw [← Option.not_isSome, ← Option.not_isSome, hshape.isSome_field?])
    unfold FieldCondition.settle
    rw [← hdecision]
    exact hkeep _ _
  | notEquals => exact hpass _ _ hnotEquals
  | equals => exact hpass _ _ hequals

include ho ho' in
theorem couples_fillIdentity (type : ObjectType) (space : String) (h : SealedAlike t t') :
    Couples (harmlessRequests s) SealedAlike (fillIdentity o type space t)
      (fillIdentity o' type space t') := by
  refine couples_escaped.bind fun name name' hname => ?_
  rw [hname.1, hname.2]
  have hfilled := (h.fill (space ++ "_Id") .inline ho.id ho'.id).fill (space ++ "_Name") .inline ho.name
    ho'.name
  unfold fillKey
  rw [replaceScalarsM_eq, replaceScalarsM_eq, ← hfilled.scalarsIn]
  refine Couples.bind ((pairedBy_couples _).mapM (S := fun _ _ => True)
    (fun _ _ _ => couples_languageKey _ _) (List.forall₂_same.2 fun _ _ => trivial)) fun vs vs' hvs => ?_
  exact couples_pure (hfilled.placeValues .inline hvs.1 hvs.2)

theorem couples_fillAll (label : String) (type : ObjectType) (fs fs' : List Field)
    (h : SealedAlike t t') :
    Couples (harmlessRequests s) SealedAlike (fillAll label (listing label o type fs) t)
      (fillAll label (listing label o' type fs') t') := by
  unfold fillAll
  rw [← h.scalarsIn]
  split
  · exact couples_pure h
  · exact (couples_listing label o o' type fs fs').bind fun v v' hv =>
      couples_pure (h.fill label .fitted hv.1 hv.2)

include hshape in
theorem couples_fillListings (type : ObjectType) (space : String) (used : List String)
    (h : SealedAlike t t') :
    Couples (harmlessRequests s) SealedAlike (fillListings o type space used t)
      (fillListings o' type space used t') := by
  have hunused : (∃ f ∈ o.fields, f.id ∉ used) ↔ ∃ f ∈ o'.fields, f.id ∉ used := by
    have hids := hshape.ids
    have hexists : ∀ fs : List Field,
        (∃ f ∈ fs, f.id ∉ used) ↔ ∃ id ∈ fs.map (·.id), id ∉ used := fun fs => by simp
    rw [hexists, hexists, hids]
  unfold fillListings
  rw [decide_eq_decide.2 hunused]
  dsimp only
  refine (couples_fillAll _ type _ _ (h.keepBlocks _ _)).bind fun t t' ht => ?_
  exact couples_fillAll _ type _ _ ht

include hshape ho ho' in
/-- **Objects of one shape are resolved side by side.** -/
theorem resolveObject_couples (type : ObjectType) (space : String) {bs : List Text}
    (ht : Sealed bs t) (hnotEquals : findBlock (FieldPlaceholder.notEquals space) (tokenize t) = none)
    (hequals : findBlock (FieldPlaceholder.equals space) (tokenize t) = none) :
    Couples (harmlessRequests s) SealedAlike (resolveObject o type space t)
      (resolveObject o' type space t) := by
  rw [resolveObject_eq, resolveObject_eq]
  refine Couples.bind ((pairedBy_couples _).foldlM
    (fun c _ t t' h => couples_settle hshape ht hnotEquals hequals c h) ⟨bs, .refl bs, ht, ht⟩) ?_
  rintro t t' ⟨bs', -, ht, ht'⟩
  refine (couples_fillIdentity ho ho' type space ⟨bs', ht, ht'⟩).bind fun t t' ht => ?_
  dsimp only
  rw [← ht.scalarsIn]
  refine Couples.bind (couples_giveFields hshape ho ho' (fun _ _ _ _ _ => couples_languageKey _ _) _ t)
    fun keys keys' hkeys => ?_
  have ht := ht.placeValues (p := FieldPlaceholder.valueKey space) .inline hkeys.1 hkeys.2
  rw [← ht.scalarsIn]
  refine Couples.bind (couples_giveFields hshape ho ho'
    (fun f hf f' hf' hsame => couples_fieldValue ho ho' hf hf' hsame) _ _) fun values values' hvalues => ?_
  rw [← hshape.reachedFields]
  have ht := ht.placeValues (p := FieldPlaceholder.value space) .fitted hvalues.1 hvalues.2
  exact couples_fillListings hshape type space _ ht

end Passes

/-! ## 6. What is counted -/

namespace RenderOp

/-- A problem of a kind is reported. -/
def reports (kind : DiagnosticKind) : RenderOp → Bool
  | .record kind' _ => kind' = kind
  | _ => false

/-- A language key is requested. -/
def asksKey : RenderOp → Bool
  | .languageKey _ => true
  | _ => false

/-- A listing of fields is rendered. -/
def listsFields : RenderOp → Bool
  | .artifact .fieldList _ _ => true
  | _ => false

end RenderOp

theorem countP_sameRequest {P : RenderOp → Bool} (hP : ∀ r r', SameRequest r r' → P r = P r')
    {rs rs' : List RenderOp} (h : List.Forall₂ SameRequest rs rs') : rs.countP P = rs'.countP P := by
  induction h with
  | nil => rfl
  | cons hr _ ih => rw [List.countP_cons, List.countP_cons, hP _ _ hr, ih]

/-- **What a record says does not matter beyond its shape**, as long as it makes no placeholder: objects of
    one shape, resolved in a sealed text without comparisons, have as many problems of each kind, requests
    for keys and listings of fields, and both are resolved to the end. -/
theorem resolveObject_shape {s : EscapeSettings} {o o' : GameObject} (hshape : SameShape o o')
    (ho : HarmlessObject s o) (ho' : HarmlessObject s o') (type : ObjectType) (space : String)
    {bs : List Text} {t : Text} (ht : Sealed bs t)
    (hnotEquals : findBlock (FieldPlaceholder.notEquals space) (tokenize t) = none)
    (hequals : findBlock (FieldPlaceholder.equals space) (tokenize t) = none) {a a' : Oracle}
    (ha : ∀ asked r, HarmlessAnswer s r (a asked r))
    (ha' : ∀ asked r, HarmlessAnswer s r (a' asked r)) :
    let run := a.run (resolveObject o type space t)
    let run' := a'.run (resolveObject o' type space t)
    (∃ u, run.1 = .ok u) ∧ (∃ u', run'.1 = .ok u') ∧
      (∀ kind, run.2.countP (·.reports kind) = run'.2.countP (·.reports kind)) ∧
      run.2.countP (·.asksKey) = run'.2.countP (·.asksKey) ∧
      run.2.countP (·.listsFields) = run'.2.countP (·.listsFields) := by
  intro run run'
  have hanswers : Oracle.Answers (harmlessRequests s) a a' := fun asked asked' r r' _ =>
    ⟨ha asked r, ha' asked' r'⟩
  obtain ⟨hend, hasked⟩ := Oracle.run_coupled hanswers
    (resolveObject_couples hshape ho ho' type space ht hnotEquals hequals)
  have hok : (∃ u, run.1 = .ok u) ∧ ∃ u', run'.1 = .ok u' := by
    revert hend
    show SessionM.EndSideBySide _ _ run.1 run'.1 → _
    generalize run.1 = x, run'.1 = y
    rintro (_ | hfails)
    · exact ⟨⟨_, rfl⟩, _, rfl⟩
    · exact hfails.elim
  refine ⟨hok.1, hok.2, fun kind => countP_sameRequest (fun r r' hr => ?_) hasked,
    countP_sameRequest (fun r r' hr => ?_) hasked, countP_sameRequest (fun r r' hr => ?_) hasked⟩
  · cases hr <;> rfl
  · cases hr <;> rfl
  · cases hr <;> rfl

/-- Answers that say little. -/
def tersely : Oracle := fun _ r =>
  match r with
  | .object _ | .dialog _ | .recall _ _ => none
  | .languageKey _ => "Key"
  | .functions _ _ _ _ => []
  | .artifact _ _ _ => "damage".toList
  | .nested _ => .error .cancelled
  | .keep _ _ _ | .record _ _ | .leave _ | .cancel => ()
  | .enter _ => ⟨0⟩
  | .settings => .standard
  | .depth => 0

theorem harmless_tersely (asked : List RenderOp) (r : RenderOp) :
    HarmlessAnswer .standard r (tersely asked r) := by
  cases r with
  | languageKey =>
    have hkey : '{' ∉ "Key".toList := by decide
    exact .of_not_mem hkey
  | artifact =>
    have hlisting : '{' ∉ "damage".toList := by decide
    exact .of_not_mem hlisting
  | settings => rfl
  | _ => trivial

/-- A sword with a damage. -/
def blade (id name damage : String) : GameObject :=
  ⟨id, name, .item, [⟨"1", "Damage", .text, damage, []⟩], [], [], [], []⟩

theorem harmless_blade {id name damage : String} (hid : Harmless id.toList)
    (hname : Harmless (EscapeSettings.standard.escape name.toList))
    (hmissing : unopened name.toList = true)
    (hdamage : Harmless (EscapeSettings.standard.escape damage.toList)) :
    HarmlessObject .standard (blade id name damage) where
  id := hid
  name := hname
  missing := hmissing
  values f hf := by
    obtain rfl := List.mem_singleton.1 hf
    exact hdamage

theorem resolveObject_shape_blades :
    let text := braced "Item_Id".toList ++ (braced "Item_Value_Damage".toList ++
      (braced "Item_Value_Ghost".toList ++ (braced "Item_UnusedFields".toList ++ [])))
    let o := blade "sword" "Sword" "12"
    let o' := blade "\x7b1\x7d" "\x7bExcalibur\x7d" "sharp \x7b0\x7d\x7d"
    SameShape o o' ∧
      ∀ kind, (tersely.run (resolveObject o .item "Item" text)).2.countP (·.reports kind) =
        (tersely.run (resolveObject o' .item "Item" text)).2.countP (·.reports kind) := by
  intro text o o'
  have hshape : SameShape o o' := .cons ⟨rfl, rfl, rfl, rfl⟩ .nil
  have ht : Sealed ["Item_Id".toList, "Item_Value_Damage".toList, "Item_Value_Ghost".toList,
      "Item_UnusedFields".toList] text :=
    .hole (l := []) rfl (by decide) <| .hole (l := []) rfl (by decide) <|
      .hole (l := []) rfl (by decide) <| .hole (l := []) rfl (by decide) (.plain rfl)
  have ho : HarmlessObject .standard o :=
    harmless_blade ⟨by decide, by decide⟩ ⟨by decide, by decide⟩ (by decide) ⟨by decide, by decide⟩
  have ho' : HarmlessObject .standard o' :=
    harmless_blade ⟨by decide, by decide⟩ ⟨by decide, by decide⟩ (by decide) ⟨by decide, by decide⟩
  exact ⟨hshape, (resolveObject_shape hshape ho ho' .item "Item" ht
    (ht.findBlock_eq_none_iff.2 (by decide)) (ht.findBlock_eq_none_iff.2 (by decide))
    harmless_tersely harmless_tersely).2.2.1⟩

end RecordExport
