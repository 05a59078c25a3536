import RecordExport.Proofs.Fields.Missing
import RecordExport.Proofs.Lookups.Sparing
import RecordExport.Proofs.Render.Ahead
import RecordExport.Proofs.Render.Cancellation
import RecordExport.Proofs.Snippets.Forms
import RecordExport.Proofs.Snippets.Texts
/-!
# Snippets that a template does not use

A name finds a snippet whether or not its functions can be had. So which snippets are used, and which names find
none, is read off the text that the conditions on snippets leave, before anything is put into it: what is put in
makes no placeholder, and what fails on the way is reported between the names that find nothing.

* `snippetNames`: the names that a text asks for, each read by the first form it has;
* `readInTurn`: the names in the order the passes meet them (`perm_readInTurn`);
* `SessionM.Says`: a step that reports what it is known to, besides failures, and its rule for each way steps are
  put together;
* `says_resolveSnippets`: **what the turn of the snippets says**;
* `Engine.reportsSnippets_standard`: **in a render each snippet that no name finds is reported, and each name that
  finds none**, once for each place.
-/

namespace RecordExport

variable {ω α β : Type}

open RenderProgram SessionM

/-! ## 1. Names -/

/-- **The names of snippets that a text asks for**, each read by the first form it has. -/
def snippetNames (t : Text) : List Text :=
  (tokenize t).filterMap fun k => (SnippetForm.captures? k).map firstCapture

/-- What scalars capture, form by form: what one form reads is not left for the next. -/
def readInTurn : List Pattern → List Text → List (List Text)
  | [], _ => []
  | p :: ps, bs => (bs.filterMap fun b => scalarCaptures p (.placeholder b)) ++ readInTurn ps (unmatched p bs)

/-- What is read in two turns, the second among what the first leaves. -/
theorem perm_filterMap_or (f g : α → Option β) (l : List α) :
    (l.filterMap f ++ (l.filter fun a => (f a).isNone).filterMap g).Perm (l.filterMap fun a => (f a).or (g a)) := by
  induction l with
  | nil => exact .nil
  | cons a l ih =>
    rw [List.filterMap_cons, List.filter_cons, List.filterMap_cons]
    cases f a with
    | some b => exact ih.cons b
    | none =>
      rw [Option.none_or, if_pos Option.isNone_none, List.filterMap_cons]
      cases g a with
      | some b => exact List.perm_middle.trans (ih.cons b)
      | none => exact ih

/-- **Form by form the same is read as place by place.** -/
theorem perm_readInTurn (ps : List Pattern) (bs : List Text) :
    (readInTurn ps bs).Perm (bs.filterMap fun b => ps.findSome? (scalarCaptures · (.placeholder b))) := by
  induction ps generalizing bs with
  | nil =>
    have hnone : (bs.filterMap fun b => [].findSome? (scalarCaptures · (.placeholder b))) = [] :=
      List.filterMap_eq_nil_iff.2 fun _ _ => rfl
    rw [hnone]
    exact .nil
  | cons p ps ih =>
    have hor : ∀ b, (p :: ps).findSome? (scalarCaptures · (.placeholder b)) =
        (scalarCaptures p (.placeholder b)).or (ps.findSome? (scalarCaptures · (.placeholder b))) := by
      intro b
      rw [List.findSome?_cons]
      cases scalarCaptures p (.placeholder b) <;> rfl
    simp only [hor]
    exact ((ih (unmatched p bs)).append_left _).trans (perm_filterMap_or _ _ bs)

/-! ## 2. Snippets that are reached -/

section Reached

variable {o : GameObject} {names : List Text}

/-- The snippets that none of some names finds. -/
def GameObject.unusedSnippets (o : GameObject) (names : List Text) : List Snippet :=
  o.snippets.filter fun s => names.all fun n => o.snippet? n ≠ some s

/-- The names that find no snippet. -/
def GameObject.strayNames (o : GameObject) (names : List Text) : List Text :=
  names.filter fun n => (o.snippet? n).isNone

/-- **A snippet is used if a name finds it**, where no two have one id. -/
theorem filter_reachedSnippets (hids : (o.snippets.map (·.id)).Nodup) (names : List (List Text)) {used : List String}
    (hused : ∀ id, id ∈ used ↔ id ∈ reachedSnippets o names) :
    (o.snippets.filter fun s => !used.contains s.id) = o.unusedSnippets (names.map firstCapture) := by
  refine List.filter_congr fun s hs => ?_
  rw [Bool.eq_iff_iff]
  simp only [Bool.not_eq_true', List.contains_eq_mem, decide_eq_false_iff_not, hused, List.all_map,
    List.all_eq_true, Function.comp_apply, decide_eq_true_eq]
  unfold reachedSnippets
  rw [List.mem_filterMap]
  refine ⟨fun h captures hmem hfound => h ⟨captures, hmem, ?_⟩, ?_⟩
  · rw [hfound]
    rfl
  · rintro h ⟨captures, hmem, hid⟩
    obtain ⟨s', hs', hid⟩ := Option.map_eq_some_iff.1 hid
    -- a snippet with this id is this one
    obtain rfl := List.inj_on_of_nodup_map hids (List.mem_of_find?_eq_some hs') hs hid
    exact h captures hmem hs'

end Reached

/-! ## 3. Steps that report -/

/-- What an entry of the log says, wherever it stands. -/
structure Report where
  kind : DiagnosticKind
  detail : String

/-- The entry under some labels. -/
def Report.under (labels : List String) (r : Report) : Diagnostic := ⟨labels, r.kind, r.detail⟩

/-- The log with reports under its labels. -/
def DiagnosticLog.reporting (l : DiagnosticLog) (rs : List Report) : DiagnosticLog :=
  { l with entries := l.entries ++ rs.map (·.under l.breadcrumb) }

theorem DiagnosticLog.reporting_append (l : DiagnosticLog) (rs rs' : List Report) :
    (l.reporting rs).reporting rs' = l.reporting (rs ++ rs') := by
  simp [reporting]

theorem DiagnosticLog.reporting_nil (l : DiagnosticLog) : l.reporting [] = l := by
  simp [reporting]

/-- Such reports in their order, with failures put between them. -/
def AmongFailures (F : Report → Prop) (own added : List Report) : Prop :=
  ∃ failures, (∀ r ∈ failures, F r) ∧ Interleaved own failures added

section Among

variable {F : Report → Prop} {own own' added added' : List Report}

theorem amongFailures_alone (own : List Report) : AmongFailures F own own :=
  ⟨[], fun _ hr => absurd hr List.not_mem_nil, .alone own⟩

theorem amongFailures_failure {r : Report} (hr : F r) : AmongFailures F [] [r] :=
  ⟨[r], fun _ hr' => List.mem_singleton.1 hr' ▸ hr, .right r .nil⟩

theorem AmongFailures.append (h : AmongFailures F own added) (h' : AmongFailures F own' added') :
    AmongFailures F (own ++ own') (added ++ added') := by
  obtain ⟨failures, hf, hi⟩ := h
  obtain ⟨failures', hf', hi'⟩ := h'
  exact ⟨failures ++ failures', fun r hr => (List.mem_append.1 hr).elim (hf r) (hf' r), hi.append hi'⟩

end Among

/-- The functions kept for snippets have no opening braces. -/
def FunctionMemo.Unbraced (m : FunctionMemo) : Prop :=
  ∀ id fs, m.get? .snippet id = some fs → ∀ f ∈ fs, f.Unbraced

theorem FunctionMemo.Unbraced.insert {m : FunctionMemo} (h : m.Unbraced) {fs : List ScriptFunction}
    (hfs : ∀ f ∈ fs, f.Unbraced) (id : String) : (m.insert .snippet id fs).Unbraced := by
  intro id' fs' hget
  rw [FunctionMemo.get?_insert] at hget
  split at hget
  · exact Option.some.inj hget ▸ hfs
  · exact h id' fs' hget

namespace SessionM

variable {F : Report → Prop} {P : α → Prop} {P' : β → Prop} {own own' : List Report} {s : Session ω}

/-- How a step ends that gives such a result and reports this: it was cancelled, or it has the result, and the
    reports stand in the log, failures among them. -/
inductive Ended (F : Report → Prop) (P : α → Prop) (own : List Report) (s : Session ω) :
    Except RenderError α × Session ω → Prop
  | cancelled (s' : Session ω) : Ended F P own s (.error .cancelled, s')
  | gives {a : α} {s' : Session ω} {added : List Report} (result : P a) (reports : AmongFailures F own added)
      (log : s'.log = s.log.reporting added) (memo : s'.memo.Unbraced) : Ended F P own s (.ok a, s')

/-- **The step says this**, from every session in which functions have no opening braces. -/
def Says (F : Report → Prop) (P : α → Prop) (own : List Report) (x : SessionM ω α) : Prop :=
  ∀ s : Session ω, s.memo.Unbraced → Ended F P own s (x s)

theorem says_pure {a : α} (ha : P a) : Says F P [] (pure a : SessionM ω α) := fun s hs =>
  .gives ha (amongFailures_alone []) s.log.reporting_nil.symm hs

theorem Says.bind {x : SessionM ω α} (hx : Says F P own x) {f : α → SessionM ω β}
    (hf : ∀ a, P a → Says F P' own' (f a)) : Says F P' (own ++ own') (x >>= f) := by
  intro s hs
  have hx := hx s hs
  rw [bind_apply]
  generalize x s = out at hx
  cases hx with
  | cancelled s' => exact .cancelled s'
  | @gives a s' added ha hadded hlog hmemo =>
    have hf := hf a ha s' hmemo
    show Ended F P' (own ++ own') s (f a s')
    generalize f a s' = out at hf
    cases hf with
    | cancelled s'' => exact .cancelled s''
    | gives hb hadded' hlog' hmemo' =>
      refine .gives hb (hadded.append hadded') ?_ hmemo'
      rw [hlog', hlog, DiagnosticLog.reporting_append]

theorem Says.mono {x : SessionM ω α} (hx : Says F P own x) {P' : α → Prop} (h : ∀ a, P a → P' a) :
    Says F P' own x := by
  intro s hs
  have hx := hx s hs
  generalize x s = out at hx
  cases hx with
  | cancelled s' => exact .cancelled s'
  | gives ha hadded hlog hmemo => exact .gives (h _ ha) hadded hlog hmemo

/-- What comes before says nothing. -/
theorem Says.then {x : SessionM ω α} (hx : Says F P [] x) {f : α → SessionM ω β}
    (hf : ∀ a, P a → Says F P' own (f a)) : Says F P' own (x >>= f) := hx.bind hf

/-- What comes behind says nothing. -/
theorem Says.thenPure {x : SessionM ω α} (hx : Says F P own x) {f : α → β} (hf : ∀ a, P a → P' (f a)) :
    Says F P' own (x >>= fun a => pure (f a)) := by
  rw [← List.append_nil own]
  exact hx.bind fun a ha => says_pure (hf a ha)

theorem says_record (kind : DiagnosticKind) (detail : String) :
    Says F (fun _ => True) [⟨kind, detail⟩] (SessionM.record kind detail : SessionM ω Unit) := fun _ hs =>
  .gives trivial (amongFailures_alone _) rfl hs

/-- A report of a failure. -/
theorem says_failure {err : RenderError} (h : F ⟨err.diagnosticKind, err.message⟩) :
    Says F (fun _ => True) [] (report err : SessionM ω Unit) := fun _ hs =>
  .gives trivial (amongFailures_failure h) rfl hs

end SessionM

/-! ## 4. Functions and their renders -/

/-- **What a render of an object's snippets is told about**: no text of them has an opening brace, nor has the
    object's name; their scripts are cut into sections, unless the generator fails; their functions are rendered in
    the built-in template. -/
structure SnippetSetting (services : Services ω) (o : GameObject) : Prop where
  ids : (o.snippets.map (·.id)).Nodup
  name : '{' ∉ o.name.toList
  texts : ∀ s ∈ o.snippets, '{' ∉ s.name.toList ∧ '{' ∉ s.code.toList
  generator : ∀ s ∈ o.snippets, ∀ w,
    (services.functions o.name s.script w).result = .ok (scriptFunctions o.name s.script) ∨
      ∃ err, (services.functions o.name s.script w).result = .error err
  template : ∀ w, (services.template services.projectId .snippetFunction w).result =
    .ok (.placeholder (BuiltIn.template .snippetFunction))

/-- Functions of a snippet cannot be had: the generator failed, or there is no render inside a render. -/
inductive LacksFunctions (services : Services ω) (maxDepth : Nat) (o : GameObject) : Report → Prop
  | generator {s : Snippet} (snippet : s ∈ o.snippets) {w : ω} {err : ServiceError}
      (failed : (services.functions o.name s.script w).result = .error err) :
      LacksFunctions services maxDepth o ⟨(RenderError.service err).diagnosticKind, err.message⟩
  | limit (none : maxDepth = 0) :
      LacksFunctions services maxDepth o
        ⟨(RenderError.depthExceeded maxDepth).diagnosticKind, (RenderError.depthExceeded maxDepth).message⟩

/-- None of them reads like a report of a snippet that is not used. -/
theorem LacksFunctions.kind_ne {services : Services ω} {maxDepth : Nat} {o : GameObject} {r : Report}
    (h : LacksFunctions services maxDepth o r) : r.kind ≠ .unusedInput := by
  cases h with
  | @generator _ _ _ err _ => cases err <;> nofun
  | limit _ => nofun

/-- The report of a name that finds no snippet. -/
def strayReport (o : GameObject) (name : Text) : Report :=
  ⟨.missingReference, o.name ++ " has no export snippet '" ++ String.ofList name ++ "'"⟩

/-- The report of a snippet that no name finds. -/
def unusedReport (s : Snippet) : Report :=
  ⟨.unusedInput, "export snippet '" ++ s.name ++ "' is not used by the template"⟩

/-- The reports of what scalars name. -/
def strayReports (o : GameObject) (names : List (List Text)) : List Report :=
  (o.strayNames (names.map firstCapture)).map (strayReport o)

theorem strayReports_append (o : GameObject) (names names' : List (List Text)) :
    strayReports o (names ++ names') = strayReports o names ++ strayReports o names' := by
  unfold strayReports GameObject.strayNames
  rw [List.map_append, List.filter_append, List.map_append]

/-- Each name is reported by itself. -/
theorem strayReports_eq (o : GameObject) (names : List (List Text)) :
    strayReports o names = names.flatMap fun captures => strayReports o [captures] := by
  induction names with
  | nil => rfl
  | cons captures names ih =>
    rw [List.flatMap_cons, ← ih]
    exact strayReports_append o [captures] names

namespace Engine

section Answers

variable {services : Services ω} {maxDepth depth : Nat} {o : GameObject} (h : SnippetSetting services o)
include h

/-- **Functions of a snippet** have no opening braces; where they cannot be had there are none. -/
theorem says_snippetFunctions {s : Snippet} (hs : s ∈ o.snippets) :
    let e := Engine.standard services maxDepth
    Says (LacksFunctions services maxDepth o) (fun fs => ∀ f ∈ fs, f.Unbraced) []
      (run (e.answer (e.nested maxDepth) depth) (snippetFunctions o s)) := by
  intro e
  show Says _ _ _ (run _ (.request (.functions .snippet _ _ _)))
  rw [run_request]
  intro t ht
  show Ended _ _ _ t (functionsOnce .snippet _ (services.functions o.name s.script) t)
  cases hm : t.memo.get? .snippet (o.id ++ "/" ++ s.id) with
  | some fs =>
    rw [functionsOnce_of_kept hm]
    exact .gives (ht _ fs hm) (amongFailures_alone []) t.log.reporting_nil.symm ht
  | none =>
    rw [functionsOnce_of_missing hm]
    cases hc : t.cancelled with
    | true =>
      rw [callOrReport_of_cancelled hc]
      exact .cancelled t
    | false =>
      rcases h.generator s hs t.world with hok | ⟨err, herr⟩
      · have hfs := unbraced_scriptFunctions o.name s.script (h.texts s hs).1 (h.texts s hs).2
        rw [callOrReport_of_ok hc hok]
        exact .gives hfs (amongFailures_alone []) t.log.reporting_nil.symm (ht.insert hfs _)
      · rw [callOrReport_of_error hc herr]
        exact .gives (fun _ hf => absurd hf List.not_mem_nil) (amongFailures_failure (.generator hs herr)) rfl ht

/-- **A function in the built-in template** has no opening brace; where there is no nested render it is empty. -/
theorem says_snippetFunction {f : ScriptFunction} (hf : f.Unbraced) (type : ObjectType) (label : String) :
    let e := Engine.standard services maxDepth
    Says (LacksFunctions services maxDepth o) ('{' ∉ ·) []
      (run (e.answer (e.nested maxDepth) depth)
        (.artifact .snippetFunction (.of (.snippetFunction f) type) label)) := by
  intro e
  show Says _ _ _ (run _ (.request (.artifact _ _ _)))
  rw [run_request]
  have hfound : Says (LacksFunctions services maxDepth o)
      (· = some (.placeholder (BuiltIn.template .snippetFunction))) []
      (callOrReport (services.template services.projectId .snippetFunction)) := by
    intro t ht
    cases hc : t.cancelled with
    | true =>
      rw [callOrReport_of_cancelled hc]
      exact .cancelled t
    | false =>
      rw [callOrReport_of_ok hc (h.template t.world)]
      exact .gives rfl (amongFailures_alone []) t.log.reporting_nil.symm ht
  refine hfound.then fun found hfound => ?_
  subst hfound
  have hnested : Says (LacksFunctions services maxDepth o) (fun r => (∃ t, r = .ok t ∧ '{' ∉ t) ∨
      maxDepth = 0 ∧ r = .error (.depthExceeded maxDepth)) [] (e.nested maxDepth
        ⟨.snippetFunction, BuiltIn.template .snippetFunction, .of (.snippetFunction f) type, some label⟩) := by
    intro t ht
    cases maxDepth with
    | zero =>
      rw [nested_limit]
      split
      · exact .cancelled t
      · exact .gives (.inr ⟨rfl, rfl⟩) (amongFailures_alone []) t.log.reporting_nil.symm ht
    | succ n =>
      rw [nested_snippetFunction]
      split
      · exact .cancelled t
      · exact .gives (.inl ⟨_, rfl, unbraced_resolveSnippetFunction hf⟩) (amongFailures_alone [])
          t.log.reporting_nil.symm ht
  refine hnested.then fun r hr => ?_
  rcases hr with ⟨t, rfl, ht⟩ | ⟨hzero, rfl⟩
  · exact says_pure ht
  · exact (says_failure (.limit hzero)).then fun _ _ => says_pure List.not_mem_nil

end Answers

/-! ## 5. Passes -/

section Passes

variable {answer : (r : RenderOp) → SessionM ω r.Answer} {F : Report → Prop}

/-- A loop says what its turns say, one after the other. -/
theorem says_mapM {f : α → RenderProgram β} {P : β → Prop} {own : α → List Report} {as : List α}
    (h : ∀ a ∈ as, Says F P (own a) (run answer (f a))) :
    Says F (fun bs => (∀ b ∈ bs, P b) ∧ bs.length = as.length) (as.flatMap own) (run answer (as.mapM f)) := by
  induction as with
  | nil => exact says_pure ⟨fun _ hb => absurd hb List.not_mem_nil, rfl⟩
  | cons a as ih =>
    rw [List.mapM_cons, run_bind, List.flatMap_cons]
    refine (h a List.mem_cons_self).bind fun b hb => ?_
    rw [run_bind]
    refine (ih fun a ha => h a (List.mem_cons_of_mem _ ha)).thenPure fun bs hbs => ?_
    exact ⟨List.forall_mem_cons.2 ⟨hb, hbs.1⟩, congrArg (· + 1) hbs.2⟩

end Passes

variable {services : Services ω} {maxDepth depth : Nat} {o : GameObject} (h : SnippetSetting services o)
include h

/-- **What a form takes of functions** has no opening brace, and nothing is said of its own. -/
theorem says_give {form : SnippetForm} (hform : form ∈ SnippetForm.all) (type : ObjectType)
    {fs : List ScriptFunction} (hfs : ∀ f ∈ fs, f.Unbraced) :
    let e := Engine.standard services maxDepth
    Says (LacksFunctions services maxDepth o) ('{' ∉ ·) []
      (run (e.answer (e.nested maxDepth) depth) (form.give type fs)) := by
  intro e
  have hfirst : ∀ text : ScriptFunction → Text, (∀ f : ScriptFunction, f.Unbraced → '{' ∉ text f) →
      '{' ∉ (fs.head?.map text).getD [] := by
    intro text htext
    cases fs with
    | nil => exact List.not_mem_nil
    | cons f fs => exact htext f (hfs f List.mem_cons_self)
  simp only [SnippetForm.all, List.mem_cons, List.not_mem_nil, or_false] at hform
  rcases hform with rfl | rfl | rfl
  · show Says _ _ _ (run _ (renderFunctions _ _ _ _))
    unfold renderFunctions
    rw [run_bind]
    have hnone : (fs.tail.flatMap fun _ => ([] : List Report)) = [] := List.flatMap_eq_nil_iff.2 fun _ _ => rfl
    rw [← hnone]
    refine Says.thenPure (says_mapM fun f hf => ?_) fun parts hparts => brace_not_mem_paragraphs hparts.1
    rw [run_bind]
    refine (says_snippetFunction h (hfs f (List.mem_of_mem_tail hf)) type _).thenPure fun t ht hm => ?_
    exact ht ((infix_trimBlankLines t).subset hm)
  · exact says_pure (hfirst _ fun f hf => hf.name)
  · exact says_pure (hfirst _ fun f hf => hf.code)

/-- A placeholder says that its name finds no snippet, or nothing. -/
theorem says_giveSnippet {form : SnippetForm} (hform : form ∈ SnippetForm.all) (type : ObjectType)
    {captures : List Text} (hcaptures : '{' ∉ firstCapture captures) :
    let e := Engine.standard services maxDepth
    Says (LacksFunctions services maxDepth o) ('{' ∉ ·) (strayReports o [captures])
      (run (e.answer (e.nested maxDepth) depth) (giveSnippet o (form.give type) captures)) := by
  intro e
  unfold giveSnippet strayReports
  cases hs : o.snippet? (firstCapture captures) with
  | some s =>
    have hnone : o.strayNames [firstCapture captures] = [] := by
      unfold GameObject.strayNames
      rw [List.filter_cons_of_neg (by rw [hs]; exact Bool.false_ne_true), List.filter_nil]
    rw [List.map_singleton, hnone]
    dsimp only
    rw [run_bind]
    exact (says_snippetFunctions h (List.mem_of_find?_eq_some hs)).then fun fs hfs => says_give h hform type hfs
  | none =>
    have hone : o.strayNames [firstCapture captures] = [firstCapture captures] := by
      unfold GameObject.strayNames
      rw [List.filter_cons_of_pos (by rw [hs]; rfl), List.filter_nil]
    rw [List.map_singleton, hone, List.map_singleton]
    dsimp only
    rw [run_bind]
    exact (says_record _ _).thenPure fun _ _ => brace_not_mem_missingMarker h.name hcaptures

/-- **A pass says which of its names find no snippet**, notes the others, and leaves the other placeholders. -/
theorem says_fill {form : SnippetForm} (hform : form ∈ SnippetForm.all) (type : ObjectType) {bs : List Text}
    {t : Text} (ht : Sealed bs t) (used : List String) :
    let e := Engine.standard services maxDepth
    let read := bs.filterMap fun b => scalarCaptures form.pattern (.placeholder b)
    Says (LacksFunctions services maxDepth o)
      (fun r => Sealed (unmatched form.pattern bs) r.1 ∧ r.2 = (reachedSnippets o read).reverse ++ used)
      (strayReports o read)
      (run (e.answer (e.nested maxDepth) depth) ((form.fill o type t).run used)) := by
  intro e read
  have hread : scalarsIn form.pattern t = read := scalarsIn_sealed _ ht
  have hvalues : Says (LacksFunctions services maxDepth o)
      (fun vs => (∀ v ∈ vs, '{' ∉ v) ∧ vs.length = read.length) (strayReports o read)
      (run (e.answer (e.nested maxDepth) depth) (read.mapM (giveSnippet o (form.give type)))) := by
    rw [strayReports_eq]
    refine says_mapM fun captures hmem => ?_
    rw [← hread] at hmem
    exact says_giveSnippet h hform type (not_mem_firstCapture (SnippetForm.brace_not_mem hform hmem))
  unfold SnippetForm.fill
  rw [replaceScalarsM_eq, StateT.run_bind, run_mapM_useSnippet, hread, bind_assoc]
  simp only [pure_bind, StateT.run_pure]
  rw [run_bind]
  refine hvalues.thenPure fun vs hvs => ⟨?_, rfl⟩
  exact ht.placeValues form.placement (fun v hv => .of_not_mem (hvs.1 v hv)) (hread ▸ hvs.2)

/-- **So do passes one after the other**: what a form reads is not left for the next. -/
theorem says_passes {forms : List SnippetForm} (hforms : ∀ form ∈ forms, form ∈ SnippetForm.all)
    (type : ObjectType) {bs : List Text} {t : Text} (ht : Sealed bs t) (used : List String) :
    let e := Engine.standard services maxDepth
    let read := readInTurn (forms.map (·.pattern)) bs
    Says (LacksFunctions services maxDepth o) (fun r => r.2 = (reachedSnippets o read).reverse ++ used)
      (strayReports o read)
      (run (e.answer (e.nested maxDepth) depth) ((forms.foldlM (SnippetForm.fill o type) t).run used)) := by
  intro e read
  induction forms generalizing bs t used with
  | nil => exact says_pure rfl
  | cons form forms ih =>
    obtain ⟨hform, hforms⟩ := List.forall_mem_cons.1 hforms
    rw [List.foldlM_cons, StateT.run_bind, run_bind, show read = _ ++ _ from rfl, strayReports_append]
    refine (says_fill h hform type ht used).bind fun r hr => ?_
    obtain ⟨hsealed, hused⟩ := hr
    refine (ih hforms hsealed r.2).mono fun r' hr' => ?_
    rw [hr', hused]
    unfold reachedSnippets
    rw [List.filterMap_append, List.reverse_append, List.append_assoc]

/-! ## 6. The turn of the snippets -/

omit h in
/-- Reports of snippets, one after the other. -/
theorem says_reportUnused (e : Engine ω) (left depth : Nat) {F : Report → Prop} (used : List String)
    (ss : List Snippet) :
    Says F (fun _ => True) ((ss.filter fun s => !used.contains s.id).map unusedReport)
      (run (e.answer (e.nested left) depth) (reportUnused used ss)) := by
  intro s hs
  unfold reportUnused
  rw [run_forM_record]
  refine .gives trivial (amongFailures_alone _) ?_ hs
  rw [DiagnosticLog.reporting, List.map_map]
  rfl

variable (maxDepth depth) in
/-- **What the turn of the snippets says**: which names find no snippet, and then which snippets no name finds. -/
theorem says_resolveSnippets {t : Text} (ht : ∀ l, .literal l ∈ tokenize t → '{' ∉ l) (type : ObjectType) :
    let e := Engine.standard services maxDepth
    let names := snippetNames (o.snippetsSettled t)
    ∃ stray, stray.Perm ((o.strayNames names).map (strayReport o)) ∧
      Says (LacksFunctions services maxDepth o) (fun _ => True) (stray ++ (o.unusedSnippets names).map unusedReport)
        (run (e.answer (e.nested maxDepth) depth) (resolveSnippets o type t)) := by
  intro e names
  obtain ⟨bs, hsealed⟩ := exists_sealed ht
  obtain ⟨bs', -, hsealed', -⟩ := keepBlocks_sealed SnippetPlaceholder.hasSnippet
    (fun cs => (o.snippet? (cs.getD 0 [])).isSome) hsealed hsealed
  obtain ⟨left, -, hleft, -⟩ := keepBlocks_sealed SnippetPlaceholder.hasNotSnippet
    (fun cs => (o.snippet? (cs.getD 0 [])).isNone) hsealed' hsealed'
  let read := readInTurn (SnippetForm.all.map (·.pattern)) left
  have hnames : (read.map firstCapture).Perm names := by
    have hplaces : names = (left.filterMap fun b => SnippetForm.captures? (.placeholder b)).map firstCapture := by
      rw [List.map_filterMap]
      exact hleft.filterMap fun _ => rfl
    rw [hplaces]
    exact (perm_readInTurn _ left).map firstCapture
  have hunused : ∀ used : List String, (∀ id, id ∈ used ↔ id ∈ reachedSnippets o read) →
      (o.snippets.filter fun s => !used.contains s.id) = o.unusedSnippets names := by
    intro used hused
    rw [filter_reachedSnippets h.ids read hused]
    unfold GameObject.unusedSnippets
    refine List.filter_congr fun s _ => ?_
    rw [Bool.eq_iff_iff, List.all_eq_true, List.all_eq_true]
    exact forall_congr' fun n => imp_congr_left hnames.mem_iff
  refine ⟨strayReports o read, (hnames.filter _).map _, ?_⟩
  unfold resolveSnippets
  dsimp only
  rw [fillSnippets_eq, run_bind]
  refine (says_passes h (fun _ hform => hform) type hleft []).bind fun r hr => ?_
  have hused : ∀ id, id ∈ r.2 ↔ id ∈ reachedSnippets o read := fun id => by
    rw [hr, List.append_nil, List.mem_reverse]
  rw [run_bind, ← hunused r.2 hused]
  exact (says_reportUnused e maxDepth depth r.2 o.snippets).thenPure fun _ _ => trivial

end Engine

/-! ## 7. Renders -/

/-- **What is said of an object's snippets** where a text asks for these names. -/
structure SnippetsReported (services : Services ω) (maxDepth : Nat) (o : GameObject) (names : List Text)
    (ds : List Diagnostic) : Prop where
  /-- the snippets that no name finds, in their order -/
  unused : ds.filter (·.kind = .unusedInput) =
    (o.unusedSnippets names).map fun s => (unusedReport s).under ["Snippets"]
  /-- the names that find no snippet, each once for each place, and else functions that could not be had -/
  stray : ∃ failures, (∀ r ∈ failures, LacksFunctions services maxDepth o r) ∧
    (ds.filter (·.kind ≠ .unusedInput)).Perm
      (((o.strayNames names).map (strayReport o) ++ failures).map (·.under ["Snippets"]))

/-- How a render ends that says so under the label of the snippets, unless it was asked to stop. -/
inductive RendersSnippets (services : Services ω) (maxDepth : Nat) (o : GameObject) (names : List Text)
    (asked : Prop) : Except RenderError Engine.RenderOutput → Prop
  | rendered (out : Engine.RenderOutput)
      (reported : SnippetsReported services maxDepth o names
        (out.diagnostics.filter fun x => x.breadcrumb.head? = some "Snippets")) :
      RendersSnippets services maxDepth o names asked (.ok out)
  | cancelled (h : asked) : RendersSnippets services maxDepth o names asked (.error .cancelled)

theorem snippetsReported_of_among {services : Services ω} {maxDepth : Nat} {o : GameObject} {names : List Text}
    {stray added : List Report} (hstray : stray.Perm ((o.strayNames names).map (strayReport o)))
    (h : AmongFailures (LacksFunctions services maxDepth o)
      (stray ++ (o.unusedSnippets names).map unusedReport) added) :
    SnippetsReported services maxDepth o names (added.map (·.under ["Snippets"])) := by
  obtain ⟨failures, hfailures, hadded⟩ := h
  have hkind : ∀ r ∈ stray, r.kind = .missingReference := fun r hr => by
    obtain ⟨_, -, rfl⟩ := List.mem_map.1 (hstray.mem_iff.1 hr)
    rfl
  have hunused : ∀ r ∈ (o.unusedSnippets names).map unusedReport, r.kind = .unusedInput := fun r hr => by
    obtain ⟨_, -, rfl⟩ := List.mem_map.1 hr
    rfl
  constructor
  case unused =>
    have hfilter := hadded.filter fun r => r.kind = .unusedInput
    rw [List.filter_append, List.filter_eq_nil_iff.2 fun r hr => by rw [hkind r hr]; decide,
      List.filter_eq_self.2 fun r hr => by rw [hunused r hr]; rfl,
      List.filter_eq_nil_iff.2 fun r hr => by simpa using (hfailures r hr).kind_ne] at hfilter
    rw [List.filter_map]
    show (added.filter fun r => r.kind = .unusedInput).map _ = _
    rw [hfilter.eq_of_nil, List.nil_append, List.map_map]
    rfl
  case stray =>
    refine ⟨failures, hfailures, ?_⟩
    have hfilter := hadded.filter fun r => r.kind ≠ .unusedInput
    rw [List.filter_append, List.filter_eq_self.2 fun r hr => by rw [hkind r hr]; rfl,
      List.filter_eq_nil_iff.2 fun r hr => by rw [hunused r hr]; decide,
      List.filter_eq_self.2 fun r hr => by simpa using (hfailures r hr).kind_ne, List.append_nil] at hfilter
    rw [List.filter_map]
    show ((added.filter fun r => r.kind ≠ .unusedInput).map _).Perm _
    exact (hfilter.perm.trans (hstray.append_right failures)).map _

namespace Engine

/-- The resolver of snippets is the first for an object, and the others have other labels. -/
theorem applicable_snippets (services : Services ω) (maxDepth : Nat) {kind : ArtifactKind} {space : String}
    (hspace : kind.space? = some space) :
    ∃ behind : List Topic, (Engine.standard services maxDepth).applicable kind =
        Topic.snippets.resolver :: behind.map (·.resolver) ∧
      ∀ τ ∈ behind, τ.resolver.applies kind = true ∧ ¬ τ.IsLabel space "Snippets" := by
  rw [applicable_standard]
  cases kind with
  | npc =>
    obtain rfl := Option.some.inj hspace
    exact ⟨[.dialog, .dailyRoutine, .inventory, .skills, .fields], rfl, by decide⟩
  | item =>
    obtain rfl := Option.some.inj hspace
    exact ⟨[.fields], rfl, by decide⟩
  | skill =>
    obtain rfl := Option.some.inj hspace
    exact ⟨[.fields], rfl, by decide⟩
  | _ => cases hspace

/-- **The turn of the snippets in a render**: it is cancelled, or it reports under its label and goes on. -/
theorem attempt_snippets {kind : ArtifactKind} {c : RenderContext} {o : GameObject} (hc : c.subject = .object o)
    (hkind : kind ≠ .snippetFunction) {answer : (r : RenderOp) → SessionM ω r.Answer} {F : Report → Prop}
    {own : List Report} {t : Text}
    (hturn : Says F (fun _ => True) own (run answer (resolveSnippets o c.objectType t))) {s : Session ω}
    (hs : s.cancelled = false) (hmemo : s.memo.Unbraced) (hlabels : s.log.breadcrumb = []) :
    (attempt answer kind c t .snippets s).1 = .error .cancelled ∨
      ∃ t' s' added, attempt answer kind c t .snippets s = (.ok t', s') ∧ AmongFailures F own added ∧
        s'.log = ⟨s.log.entries ++ added.map (·.under ["Snippets"]), []⟩ := by
  let entered : Session ω := { s with log := (s.log.enter "Snippets").2 }
  have hunder : entered.log.breadcrumb = ["Snippets"] := congrArg (· ++ ["Snippets"]) hlabels
  have hinner := hturn entered hmemo
  have hresolve : run answer (Resolver.snippets.resolve kind c t) s =
      let out := run answer (resolveSnippets o c.objectType t) entered
      (out.1, { out.2 with log := out.2.log.leave (s.log.enter "Snippets").1 }) := by
    rw [resolve_snippets hc hkind, run_within]
    rfl
  rw [attempt_apply, if_neg (Bool.eq_false_iff.1 hs), hresolve]
  generalize run answer (resolveSnippets o c.objectType t) entered = out at hinner
  cases hinner with
  | cancelled s' => exact .inl rfl
  | @gives t' s' added _ hadded hlog _ =>
    refine .inr ⟨t', _, added, rfl, hadded, ?_⟩
    have hdepth : (s.log.enter "Snippets").1.depth = 0 := by
      show s.log.breadcrumb.length = 0
      rw [hlabels]
      rfl
    dsimp only
    rw [hlog, DiagnosticLog.reporting, hunder, DiagnosticLog.leave, hdepth]
    rfl

/-- Under the label of the snippets stands what was added in their turn. -/
theorem filter_of_added {before added : List Diagnostic} {l : DiagnosticLog}
    (hbefore : DiagnosticLog.Added (fun labels _ _ => labels.head? ≠ some "Snippets") .empty ⟨before, []⟩)
    (hadded : ∀ x ∈ added, x.breadcrumb = ["Snippets"])
    (hafter : DiagnosticLog.Added (fun labels _ _ => labels.head? ≠ some "Snippets") ⟨before ++ added, []⟩ l) :
    (l.entries.filter fun x => x.breadcrumb.head? = some "Snippets") = added := by
  obtain ⟨others, hothers, hlabels⟩ := hbefore.entries
  obtain rfl : before = others := hothers
  obtain ⟨after, hentries, hlabels'⟩ := hafter.entries
  have hnone : ∀ x : Diagnostic, (∃ labels, x.breadcrumb = [] ++ labels ∧ labels.head? ≠ some "Snippets") →
      ¬ (decide (x.breadcrumb.head? = some "Snippets")) = true := by
    rintro x ⟨labels, hx, hne⟩
    rw [hx, List.nil_append]
    simpa using hne
  rw [hentries, List.filter_append, List.filter_append, List.filter_eq_nil_iff.2 fun x hx => hnone x (hlabels x hx),
    List.filter_eq_nil_iff.2 fun x hx => hnone x (hlabels' x hx), List.nil_append, List.append_nil]
  exact List.filter_eq_self.2 fun x hx => by rw [hadded x hx]; rfl

/-- **Behind the turn of the snippets** a render goes on to its end or is cancelled, and nothing more is said under
    their label. -/
theorem rendersSnippets_of_turn {services : Services ω} {maxDepth : Nat} {o : GameObject} {names : List Text}
    {kind : ArtifactKind} {space : String} (hspace : kind.space? = some space) {c : RenderContext}
    (hc : c.subject = .object o) {behind : List Topic}
    (hbehind : ∀ τ ∈ behind, τ.resolver.applies kind = true ∧ ¬ τ.IsLabel space "Snippets")
    {stray added : List Report} (hstray : stray.Perm ((o.strayNames names).map (strayReport o)))
    (hadded : AmongFailures (LacksFunctions services maxDepth o)
      (stray ++ (o.unusedSnippets names).map unusedReport) added)
    {begun s' : Session ω}
    (hbegun : DiagnosticLog.Added (fun labels _ _ => labels.head? ≠ some "Snippets") .empty begun.log)
    (hlog : s'.log = ⟨begun.log.entries ++ added.map (·.under ["Snippets"]), []⟩) (t' : Text) {asked : Prop} :
    let e := Engine.standard services maxDepth
    let out := (behind.map (·.resolver)).foldlM (attempt (e.answer (e.nested e.maxDepth) 0) kind c) t' s'
    (out.1 = .error .cancelled → asked) →
      RendersSnippets services maxDepth o names asked (out.1.map fun text => ⟨text, out.2.log.entries⟩) := by
  intro e out hasked
  have hafter : s'.log.Added (fun labels _ _ => labels.head? ≠ some "Snippets") out.2.log :=
    e.adds_attempts_object e.maxDepth 0 hspace hc "Snippets" hbehind t' s'
  have hbefore : begun.log = ⟨begun.log.entries, []⟩ := by
    rw [← show begun.log.breadcrumb = [] from hbegun.breadcrumb]
  rw [hbefore] at hbegun
  rw [hlog] at hafter
  have hunder : ∀ x ∈ added.map (·.under ["Snippets"]), x.breadcrumb = ["Snippets"] := fun x hx => by
    obtain ⟨r, -, rfl⟩ := List.mem_map.1 hx
    rfl
  cases hout : out.1 with
  | error err =>
    obtain ⟨us, hus⟩ := exists_pipeline (e.answer (e.nested e.maxDepth) 0) kind c (behind.map (·.resolver)) t' s'
    obtain rfl := hus.eq_cancelled hout
    exact .cancelled (hasked hout)
  | ok text =>
    refine .rendered ⟨text, out.2.log.entries⟩ ?_
    dsimp only
    rw [filter_of_added hbegun hunder hafter]
    exact snippetsReported_of_among hstray hadded

/-- **Unused snippets, and names without a snippet, are reported exactly**, in every render that neither its caller
    nor a call has cancelled. -/
theorem reportsSnippets_standard {services : Services ω} {o : GameObject} (h : SnippetSetting services o)
    (maxDepth : Nat) {kind : ArtifactKind} (hkind : kind.objectType?.isSome = true) {c : RenderContext}
    (hc : c.subject = .object o) {t : Text} (ht : ∀ l, .literal l ∈ tokenize t → '{' ∉ l) (w : ω)
    (cancelled : Bool) :
    let e := Engine.standard services maxDepth
    RendersSnippets services maxDepth o (snippetNames (o.snippetsSettled t))
      (Transcript.CancelledBy cancelled (e.transcribed kind c t w cancelled).2.2 = true)
      (e.render kind c t w cancelled).1 := by
  intro e
  let answer := e.answer (e.nested e.maxDepth) 0
  obtain ⟨type, htype⟩ := Option.isSome_iff_exists.1 hkind
  have hspace : kind.space? = some type.space := by
    unfold ArtifactKind.space?
    rw [htype]
    rfl
  have hne : kind ≠ .snippetFunction := by
    rintro rfl
    cases hkind
  obtain ⟨behind, happlicable, hbehind⟩ := applicable_snippets services maxDepth hspace
  obtain ⟨stray, hstray, hturn⟩ := says_resolveSnippets maxDepth 0 h ht c.objectType
  -- the snippets come first, so their resolver has the text of the template, and nothing is kept yet
  let begun : Session ω := e.reported t (.start w cancelled)
  have hbegun : DiagnosticLog.Added (fun labels _ _ => labels.head? ≠ some "Snippets") .empty begun.log :=
    e.added_reported (fun _ => by simp) t (.start w cancelled)
  have hmemo : begun.memo.Unbraced := fun id fs hget => by cases hget
  have hahead : e.ahead kind c t .snippets w cancelled = (.ok t, begun) := rfl
  have hcause := (heedsCancellation (keeps_standard services maxDepth) Cast.leavesCancelling_everything kind
    (Cast.renders_everything c.subject) t w cancelled).cause
  rw [e.render_of_ahead kind c t happlicable hahead] at hcause ⊢
  dsimp only at hcause ⊢
  rw [List.foldlM_cons, bind_apply] at hcause ⊢
  cases hgo : begun.cancelled with
  | true =>
    rw [attempt_apply, if_pos hgo] at hcause ⊢
    exact .cancelled (hcause rfl)
  | false =>
    rcases attempt_snippets hc hne hturn hgo hmemo hbegun.breadcrumb with
      hstop | ⟨t', s', added, hattempt, hadded, hlog⟩
    · rw [show (attempt answer kind c t Topic.snippets.resolver begun).1 = .error .cancelled from hstop] at hcause ⊢
      exact .cancelled (hcause rfl)
    · rw [show attempt answer kind c t Topic.snippets.resolver begun = (.ok t', s') from hattempt] at hcause ⊢
      refine rendersSnippets_of_turn hspace hc hbehind hstray hadded hbegun hlog t' fun hout => hcause ?_
      rw [hout]
      rfl

/-- A parrot with two greetings, of which the first hides the second. -/
def parrot : GameObject :=
  ⟨"parrot", "Parrot", .npc, [], [], [], [], [⟨"1", "Greet", "hello()\n@function More\nagain()"⟩,
    ⟨"2", "GREET", "hi()"⟩, ⟨"3", "Leave", "bye()"⟩]⟩

/-- A text that asks for a greeting, if the parrot can leave, and for a snippet that there is none of. -/
def parrotText : Text :=
  braced "HasSnippet_Leave_Start".toList ++ braced "Snippet_greet_AdditionalFunctions".toList ++
    braced "HasSnippet_End".toList ++ " ".toList ++ braced "Snippet_Ghost".toList ++
    braced "Snippet_greet_FunctionName".toList

theorem tokenize_parrotText :
    tokenize parrotText = [.placeholder "HasSnippet_Leave_Start".toList,
      .placeholder "Snippet_greet_AdditionalFunctions".toList, .placeholder "HasSnippet_End".toList,
      .literal " ".toList, .placeholder "Snippet_Ghost".toList, .placeholder "Snippet_greet_FunctionName".toList] := by
  decide +kernel

theorem reportsSnippets_parrot :
    let services := Services.inMemory ⟨[parrot], []⟩ .builtIn .standard
    let e := Engine.standard services 16
    let names := snippetNames (parrot.snippetsSettled parrotText)
    SnippetSetting services parrot ∧ ArtifactKind.npc.objectType?.isSome = true ∧
      (RenderContext.ofObject parrot).subject = .object parrot ∧
      (∀ l, .literal l ∈ tokenize parrotText → '{' ∉ l) ∧
      names = ["greet".toList, "Ghost".toList, "greet".toList] ∧
      parrot.unusedSnippets names = [⟨"2", "GREET", "hi()"⟩, ⟨"3", "Leave", "bye()"⟩] ∧
      RendersSnippets services 16 parrot names
        (Transcript.CancelledBy false (e.transcribed .npc (.ofObject parrot) parrotText .empty false).2.2 = true)
        (e.render .npc (.ofObject parrot) parrotText .empty false).1 := by
  intro services e names
  have hsetting : SnippetSetting services parrot := by
    refine ⟨by decide, by decide, by decide, fun _ _ _ => .inl rfl, fun _ => ?_⟩
    rfl
  have hliterals : ∀ l, .literal l ∈ tokenize parrotText → '{' ∉ l := by
    intro l hl
    rw [tokenize_parrotText] at hl
    simp only [List.mem_cons, Token.literal.injEq, reduceCtorEq, List.not_mem_nil, or_false, false_or] at hl
    rw [hl]
    decide
  exact ⟨hsetting, rfl, rfl, hliterals, by decide +kernel, by decide +kernel,
    reportsSnippets_standard hsetting 16 rfl rfl hliterals .empty false⟩

end Engine
end RecordExport
