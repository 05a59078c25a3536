import RecordExport.Proofs.Routine.Functions
import RecordExport.Proofs.Snippets.Forms
/-!
# What is printed of derived functions

Placeholders of snippets, of events and of a dialog print functions that were derived for them. Who PRINTS here asks
for the functions and then looks up what is kept under their key, whatever the answer was, so what is printed can
only be told from what is kept. The resolvers do just that, wherever their programs are run.

* `FunctionMemo.given`: the functions of a key: those kept, or none where none could be had;
* `SessionM.thenKept`: a step, and behind it what is kept under a key (`Engine.functions_eq_kept`,
  `Engine.dialogFunctions_eq_kept`);
* `Engine.printSnippets`, `printRoutine`, `printDialog`: what is printed at the placeholders of a text;
* `Engine.run_snippets`, `run_dailyRoutine`, `run_dialog`: **the resolvers print from what is kept.**
-/

namespace RecordExport

variable {ω α β : Type}

open SessionM

/-! ## 1. What is given is what is kept -/

/-- The functions of a key: those that are kept, none where none could be had. -/
def FunctionMemo.given (m : FunctionMemo) (scope : MemoScope) (id : String) : List ScriptFunction :=
  (m.get? scope id).getD []

/-- A step, and behind it the functions that a key has then. -/
def SessionM.thenKept (x : SessionM ω α) (scope : MemoScope) (id : String) : SessionM ω (List ScriptFunction) := do
  let _ ← x
  pure ((← get).memo.given scope id)

/-- A step that gives what is kept then may as well be followed by a look at it. -/
theorem SessionM.eq_thenKept {x : SessionM ω (List ScriptFunction)} {scope : MemoScope} {id : String}
    (h : ∀ {s fs s'}, x s = (.ok fs, s') → fs = s'.memo.given scope id) : x = thenKept x scope id := by
  funext s
  unfold thenKept
  rw [bind_apply]
  rcases hx : x s with ⟨_ | fs, s'⟩
  · rfl
  · rw [h hx]
    rfl

namespace Engine

section Given

variable {e : Engine ω} {nested : NestedRender ω} {depth : Nat} {scope : MemoScope} {id : String}
  {s s' : Session ω} {fs : List ScriptFunction}

/-- Where functions are kept a program that derives them once is given those and does nothing. -/
theorem derivedOnce_of_kept {p : RenderProgram (List ScriptFunction)}
    (hm : s.memo.get? scope id = some fs) :
    run (e.answer nested depth) (.derivedOnce scope id p) s = (.ok fs, s) := by
  have hrecall : e.answer nested depth (.recall scope id) s = (.ok (s.memo.get? scope id), s) := rfl
  rw [run_derivedOnce, bind_apply, hrecall, hm]
  rfl

/-- A program that derives functions once is given what is kept then. -/
theorem get?_of_derivedOnce {p : RenderProgram (List ScriptFunction)}
    (h : run (e.answer nested depth) (.derivedOnce scope id p) s = (.ok fs, s')) :
    s'.memo.get? scope id = some fs := by
  cases hm : s.memo.get? scope id with
  | some known =>
    rw [derivedOnce_of_kept hm] at h
    obtain ⟨hfs, rfl⟩ := Prod.mk.inj h
    rw [hm, Except.ok.inj hfs]
  | none =>
    have hrecall : e.answer nested depth (.recall scope id) s = (.ok (s.memo.get? scope id), s) := rfl
    rw [run_derivedOnce, bind_apply, hrecall, hm] at h
    have h : (run (e.answer nested depth) p >>= fun fs => e.answer nested depth (.keep scope id fs) >>=
        fun _ => pure fs) s = (.ok fs, s') := h
    rw [bind_apply] at h
    rcases hp : run (e.answer nested depth) p s with ⟨result, s₁⟩
    rw [hp] at h
    cases result with
    | error err => cases h
    | ok derived =>
      obtain ⟨hfs, rfl⟩ := Prod.mk.inj h
      obtain rfl := Except.ok.inj hfs
      show (s₁.memo.insert scope id derived).get? scope id = _
      rw [FunctionMemo.get?_insert, if_pos rfl]

/-- Who asks for functions of a script is given what is kept then, or nothing where the derivation failed. -/
theorem get?_of_functions {owner : String} {script : Script}
    (h : e.answer nested depth (.functions scope id owner script) s = (.ok fs, s')) :
    s'.memo.get? scope id = some fs ∨ fs = [] ∧ s'.memo = s.memo ∧ s.memo.get? scope id = none := by
  have h : functionsOnce scope id (e.services.functions owner script) s = (.ok fs, s') := h
  cases hm : s.memo.get? scope id with
  | some known =>
    rw [functionsOnce_of_kept hm] at h
    obtain ⟨hfs, rfl⟩ := Prod.mk.inj h
    exact .inl (hm.trans (congrArg some (Except.ok.inj hfs)))
  | none =>
    rw [functionsOnce_of_missing hm] at h
    cases hs : s.cancelled with
    | true =>
      rw [callOrReport_of_cancelled hs] at h
      cases h
    | false =>
      cases hr : (e.services.functions owner script s.world).result with
      | ok derived =>
        rw [callOrReport_of_ok hs hr] at h
        obtain ⟨hfs, rfl⟩ := Prod.mk.inj h
        obtain rfl := Except.ok.inj hfs
        refine .inl ?_
        show (s.memo.insert scope id derived).get? scope id = _
        rw [FunctionMemo.get?_insert, if_pos rfl]
      | error err =>
        rw [callOrReport_of_error hs hr] at h
        obtain ⟨hfs, rfl⟩ := Prod.mk.inj h
        exact .inr ⟨(Except.ok.inj hfs).symm, rfl, rfl⟩

/-- **Functions that are asked for are those kept then.** -/
theorem functions_eq_kept (owner : String) (script : Script) :
    e.answer nested depth (.functions scope id owner script) =
      thenKept (e.answer nested depth (.functions scope id owner script)) scope id := by
  refine eq_thenKept fun h => ?_
  unfold FunctionMemo.given
  rcases get?_of_functions h with hkept | ⟨rfl, hmemo, hnone⟩
  · rw [hkept]
    rfl
  · rw [hmemo, hnone]
    rfl

/-- **The functions of a dialog are those kept then.** -/
theorem dialogFunctions_eq_kept (npc : GameObject) (d : Dialog) :
    run (e.answer nested depth) (dialogFunctions npc d) =
      thenKept (run (e.answer nested depth) (dialogFunctions npc d)) .dialog d.id := by
  refine eq_thenKept fun h => ?_
  unfold FunctionMemo.given
  rw [get?_of_derivedOnce h]
  rfl

end Given

/-! ## 2. Printing -/

/-- The name of the primary one of some functions. -/
def primaryName (fs : List ScriptFunction) : Text := (fs.head?.map (·.name.toList)).getD []

/-- Its code. -/
def primaryCode (fs : List ScriptFunction) : Text := (fs.head?.map (·.code.toList)).getD []

section Printing

variable (answer : (o : RenderOp) → SessionM ω o.Answer)

/-- The functions of a script as they are kept once they were asked for. -/
def keptFunctions (scope : MemoScope) (id owner : String) (script : Script) : SessionM ω (List ScriptFunction) :=
  thenKept (answer (.functions scope id owner script)) scope id

/-- Functions printed in their order, each as an artefact about itself. -/
def printFunctions (kind : ArtifactKind) (type : ObjectType) (subject : ScriptFunction → Subject)
    (fs : List ScriptFunction) : SessionM ω Text := do
  let parts ← fs.mapM fun f => do
    let t ← answer (.artifact kind ⟨subject f, type, []⟩ ("Function " ++ f.name))
    pure (trimBlankLines t)
  pure (paragraphs parts)

/-- What is printed for the name of a snippet, of the functions kept under the owner's id and the snippet's; a name
    without a snippet is reported. -/
def printSnippet (o : GameObject) (print : List ScriptFunction → SessionM ω Text) (captures : List Text) :
    SessionM ω Text :=
  match o.snippet? (firstCapture captures) with
  | some s => do
    let fs ← keptFunctions answer .snippet (o.id ++ "/" ++ s.id) o.name s.script
    print fs
  | none => do
    answer (.record .missingReference
      (o.name ++ " has no export snippet '" ++ String.ofList (firstCapture captures) ++ "'"))
    pure (missingMarker o.name (String.ofList (firstCapture captures))).toList

/-- What is printed at the placeholders of one form of a text, with the names that were met so far. -/
def printForm (o : GameObject) (pattern : Pattern) (placement : Placement)
    (print : List ScriptFunction → SessionM ω Text) (r : Text × List (List Text)) :
    SessionM ω (Text × List (List Text)) := do
  let names := scalarsIn pattern r.1
  let values ← names.mapM (printSnippet answer o print)
  pure (placeValues pattern placement values r.1, r.2 ++ names)

/-- **What is printed of an object's snippets**: at the placeholders of all other functions, of the primary one's
    name and of its code, one form after the other. -/
def printSnippets (o : GameObject) (type : ObjectType) (t : Text) : SessionM ω Text := do
  let r ← printForm answer o SnippetPlaceholder.additionalFunctions .fitted
    (fun fs => printFunctions answer .snippetFunction type .snippetFunction fs.tail) (o.snippetsSettled t, [])
  let r ← printForm answer o SnippetPlaceholder.functionName .inline (fun fs => pure (primaryName fs)) r
  let r ← printForm answer o SnippetPlaceholder.code .fitted (fun fs => pure (primaryCode fs)) r
  run answer (reportUnused (reachedSnippets o r.2).reverse o.snippets)
  pure r.1

/-- The functions kept under an event's id, none without a script. -/
def keptEvent (npc : GameObject) (e : ScheduleEvent) : SessionM ω (List ScriptFunction) :=
  match e.script with
  | none => pure []
  | some script => keptFunctions answer .event e.id npc.name script

/-- What is printed of an event, with the primary name of its functions. -/
def printEvent (npc : GameObject) (e : ScheduleEvent) (p : ListPosition) (inner : Text) : SessionM ω Text := do
  let s ← answer .settings
  let t := filledEvent e p inner s
  if mentions "DailyRoutine_Event_ScriptFunction" t then do
    let fs ← keptEvent answer npc e
    pure (fill "DailyRoutine_Event_ScriptFunction" .inline (primaryName fs) t)
  else pure t

/-- **What is printed of a routine**: the events, and behind them the functions of all events, wherever these are
    placed. -/
def printRoutine (npc : GameObject) (type : ObjectType) (t : Text) : SessionM ω Text := do
  let t ← expandBlocksM (.ofStem "DailyRoutine_Events".toList)
    (gate "DailyRoutine_HasEvents" (!npc.dailyRoutine.isEmpty) t) npc.dailyRoutine (printEvent answer npc)
  if scalarsIn (.literal "DailyRoutine_Functions".toList) t = [] then pure t
  else do
    let parts ← npc.dailyRoutine.mapM fun e => do
      let fs ← keptEvent answer npc e
      printFunctions answer .routineFunction type (.scheduleEvent e.id) fs
    pure (fill "DailyRoutine_Functions" .fitted (paragraphs parts) t)

/-- Functions of a dialog, printed where the text mentions them. -/
def printMentioned (name : String) (fs : List ScriptFunction) (t : Text) : SessionM ω Text :=
  if mentions name t then do
    let printed ← printFunctions answer .dialogFunction .npc .dialogFunction fs
    pure (fill name .fitted printed t)
  else pure t

/-- **What is printed of a dialog**: the name of its first function, that function, and all others. -/
def printDialog (npc : GameObject) (t : Text) : SessionM ω Text := do
  let found ← answer (.dialog npc.id)
  let dialog := found.filter fun d => !d.nodes.isEmpty
  let t := gate "Tale_HasNoDialog" dialog.isNone (gate "Tale_HasDialog" dialog.isSome t)
  match dialog with
  | none =>
    pure (fill "Tale_Additional_Functions" .fitted [] (fill "Tale_Initial_Function" .fitted []
      (fill "Tale_Initial_Function_Name" .inline [] t)))
  | some d =>
    if mentions "Tale_Initial_Function" t || mentions "Tale_Additional_Functions" t then do
      let fs ← thenKept (run answer (dialogFunctions npc d)) .dialog d.id
      let t ← printMentioned answer "Tale_Initial_Function" (fs.take 1)
        (fill "Tale_Initial_Function_Name" .inline (primaryName fs) t)
      printMentioned answer "Tale_Additional_Functions" (fs.drop 1) t
    else pure t

end Printing

/-! ## 3. The resolvers print -/

section Resolvers

variable {answer : (o : RenderOp) → SessionM ω o.Answer}

/-- Answers that give what is kept then. -/
structure GivesKept (answer : (o : RenderOp) → SessionM ω o.Answer) : Prop where
  functions : ∀ scope id owner script, answer (.functions scope id owner script) =
    keptFunctions answer scope id owner script
  dialog : ∀ npc d, run answer (dialogFunctions npc d) =
    thenKept (run answer (dialogFunctions npc d)) .dialog d.id

theorem givesKept_answer (e : Engine ω) (nested : NestedRender ω) (depth : Nat) :
    GivesKept (e.answer nested depth) :=
  ⟨fun _ _ owner script => functions_eq_kept owner script, dialogFunctions_eq_kept⟩

theorem run_renderFunctions (kind : ArtifactKind) (type : ObjectType) (subject : ScriptFunction → Subject)
    (fs : List ScriptFunction) :
    run answer (renderFunctions kind type subject fs) = printFunctions answer kind type subject fs := by
  unfold renderFunctions printFunctions
  rw [run_bind, run_mapM]
  refine congrArg₂ _ (congrArg (List.mapM · fs) (funext fun f => ?_)) rfl
  rw [run_bind]
  exact congrArg₂ _ (run_request _) rfl

/-! ### Snippets -/

theorem run_giveSnippet (h : GivesKept answer) (o : GameObject)
    (give : List ScriptFunction → RenderProgram Text) (captures : List Text) :
    run answer (giveSnippet o give captures) =
      printSnippet answer o (fun fs => run answer (give fs)) captures := by
  unfold giveSnippet printSnippet
  cases o.snippet? (firstCapture captures) with
  | none =>
    dsimp only
    rw [run_bind]
    exact congrArg₂ _ (run_request _) rfl
  | some s =>
    dsimp only
    rw [run_bind, ← h.functions]
    exact congrArg₂ _ (run_request _) rfl

theorem run_place (h : GivesKept answer) (o : GameObject) (type : ObjectType) (r : Text × List (List Text))
    (f : SnippetForm) :
    run answer (f.place o type r) =
      printForm answer o f.pattern f.placement (fun fs => run answer (f.give type fs)) r := by
  unfold SnippetForm.place printForm
  rw [run_bind, run_mapM]
  exact congrArg₂ _ (congrArg (List.mapM · _) (funext (run_giveSnippet h o (f.give type)))) rfl

theorem run_resolveSnippets (h : GivesKept answer) (o : GameObject) (type : ObjectType) (t : Text) :
    run answer (resolveSnippets o type t) = printSnippets answer o type t := by
  have hresolve : resolveSnippets o type t = (do
      let r ← (fillSnippets o type (o.snippetsSettled t)).run []
      reportUnused r.2 o.snippets
      pure r.1) := rfl
  rw [hresolve, run_fillSnippets]
  unfold SnippetForm.all printSnippets
  simp only [List.foldlM_cons, List.foldlM_nil, bind_pure, bind_assoc, pure_bind, run_bind, run_place h]
  have hothers : (fun fs => run answer (SnippetForm.additionalFunctions.give type fs)) =
      fun fs => printFunctions answer .snippetFunction type .snippetFunction fs.tail :=
    funext fun fs => run_renderFunctions _ _ _ _
  rw [hothers]
  rfl

/-! ### Events -/

theorem run_eventFunctions (h : GivesKept answer) (npc : GameObject) (e : ScheduleEvent) :
    run answer (eventFunctions npc e) = keptEvent answer npc e := by
  unfold eventFunctions keptEvent
  cases e.script with
  | none => rfl
  | some script => exact (run_request _).trans (h.functions _ _ _ _)

theorem run_renderEvent (h : GivesKept answer) (npc : GameObject) (e : ScheduleEvent) (p : ListPosition)
    (inner : Text) : run answer (renderEvent npc e p inner) = printEvent answer npc e p inner := by
  have hevent : renderEvent npc e p inner = (do
      let s ← .request .settings
      if mentions "DailyRoutine_Event_ScriptFunction" (filledEvent e p inner s) then do
        let fs ← eventFunctions npc e
        pure (fill "DailyRoutine_Event_ScriptFunction" .inline (primaryName fs) (filledEvent e p inner s))
      else pure (filledEvent e p inner s)) := rfl
  rw [hevent, run_bind, run_request]
  unfold printEvent
  refine bind_congr fun s => ?_
  dsimp only
  split
  · rw [run_bind, run_eventFunctions h]
    rfl
  · rfl

/-- The blocks of a list are expanded as their items are run. -/
theorem run_expandBlocksM (f : BlockFamily) (t : Text) (items : List α)
    (render : α → ListPosition → Text → RenderProgram Text) :
    run answer (expandBlocksM f t items render) =
      expandBlocksM f t items fun a p inner => run answer (render a p inner) := by
  have hitems : ∀ inner, run answer (do
      let rendered ← (positioned items).mapM fun a => render a.1 a.2 inner
      pure (joinItems rendered)) = (do
        let rendered ← (positioned items).mapM fun a => run answer (render a.1 a.2 inner)
        pure (joinItems rendered)) := by
    intro inner
    rw [run_bind, run_mapM]
    rfl
  unfold expandBlocksM
  induction BlockWalk.start f t using BlockWalk.replaceAllM.induct with
  | case1 w hw =>
    rw [BlockWalk.replaceAllM_of_none hw, BlockWalk.replaceAllM_of_none hw]
    rfl
  | case2 w b hw ih =>
    rw [BlockWalk.replaceAllM_of_some hw, BlockWalk.replaceAllM_of_some hw, run_bind, hitems]
    exact bind_congr ih

theorem run_resolveRoutine (h : GivesKept answer) (npc : GameObject) (type : ObjectType) (t : Text) :
    run answer (resolveRoutine npc type t) = printRoutine answer npc type t := by
  unfold resolveRoutine printRoutine
  dsimp only
  rw [run_bind, run_expandBlocksM]
  refine congrArg₂ _ (congrArg (expandBlocksM _ _ _ ·) (funext₃ fun e p inner => run_renderEvent h npc e p inner))
    (funext fun t => ?_)
  rw [fillOnce_eq]
  unfold fillAll
  split
  · rfl
  · unfold renderRoutineFunctions
    rw [run_bind, run_bind, run_mapM, bind_assoc]
    refine congrArg₂ _ (congrArg (List.mapM · _) (funext fun e => ?_)) rfl
    rw [run_bind, run_eventFunctions h]
    exact bind_congr fun fs => run_renderFunctions _ _ _ _

/-! ### Dialogs -/

theorem run_fillFunctions (name : String) (fs : List ScriptFunction) (t : Text) :
    run answer (fillFunctions name fs t) = printMentioned answer name fs t := by
  unfold fillFunctions printMentioned renderDialogFunctions
  split
  · rw [run_bind, run_renderFunctions]
    rfl
  · rfl

theorem run_resolveDialog (h : GivesKept answer) (npc : GameObject) (t : Text) :
    run answer (resolveDialog npc t) = printDialog answer npc t := by
  unfold resolveDialog printDialog
  rw [run_bind]
  refine congrArg₂ _ (run_request _) (funext fun found => ?_)
  dsimp only
  cases found.filter fun d => !d.nodes.isEmpty with
  | none => rfl
  | some d =>
    dsimp only
    split
    · rw [run_bind, ← h.dialog]
      refine bind_congr fun fs => ?_
      rw [run_bind, run_fillFunctions]
      exact bind_congr fun t => run_fillFunctions _ _ _
    · rfl

/-! ### Whole turns -/

variable {type : ObjectType} {referenced : List LanguageKey} {t : Text}

/-- **The resolver of snippets prints from what is kept.** -/
theorem run_snippets (h : GivesKept answer) {kind : ArtifactKind} (hkind : kind.objectType?.isSome = true)
    (o : GameObject) :
    run answer (Resolver.snippets.resolve kind ⟨.object o, type, referenced⟩ t) =
      within "Snippets" (printSnippets answer o type t) := by
  have hne : kind ≠ .snippetFunction := by
    rintro rfl
    cases hkind
  have hresolve : Resolver.snippets.resolve kind ⟨.object o, type, referenced⟩ t =
      .within "Snippets" (resolveSnippets o type t) := if_neg hne
  rw [hresolve, run_within, run_resolveSnippets h]

/-- **So does that of routines.** -/
theorem run_dailyRoutine (h : GivesKept answer) (npc : GameObject) :
    run answer (Resolver.dailyRoutine.resolve .npc ⟨.object npc, type, referenced⟩ t) =
      if mentions "DailyRoutine_" t then within "Daily routine" (printRoutine answer npc type t)
      else pure t := by
  have hresolve : Resolver.dailyRoutine.resolve .npc ⟨.object npc, type, referenced⟩ t =
      if mentions "DailyRoutine_" t then .within "Daily routine" (resolveRoutine npc type t) else pure t := rfl
  rw [hresolve]
  split
  · rw [run_within, run_resolveRoutine h]
  · rfl

/-- **And that of dialogs.** -/
theorem run_dialog (h : GivesKept answer) (npc : GameObject) :
    run answer (Resolver.dialog.resolve .npc ⟨.object npc, type, referenced⟩ t) =
      if mentions "Tale_" t then within "Dialog" (printDialog answer npc t) else pure t := by
  have hresolve : Resolver.dialog.resolve .npc ⟨.object npc, type, referenced⟩ t =
      if mentions "Tale_" t then .within "Dialog" (resolveDialog npc t) else pure t := rfl
  rw [hresolve]
  split
  · rw [run_within, run_resolveDialog h]
  · rfl

end Resolvers

end Engine
end RecordExport
