import RecordExport.Proofs.Fields.Usage
import RecordExport.Resolver.Snippets
/-!
# Placeholders of snippets

The placeholders of snippets have three forms, and each is resolved in a pass of its own. A pass reads which
snippets are named, in the order of their places, and puts what each of them gives there.

* `SnippetForm`: the forms, and `SnippetForm.all` in the order they are resolved in (`fillSnippets_eq`);
* `giveSnippet`: what one name gives, and `run_mapM_useSnippet`: a pass gives that for all its names and notes the
  snippets they lead to.
-/

namespace RecordExport

open RenderProgram

/-! ## 1. Forms -/

/-- A form of placeholders for snippets: its names, how a value meets its line, and what is taken of the
    functions. -/
structure SnippetForm where
  pattern : Pattern
  placement : Placement
  give : ObjectType → List ScriptFunction → RenderProgram Text

namespace SnippetForm

/-- The functions but for the primary one. -/
def additionalFunctions : SnippetForm where
  pattern := SnippetPlaceholder.additionalFunctions
  placement := .fitted
  give type fs := renderFunctions .snippetFunction type .snippetFunction fs.tail

/-- The name of the primary function. -/
def functionName : SnippetForm where
  pattern := SnippetPlaceholder.functionName
  placement := .inline
  give _ fs := pure ((fs.head?.map (·.name.toList)).getD [])

/-- The code of the primary function. -/
def code : SnippetForm where
  pattern := SnippetPlaceholder.code
  placement := .fitted
  give _ fs := pure ((fs.head?.map (·.code.toList)).getD [])

/-- The forms in the order they are resolved in. -/
def all : List SnippetForm := [additionalFunctions, functionName, code]

/-- What a scalar captures, read by the first form that it has. -/
def captures? (k : Token) : Option (List Text) := (all.map (·.pattern)).findSome? (scalarCaptures · k)

/-- Fill the placeholders of a form. -/
def fill (o : GameObject) (type : ObjectType) (t : Text) (f : SnippetForm) : SnippetProgram Text :=
  replaceScalarsM f.pattern f.placement t (useSnippet o (f.give type))

/-- Names have no opening brace. -/
theorem brace_not_mem {f : SnippetForm} (hf : f ∈ all) {t : Text} {captures : List Text}
    (h : captures ∈ scalarsIn f.pattern t) : ∀ c ∈ captures, '{' ∉ c := by
  simp only [all, List.mem_cons, List.not_mem_nil, or_false] at hf
  rcases hf with rfl | rfl | rfl <;> exact not_mem_of_mem_scalarsIn h

end SnippetForm

theorem fillSnippets_eq (o : GameObject) (type : ObjectType) (t : Text) :
    fillSnippets o type t = SnippetForm.all.foldlM (SnippetForm.fill o type) t := by
  unfold SnippetForm.all
  simp only [List.foldlM_cons, List.foldlM_nil, bind_pure]
  rfl

/-! ## 2. Snippets that are reached -/

/-- What the functions give that are asked for under the owner's id and that of the snippet with a name; a name
    without a snippet is reported. -/
def giveSnippet (o : GameObject) (give : List ScriptFunction → RenderProgram Text) (captures : List Text) :
    RenderProgram Text :=
  match o.snippet? (firstCapture captures) with
  | some s => do
    let fs ← functions .snippet (o.id ++ "/" ++ s.id) o.name s.script
    give fs
  | none => do
    record .missingReference
      (o.name ++ " has no export snippet '" ++ String.ofList (firstCapture captures) ++ "'")
    pure (missingMarker o.name (String.ofList (firstCapture captures))).toList

/-- The ids of the snippets that names lead to. -/
def reachedSnippets (o : GameObject) (names : List (List Text)) : List String :=
  names.filterMap fun captures => (o.snippet? (firstCapture captures)).map (·.id)

theorem run_useSnippet (give : List ScriptFunction → RenderProgram Text) (captures : List Text)
    (used : List String) :
    (useSnippet o give captures).run used =
      (do let v ← giveSnippet o give captures
          pure (v, ((o.snippet? (firstCapture captures)).map (·.id)).toList ++ used)) := by
  have hname : captures.getD 0 [] = firstCapture captures := rfl
  unfold useSnippet giveSnippet
  dsimp only
  rw [hname]
  cases o.snippet? (firstCapture captures) with
  | some s => rfl
  | none => rfl

/-- **The snippets that names lead to are noted**, whatever becomes of their functions. -/
theorem run_mapM_useSnippet (give : List ScriptFunction → RenderProgram Text) (names : List (List Text))
    (used : List String) :
    (names.mapM (useSnippet o give)).run used =
      (do let vs ← names.mapM (giveSnippet o give)
          pure (vs, (reachedSnippets o names).reverse ++ used)) := run_mapM_noted (run_useSnippet give) names used

/-- What a form puts in the places of a text, and the names that all forms met so far. -/
def SnippetForm.place (o : GameObject) (type : ObjectType) (r : Text × List (List Text)) (f : SnippetForm) :
    RenderProgram (Text × List (List Text)) := do
  let names := scalarsIn f.pattern r.1
  let values ← names.mapM (giveSnippet o (f.give type))
  pure (placeValues f.pattern f.placement values r.1, r.2 ++ names)

theorem run_fill (o : GameObject) (type : ObjectType) (f : SnippetForm) (t : Text) (names : List (List Text)) :
    (SnippetForm.fill o type t f).run (reachedSnippets o names).reverse =
      (do let r ← SnippetForm.place o type (t, names) f
          pure (r.1, (reachedSnippets o r.2).reverse)) := by
  unfold SnippetForm.fill SnippetForm.place
  rw [replaceScalarsM_eq, StateT.run_bind, run_mapM_useSnippet]
  simp only [bind_assoc, pure_bind, StateT.run_pure, reachedSnippets, List.filterMap_append, List.reverse_append]

/-- Forms one after the other, by induction on them: what was noted is told by the names met so far. -/
theorem run_foldlM_fill (o : GameObject) (type : ObjectType) (fs : List SnippetForm) (t : Text)
    (names : List (List Text)) :
    (fs.foldlM (SnippetForm.fill o type) t).run (reachedSnippets o names).reverse =
      (do let r ← fs.foldlM (SnippetForm.place o type) (t, names)
          pure (r.1, (reachedSnippets o r.2).reverse)) := by
  induction fs generalizing t names with
  | nil => rfl
  | cons f fs ih =>
    rw [List.foldlM_cons, List.foldlM_cons, StateT.run_bind, run_fill]
    simp only [bind_assoc, pure_bind, ih]

/-- **Every placeholder of a snippet is filled with what the functions of the snippet it names give**, and the
    snippets that were named are noted. -/
theorem run_fillSnippets (o : GameObject) (type : ObjectType) (t : Text) :
    (fillSnippets o type t).run [] =
      (do let r ← SnippetForm.all.foldlM (SnippetForm.place o type) (t, [])
          pure (r.1, (reachedSnippets o r.2).reverse)) := by
  rw [fillSnippets_eq]
  exact run_foldlM_fill o type SnippetForm.all t []

/-- What the conditions on snippets leave of a text. -/
def GameObject.snippetsSettled (o : GameObject) (t : Text) : Text :=
  keepBlocks SnippetPlaceholder.hasNotSnippet
    (keepBlocks SnippetPlaceholder.hasSnippet t fun cs => (o.snippet? (firstCapture cs)).isSome)
    fun cs => (o.snippet? (firstCapture cs)).isNone

end RecordExport
