import RecordExport.Proofs.Fields.Export
import RecordExport.Proofs.LanguageKeys.ObjectKeys
import RecordExport.Proofs.Render.Nesting
import RecordExport.Proofs.Scripts.Sections
import RecordExport.Proofs.Template.OnePass
import RecordExport.Proofs.Template.Seams
import RecordExport.Template.BuiltIn
/-!
# What functions put into a text

The functions of a script without opening braces have none either, and the built-in template of a snippet's
function has none outside its placeholders. So what is put in for a snippet makes no placeholder, and a nested
render of one of its functions says nothing.

* `count_placeValues`: values without opening braces leave the braces of the other placeholders, by counting;
* `unbraced_scriptFunctions`: **functions of a script without opening braces have none**;
* `unbraced_resolveSnippetFunction`: neither has such a function in its built-in template;
* `Engine.pass_snippetFunction`: a render of it gives this text and leaves the session as it was.
-/

namespace RecordExport

variable {ω : Type}

/-! ## 1. Counting braces -/

section Count

variable {t v : Text}

/-- White space holds no brace. -/
theorem count_ink (t : Text) : (ink t).count '{' = t.count '{' := List.count_filter rfl

theorem count_unspaced (t : Text) : t.unspaced.count '{' = t.count '{' := List.count_filter rfl

theorem count_behindLine (h : (Text.firstLine t).all isPadding = true) : t.behindLine.count '{' = t.count '{' := by
  have hspelled := unspaced_eq_of_spelled_eq (spelled_behindLine h)
  rw [source_tokenize, source_tokenize] at hspelled
  rw [← count_unspaced, hspelled, count_unspaced]

theorem count_aheadOfLine (h : (Text.lastLine t).all isPadding = true) : t.aheadOfLine.count '{' = t.count '{' := by
  have hspelled := unspaced_eq_of_spelled_eq (spelled_aheadOfLine h)
  rw [source_tokenize, source_tokenize] at hspelled
  rw [← count_unspaced, hspelled, count_unspaced]

theorem count_braced {b : Text} (hb : IsBody b) : (braced b).count '{' = 2 := by
  have hbody : b.count '{' = 0 := List.count_eq_zero.2 fun hm => by cases hb.chars _ hm
  unfold braced
  simp [List.count_append, hbody]

theorem count_insertion (placement : Placement) (written rest : Text) (hv : '{' ∉ v) :
    (insertion placement written rest v).written.count '{' = written.count '{' := by
  have hv : v.count '{' = 0 := List.count_eq_zero.2 hv
  unfold insertion
  split
  · rw [List.count_append, hv, Nat.add_zero]
  · split
    · split
      · rename_i halone
        exact count_aheadOfLine (Bool.and_eq_true_iff.1 halone).1
      · rfl
    · rw [List.count_append, ← count_ink (applyIndent _ _), ink_applyIndent (allBlank_leadingIndent written),
        ink_trimBlankLines, count_ink, hv, Nat.add_zero]

/-- **A step of a walk takes two braces away.** -/
theorem count_replace {w : ScalarWalk} {m : ScalarMatch} (hm : w.next.current = some m) (hv : '{' ∉ v) :
    (w.next.replace v).text.count '{' + 2 = w.text.count '{' := by
  obtain ⟨pre, b, post, hts, -, hleft, hright, -⟩ := findScalar_split hm
  obtain ⟨hbefore, hrest⟩ := replace_eq_insertion hm v
  have hbody : IsBody b := isBody_of_mem_tokenize (hts ▸ List.mem_append_right _ List.mem_cons_self)
  have hsource : w.rest = m.left ++ (braced b ++ m.right) := by
    rw [← source_tokenize w.rest, hts, sourceOf_append, sourceOf_cons, hleft, hright]
    rfl
  have hright : (w.next.replace v).rest.count '{' = m.right.count '{' := by
    rw [hrest]
    split
    · rename_i hdrops
      exact count_behindLine (padding_of_dropsLine hdrops)
    · rfl
  unfold ScalarWalk.text
  rw [List.count_append, hbefore, count_insertion _ _ _ hv, hright, hsource]
  simp only [List.count_append, count_braced hbody]
  omega

/-- **Values without opening braces take two of them away for each scalar.** -/
theorem count_placeValues (p : Pattern) (placement : Placement) {vs : List Text} (hvs : ∀ v ∈ vs, '{' ∉ v)
    (hlength : vs.length = (scalarsIn p t).length) :
    (placeValues p placement vs t).count '{' + 2 * vs.length = t.count '{' := by
  have hwalk : ∀ (vs : List Text) (w : ScalarWalk), (∀ v ∈ vs, '{' ∉ v) →
      vs.length = (scalarsIn w.pattern w.rest).length →
      (w.placeValues vs).count '{' + 2 * vs.length = w.text.count '{' := by
    intro vs
    induction vs with
    | nil => exact fun _ _ _ => rfl
    | cons v vs ih =>
      intro w hvs hlength
      cases hcurrent : w.next.current with
      | none =>
        rw [ScalarWalk.scalarsIn_of_none hcurrent] at hlength
        cases hlength
      | some m =>
        rw [ScalarWalk.scalarsIn_of_some hcurrent v, List.length_cons, List.length_cons] at hlength
        have hgo := ih (w.next.replace v) (fun v hv => hvs v (List.mem_cons_of_mem _ hv))
          (by rw [ScalarWalk.pattern_replace]; exact Nat.succ.inj hlength)
        have hstep := count_replace hcurrent (hvs v List.mem_cons_self)
        rw [ScalarWalk.placeValues, List.length_cons]
        omega
  exact hwalk vs (.start p placement t) hvs hlength

end Count

/-! ## 2. Functions of a script -/

/-- No text of the function has an opening brace. -/
structure ScriptFunction.Unbraced (f : ScriptFunction) : Prop where
  name : '{' ∉ f.name.toList
  code : '{' ∉ f.code.toList
  parentPreview : '{' ∉ f.parentPreview.toList

theorem brace_not_mem_of_mem_splitLines {t l : Text} (h : '{' ∉ t) (hl : l ∈ splitLines t) : '{' ∉ l := by
  intro hm
  have hink : '{' ∈ ink (joinLines (splitLines t)) := by
    rw [ink_joinLines]
    exact List.mem_flatMap.2 ⟨l, hl, List.mem_filter.2 ⟨hm, rfl⟩⟩
  rw [joinLines_splitLines] at hink
  exact h (List.mem_filter.1 hink).1

theorem brace_not_mem_of_mem_terminatedLines {t l : Text} (h : '{' ∉ t) (hl : l ∈ terminatedLines t) :
    '{' ∉ l := by
  unfold terminatedLines at hl
  rcases List.mem_append.1 hl with hl | hl
  · obtain ⟨m, hm, rfl⟩ := List.mem_map.1 hl
    have hline := brace_not_mem_of_mem_splitLines h (List.dropLast_subset _ hm)
    unfold dropReturn
    split
    · exact fun hmem => hline (List.dropLast_subset _ hmem)
    · exact hline
  · have hlast := (List.mem_filter.1 hl).1
    exact brace_not_mem_of_mem_splitLines h (List.mem_of_getLast? (Option.mem_toList.1 hlast))

theorem brace_not_mem_sectionCode {ls : List Text} (h : ∀ l ∈ ls, '{' ∉ l) : '{' ∉ sectionCode ls := by
  intro hm
  obtain ⟨l, hl, hm⟩ := List.mem_flatMap.1 ((infix_trimBlankLines _).subset hm)
  rcases List.mem_append.1 hm with hm | hm
  · exact h l hl hm
  · cases List.mem_singleton.1 hm

/-- **Functions of a script without opening braces have none.** -/
theorem unbraced_scriptFunctions (owner : String) (script : Script) (hname : '{' ∉ script.name.toList)
    (hcode : '{' ∉ script.code.toList) : ∀ f ∈ scriptFunctions owner script, f.Unbraced := by
  have hid : ∀ name, '{' ∉ (identifierOf name).toList := not_mem_identifierOf rfl
  have hbase := not_mem_joined rfl (hid owner) (hid script.name)
  have hbody : ∀ body ∈ sectionLines (terminatedLines script.code.toList), '{' ∉ sectionCode body :=
    fun body hb => brace_not_mem_sectionCode fun l hl =>
      brace_not_mem_of_mem_terminatedLines hcode (mem_of_mem_sectionLines hb hl)
  intro f hf
  rcases List.mem_cons.1 hf with rfl | hf
  · refine ⟨hbase, ?_, hname⟩
    rw [String.toList_ofList]
    exact hbody _ List.mem_cons_self
  · obtain ⟨s, hs, rfl⟩ := List.mem_map.1 hf
    refine ⟨not_mem_joined rfl hbase ?_, ?_, hname⟩
    · rw [String.toList_ofList]
      exact not_mem_identifier rfl _
    · rw [String.toList_ofList]
      exact hbody _ (List.mem_cons_of_mem _ (List.mem_map_of_mem hs))

theorem brace_not_mem_paragraphs {ts : List Text} (h : ∀ t ∈ ts, '{' ∉ t) : '{' ∉ paragraphs ts := by
  have hgo : ∀ ts : List Text, (∀ t ∈ ts, '{' ∉ t) → '{' ∉ ['\n', '\n'].intercalate ts := by
    intro ts hts
    induction ts with
    | nil => exact List.not_mem_nil
    | cons t ts ih =>
      obtain ⟨ht, hts⟩ := List.forall_mem_cons.1 hts
      cases ts with
      | nil =>
        rw [List.intercalate_singleton]
        exact ht
      | cons u ts =>
        rw [List.intercalate_cons_cons]
        simp [ht, ih hts]
  exact hgo _ fun t ht => h t (List.mem_filter.1 ht).1

/-! ## 3. The built-in template of a function -/

section BuiltIn

/-- The placeholders of the built-in template. -/
theorem sealed_snippetFunction : Sealed ["SnippetFunction_ParentPreview".toList, "SnippetFunction_Name".toList,
    "SnippetFunction_Content".toList] (BuiltIn.template .snippetFunction) :=
  .hole (l := "-- ".toList) rfl (by decide) <| .hole (l := "\nfunction ".toList) rfl (by decide) <|
    .hole (l := "()\n    ".toList) rfl (by decide) (.plain (l := "\nend\n".toList) rfl)

/-- A value in the place of the placeholders of a name. -/
theorem Sealed.fill {bs : List Text} {t v : Text} (h : Sealed bs t) (name : String) (placement : Placement)
    (hv : '{' ∉ v) :
    Sealed (unmatched (.literal name.toList) bs) (RecordExport.fill name placement v t) ∧
      (RecordExport.fill name placement v t).count '{' +
        2 * (bs.filterMap fun b => scalarCaptures (.literal name.toList) (.placeholder b)).length = t.count '{' := by
  unfold RecordExport.fill
  rw [replaceScalars_eq]
  have hvs : ∀ v' ∈ (scalarsIn (.literal name.toList) t).map fun _ => v, '{' ∉ v' := fun v' hv' => by
    obtain ⟨_, -, rfl⟩ := List.mem_map.1 hv'
    exact hv
  have hcount := count_placeValues (.literal name.toList) placement hvs (List.length_map _)
  rw [List.length_map, scalarsIn_sealed _ h] at hcount
  refine ⟨h.placeValues placement (fun v hv => .of_not_mem (hvs v hv)) (List.length_map _), ?_⟩
  rw [← hcount, scalarsIn_sealed _ h]

/-- **A function in the built-in template has no opening brace**, if it has none itself. -/
theorem unbraced_resolveSnippetFunction {f : ScriptFunction} (h : f.Unbraced) :
    '{' ∉ resolveSnippetFunction f (BuiltIn.template .snippetFunction) := by
  have hone : ∀ {n m k : Nat}, k = 1 → n + 2 * k = m → n + 2 = m := fun hk h => by omega
  obtain ⟨hnamed, hcount⟩ := sealed_snippetFunction.fill "SnippetFunction_Name" .inline h.name
  obtain ⟨hpreviewed, hcount'⟩ := hnamed.fill "SnippetFunction_ParentPreview" .inline h.parentPreview
  obtain ⟨-, hcount''⟩ := hpreviewed.fill "SnippetFunction_Content" .fitted h.code
  have hbuiltIn : (BuiltIn.template .snippetFunction).count '{' = 6 := by decide
  have hcount := hone (by decide) hcount
  have hcount' := hone (by decide) hcount'
  have hcount'' := hone (by decide) hcount''
  refine List.count_eq_zero.1 ?_
  unfold resolveSnippetFunction
  dsimp only
  omega

/-- The built-in template has no issues. -/
theorem validate_snippetFunction (services : Services ω) (maxDepth : Nat) :
    (Engine.standard services maxDepth).validate (BuiltIn.template .snippetFunction) = [] := by
  refine validate_eq_nil_iff.2 ?_
  rw [Engine.families_standard]
  decide +kernel

/-- A nested render that reports nothing leaves the log as it was. -/
theorem DiagnosticLog.mergeUnder_empty (label : Option String) (l : DiagnosticLog) : l.mergeUnder label .empty = l := by
  have hentries : (l.mergeUnder label .empty).entries = l.entries :=
    (entries_mergeUnder label l .empty).trans (List.append_nil _)
  have hbreadcrumb := breadcrumb_mergeUnder label .empty l
  generalize l.mergeUnder label .empty = l' at hentries hbreadcrumb
  cases l
  cases l'
  cases hentries
  cases hbreadcrumb
  rfl

namespace Engine

variable (services : Services ω) (maxDepth left : Nat) (f : ScriptFunction) (type : ObjectType)

/-- **A render of a function in the built-in template** gives its text and leaves the session as it was. -/
theorem pass_snippetFunction (s : Session ω) :
    (Engine.standard services maxDepth).pass left .snippetFunction (.of (.snippetFunction f) type)
        (BuiltIn.template .snippetFunction) s =
      (if s.cancelled then .error .cancelled
        else .ok (resolveSnippetFunction f (BuiltIn.template .snippetFunction)), s) := by
  have hreported : (Engine.standard services maxDepth).reported (BuiltIn.template .snippetFunction) s = s := by
    unfold reported
    rw [validate_snippetFunction]
    rfl
  have happlicable : (Engine.standard services maxDepth).applicable .snippetFunction = [.snippets] :=
    applicable_standard services maxDepth .snippetFunction
  rw [pass_apply, hreported, happlicable, List.foldlM_cons, SessionM.bind_apply, attempt_apply]
  cases s.cancelled <;> rfl

/-- So does a nested one, above the limit. -/
theorem nested_snippetFunction (label : String) (s : Session ω) :
    (Engine.standard services maxDepth).nested (left + 1)
        ⟨.snippetFunction, BuiltIn.template .snippetFunction, .of (.snippetFunction f) type, some label⟩ s =
      (if s.cancelled then .error .cancelled
        else .ok (.ok (resolveSnippetFunction f (BuiltIn.template .snippetFunction))), s) := by
  rw [nested_apply, pass_snippetFunction]
  dsimp only
  rw [DiagnosticLog.mergeUnder_empty]
  obtain ⟨_, _, _, _ | _⟩ := s <;> rfl

end Engine

end BuiltIn

end RecordExport
