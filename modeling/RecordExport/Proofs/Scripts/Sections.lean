import Mathlib.Data.List.DropRight
import RecordExport.Proofs.Template.TrimmedLines
import RecordExport.Service.ScriptSections
/-!
# Where the lines of a script go

`scriptFunctions` cuts a script at its marks. This file says, line by line, what becomes of the script:

* `isMark` tells the lines that begin a function, and `codeBelow n` are the lines of code that have
  `n` marks above them, counted in the script as it stands;
* `TrimsTo` says that of some lines only blank ones at the two ends are gone;
* `splitsScript_scriptFunctions`: there is a function for the beginning and one for each mark. The
  function with `n` functions before it holds the lines that have `n` marks above them, trimmed, so
  no code line is lost, none is there twice, and none goes to another mark's function.
-/

namespace RecordExport

/-! ## 1. Lines -/

/-- The line begins a function: behind white space it has the function mark. -/
def isMark (l : Text) : Bool := Text.beginsWith (Text.trimStart l) functionMark

theorem isMark_eq (l : Text) : isMark l = (markedName? l).isSome := rfl

/-- The lines of a function's code; code without a character has none. -/
def codeLines (code : Text) : List Text := if code = [] then [] else splitLines code

/-- The lines that begin no function and have so many marks above them. -/
def codeBelow (marks : Nat) (ls : List Text) : List Text :=
  (ls.zipIdx.filter fun l => !isMark l.1 && (ls.take l.2).countP isMark = marks).map (·.1)

/-- Of some lines only blank ones at the ends are gone, and all of those. -/
structure TrimsTo (ls kept : List Text) : Prop where
  around : ∃ above below, ls = above ++ kept ++ below ∧
    (∀ l ∈ above, Text.allBlank l) ∧ ∀ l ∈ below, Text.allBlank l
  first : ∀ l, kept.head? = some l → Text.allBlank l = false
  last : ∀ l, kept.getLast? = some l → Text.allBlank l = false

theorem not_mem_terminatedLines {t l : Text} (hl : l ∈ terminatedLines t) : '\n' ∉ l := by
  unfold terminatedLines at hl
  rcases List.mem_append.1 hl with hl | hl
  · obtain ⟨m, hm, rfl⟩ := List.mem_map.1 hl
    have hno := not_mem_of_mem_splitLines (List.dropLast_subset _ hm)
    unfold dropReturn
    split
    · exact fun hmem => hno (List.dropLast_subset _ hmem)
    · exact hno
  · have hlast := (List.mem_filter.1 hl).1
    exact not_mem_of_mem_splitLines (List.mem_of_getLast? (Option.mem_toList.1 hlast))

/-! ## 2. Trimmed lines -/

/-- Lines without the blank ones at their ends. -/
def trimLines (ls : List Text) : List Text :=
  (ls.dropWhile Text.allBlank).rdropWhile Text.allBlank

theorem trimsTo_trimLines (ls : List Text) : TrimsTo ls (trimLines ls) where
  around := by
    refine ⟨ls.takeWhile Text.allBlank, (ls.dropWhile Text.allBlank).rtakeWhile Text.allBlank,
      ?_, fun l hl => List.mem_takeWhile_imp hl, fun l hl => List.mem_rtakeWhile_imp hl⟩
    unfold trimLines
    rw [List.append_assoc, List.rdropWhile_append_rtakeWhile, List.takeWhile_append_dropWhile]
  first := by
    intro l hl
    -- what is left begins as the lines begin without the blank ones in front
    obtain ⟨behind, hb⟩ := List.rdropWhile_prefix Text.allBlank (ls.dropWhile Text.allBlank)
    obtain ⟨kept, hk⟩ := List.head?_eq_some_iff.1 hl
    have hd : ls.dropWhile Text.allBlank = l :: (kept ++ behind) := by
      rw [← hb]
      exact congrArg (· ++ behind) hk
    have hne : ls.dropWhile Text.allBlank ≠ [] := by simp [hd]
    have hhead := List.head_dropWhile_not Text.allBlank hne
    simpa [hd] using hhead
  last := by
    intro l hl
    have hne : trimLines ls ≠ [] := by
      intro hnil
      simp [hnil] at hl
    have hlast := List.rdropWhile_last_not Text.allBlank (ls.dropWhile Text.allBlank) hne
    have hget := List.getLast?_eq_some_getLast hne
    rw [hl, Option.some.injEq] at hget
    rw [hget]
    exact Bool.eq_false_iff.2 hlast

/-- A blank line more at the end makes no difference. -/
theorem trimLines_concat (ls : List Text) {l : Text} (hl : Text.allBlank l = true) :
    trimLines (ls ++ [l]) = trimLines ls := by
  unfold trimLines
  rw [List.dropWhile_append]
  split
  · rename_i hempty
    rw [List.isEmpty_iff.1 hempty, List.dropWhile_cons_of_pos hl]
    rfl
  · rw [List.rdropWhile_concat_pos _ _ _ hl]

theorem TrimsTo.subset {ls kept : List Text} (h : TrimsTo ls kept) : kept ⊆ ls := by
  obtain ⟨above, below, rfl, -, -⟩ := h.around
  exact fun l hl => List.mem_append_left _ (List.mem_append_right _ hl)

theorem TrimsTo.filter {ls kept : List Text} (h : TrimsTo ls kept) :
    (kept.filter fun l => !Text.allBlank l) = ls.filter fun l => !Text.allBlank l := by
  obtain ⟨above, below, rfl, ha, hb⟩ := h.around
  have hnone : ∀ {ms : List Text}, (∀ l ∈ ms, Text.allBlank l) →
      (ms.filter fun l => !Text.allBlank l) = [] := by
    intro ms hms
    exact List.filter_eq_nil_iff.2 fun l hl => by simp [hms l hl]
  rw [List.filter_append, List.filter_append, hnone ha, hnone hb, List.nil_append,
    List.append_nil]

/-- The lines that joined lines have are those they were joined of, if they begin with ink. -/
theorem codeLines_joinLines {ls : List Text} (hf : ∀ l, ls.head? = some l → Text.allBlank l = false)
    (hno : ∀ l ∈ ls, '\n' ∉ l) : codeLines (joinLines ls) = ls := by
  unfold codeLines
  cases ls with
  | nil => rfl
  | cons l ls =>
    have hink : joinLines (l :: ls) ≠ [] := by
      have hl := hf l rfl
      cases l with
      | nil => cases hl
      | cons c l => cases ls <;> simp [joinLines]
    rw [if_neg hink, splitLines_joinLines (List.cons_ne_nil _ _) hno]

theorem flatMap_feed_eq (ls : List Text) :
    (ls.flatMap fun l => l ++ ['\n']) = joinLines (ls ++ [[]]) := by
  induction ls with
  | nil => rfl
  | cons l ls ih =>
    obtain ⟨m, ms, hm⟩ := List.exists_cons_of_ne_nil (show ls ++ [[]] ≠ [] by simp)
    rw [List.flatMap_cons, ih, List.cons_append, hm]
    simp [joinLines]

/-- **The code of a section has the lines of the section, trimmed.** -/
theorem codeLines_sectionCode {ls : List Text} (hno : ∀ l ∈ ls, '\n' ∉ l) :
    codeLines (sectionCode ls) = trimLines ls := by
  have hlines : splitLines (ls.flatMap fun l => l ++ ['\n']) = ls ++ [[]] := by
    rw [flatMap_feed_eq]
    refine splitLines_joinLines (by simp) fun l hl => ?_
    rcases List.mem_append.1 hl with hl | hl
    · exact hno l hl
    · rw [List.mem_singleton.1 hl]
      exact List.not_mem_nil
  have hcode : sectionCode ls = joinLines (trimLines (ls ++ [[]])) := by
    unfold sectionCode trimBlankLines
    rw [hlines]
    rfl
  have htrims := trimsTo_trimLines ls
  rw [hcode, trimLines_concat ls rfl]
  exact codeLines_joinLines htrims.first fun l hl => hno l (htrims.subset hl)

/-! ## 3. Sections -/

/-- The lines of all sections, the one before the first mark in front. -/
def sectionLines (ls : List Text) : List (List Text) :=
  (sections ls).1 :: (sections ls).2.map (·.2)

/-- Below a mark the count begins one lower; any other line belongs to the first section. -/
theorem codeBelow_cons (n : Nat) (l : Text) (ls : List Text) :
    codeBelow n (l :: ls) =
      if isMark l then (if n = 0 then [] else codeBelow (n - 1) ls)
      else (if n = 0 then [l] else []) ++ codeBelow n ls := by
  have hshift : ∀ p : Text × Nat → Bool, ((ls.zipIdx 1).filter p).map (·.1) =
      (ls.zipIdx.filter fun a => p (a.1, a.2 + 1)).map (·.1) := by
    intro p
    have hidx : ls.zipIdx 1 = ls.zipIdx.map fun a => (a.1, a.2 + 1) := by
      rw [List.zipIdx_succ]
    rw [hidx, List.filter_map, List.map_map]
    rfl
  unfold codeBelow
  rw [List.zipIdx_cons, List.filter_cons]
  by_cases hl : isMark l = true
  · rw [if_pos hl, if_neg (by simp [hl]), hshift]
    simp only [List.take_succ_cons, List.countP_cons_of_pos hl]
    cases n with
    | zero => simp
    | succ n => simp
  · rw [if_neg hl, Nat.zero_add]
    cases n with
    | zero =>
      rw [if_pos (by simp [hl]), List.map_cons, hshift]
      simp only [List.take_succ_cons, List.countP_cons_of_neg hl]
      rfl
    | succ n =>
      rw [if_neg (by simp [hl]), hshift]
      simp only [List.take_succ_cons, List.countP_cons_of_neg hl]
      rfl

theorem sections_cons_of_mark {l : Text} (hl : isMark l = true) (ls : List Text) :
    sectionLines (l :: ls) = [] :: sectionLines ls := by
  obtain ⟨name, hname⟩ := Option.isSome_iff_exists.1 (isMark_eq l ▸ hl)
  simp [sectionLines, sections, hname]

theorem sections_cons_of_code {l : Text} (hl : ¬isMark l = true) (ls : List Text) :
    sectionLines (l :: ls) = (l :: (sections ls).1) :: (sections ls).2.map (·.2) := by
  have hname : markedName? l = none := by simpa [isMark_eq] using hl
  simp [sectionLines, sections, hname]

/-- **The section with `n` sections before it has the lines with `n` marks above them.** -/
theorem getElem?_sectionLines {ls : List Text} {n : Nat} {body : List Text}
    (h : (sectionLines ls)[n]? = some body) : body = codeBelow n ls := by
  induction ls generalizing n body with
  | nil =>
    cases n with
    | zero => simpa [sectionLines, sections, codeBelow] using h.symm
    | succ n => simp [sectionLines, sections] at h
  | cons l ls ih =>
    rw [codeBelow_cons]
    by_cases hl : isMark l = true
    · rw [if_pos hl]
      rw [sections_cons_of_mark hl] at h
      cases n with
      | zero => simpa using h.symm
      | succ n => exact ih h
    · rw [if_neg hl]
      rw [sections_cons_of_code hl] at h
      cases n with
      | zero =>
        have hbody : (l :: (sections ls).1) = body := by simpa using h
        have hfirst : (sections ls).1 = codeBelow 0 ls := ih (n := 0) rfl
        rw [← hbody, ← hfirst]
        rfl
      | succ n =>
        exact ih (n := n + 1) (by simpa [sectionLines] using h)

theorem flatten_sectionLines (ls : List Text) :
    (sectionLines ls).flatten = ls.filter fun l => !isMark l := by
  induction ls with
  | nil => rfl
  | cons l ls ih =>
    by_cases hl : isMark l = true
    · rw [sections_cons_of_mark hl, List.flatten_cons, List.nil_append, ih,
        List.filter_cons_of_neg (by simp [hl])]
    · rw [sections_cons_of_code hl, List.flatten_cons, List.cons_append,
        List.filter_cons_of_pos (by simp [hl]), ← ih]
      rfl

theorem names_sections (ls : List Text) : (sections ls).2.map (·.1) = ls.filterMap markedName? := by
  induction ls with
  | nil => rfl
  | cons l ls ih =>
    unfold sections
    cases hname : markedName? l with
    | none => rw [List.filterMap_cons_none hname]; exact ih
    | some name =>
      rw [List.filterMap_cons_some hname]
      exact congrArg (name :: ·) ih

theorem mem_of_mem_sectionLines {ls body : List Text} (hb : body ∈ sectionLines ls) {l : Text}
    (hl : l ∈ body) : l ∈ ls := by
  have hmem : l ∈ (sectionLines ls).flatten := List.mem_flatten.2 ⟨body, hb, hl⟩
  rw [flatten_sectionLines] at hmem
  exact (List.mem_filter.1 hmem).1

/-! ## 4. Functions -/

/-- **Functions take a script apart**: one for what stands before the first mark and one for each
    mark, in their order, each with the lines of code that have as many marks above them as it has
    functions before it. -/
structure SplitsScript (owner : String) (script : Script) (fs : List ScriptFunction) : Prop where
  count : fs.length = 1 + (terminatedLines script.code.toList).countP isMark
  named : fs.map (·.name) = (identifierOf owner ++ "_" ++ identifierOf script.name) ::
    ((terminatedLines script.code.toList).filterMap markedName?).map fun name =>
      identifierOf owner ++ "_" ++ identifierOf script.name ++ "_" ++
        String.ofList (identifier name)
  previewed : ∀ f ∈ fs, f.parentPreview = script.name
  placed : ∀ (n : Nat) (f : ScriptFunction), fs[n]? = some f →
    TrimsTo (codeBelow n (terminatedLines script.code.toList)) (codeLines f.code.toList)
  kept : (fs.flatMap fun f => (codeLines f.code.toList).filter fun l => !Text.allBlank l) =
    (terminatedLines script.code.toList).filter fun l => !isMark l && !Text.allBlank l

theorem map_code_scriptFunctions (owner : String) (script : Script) :
    (scriptFunctions owner script).map (·.code.toList) =
      (sectionLines (terminatedLines script.code.toList)).map sectionCode := by
  simp [scriptFunctions, sectionLines, Function.comp_def]

theorem map_codeLines_scriptFunctions (owner : String) (script : Script) :
    ((scriptFunctions owner script).map fun f => codeLines f.code.toList) =
      (sectionLines (terminatedLines script.code.toList)).map trimLines := by
  have hcode := congrArg (List.map codeLines) (map_code_scriptFunctions owner script)
  rw [List.map_map, List.map_map] at hcode
  refine hcode.trans (List.map_congr_left fun body hbody => ?_)
  exact codeLines_sectionCode fun l hl =>
    not_mem_terminatedLines (mem_of_mem_sectionLines hbody hl)

/-- **Splitting a script loses and duplicates nothing.** -/
theorem splitsScript_scriptFunctions (owner : String) (script : Script) :
    SplitsScript owner script (scriptFunctions owner script) where
  count := by
    have hlength := congrArg List.length (names_sections (terminatedLines script.code.toList))
    rw [List.length_map, List.length_filterMap_eq_countP] at hlength
    simp only [scriptFunctions, List.length_cons, List.length_map, hlength]
    exact Nat.add_comm _ _
  named := by
    rw [← names_sections]
    simp [scriptFunctions, Function.comp_def]
  previewed := by
    intro f hf
    simp only [scriptFunctions, List.mem_cons, List.mem_map] at hf
    rcases hf with rfl | ⟨s, -, rfl⟩ <;> rfl
  placed := by
    intro n f hf
    have hn := congrArg (·[n]?) (map_codeLines_scriptFunctions owner script)
    simp only [List.getElem?_map, hf, Option.map_some] at hn
    obtain ⟨body, hbody, htrim⟩ := Option.map_eq_some_iff.1 hn.symm
    rw [← htrim, ← getElem?_sectionLines hbody]
    exact trimsTo_trimLines body
  kept := by
    have hlines := map_codeLines_scriptFunctions owner script
    calc ((scriptFunctions owner script).flatMap fun f =>
          (codeLines f.code.toList).filter fun l => !Text.allBlank l)
        = (((scriptFunctions owner script).map fun f => codeLines f.code.toList).flatMap
            fun ls => ls.filter fun l => !Text.allBlank l) := by
          rw [List.flatMap_map]
      _ = (sectionLines (terminatedLines script.code.toList)).flatMap
            fun body => body.filter fun l => !Text.allBlank l := by
          rw [hlines, List.flatMap_map]
          exact congrArg (List.flatMap · _) (funext fun body => (trimsTo_trimLines body).filter)
      _ = (sectionLines (terminatedLines script.code.toList)).flatten.filter
            fun l => !Text.allBlank l := by
          rw [List.filter_flatten, List.flatMap_def]
      _ = _ := by
          rw [flatten_sectionLines, List.filter_filter]
          simp only [Bool.and_comm]

example : (scriptFunctions "Goblin" ⟨"Walk", "\n a()\r\n\n b()\n@function Rest\n\n c()\n"⟩).map
    (fun f => (f.name, f.code)) = [("Goblin_Walk", " a()\n\n b()"), ("Goblin_Walk_Rest", " c()")] := by
  decide

end RecordExport
