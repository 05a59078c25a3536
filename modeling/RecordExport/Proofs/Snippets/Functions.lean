import RecordExport.Proofs.Render.Cast
import RecordExport.Proofs.Render.Course
import RecordExport.Proofs.Snippets.Forms
/-!
# The functions of snippets

A placeholder of a snippet asks for the functions of its code, and a render derives them once: they are
kept under the owner's id and the snippet's, joined by a slash. Everything nested in the render shares
what is kept. So the functions are those of the first snippet that was asked for under the joined id, and
two snippets whose joined ids are the same get the functions of one of them.

* `Course.firstAsked`: along a course, what is kept under a joined id is what was derived for the first
  snippet asked for under it;
* `SnippetsAnswered.filled`: a placeholder is filled with what the functions give that are answered for
  the snippet it names;
* `Engine.snippetsAnswered_render`: so a render is right about its snippets exactly if no two of them
  with the same joined id have different functions, which holds where object ids have no slashes.
-/

namespace RecordExport

variable {ω : Type}

/-! ## 1. What was asked and answered -/

/-- Functions of a snippet, as they were asked for and answered. -/
structure SnippetAnswer where
  id : String
  owner : String
  script : Script
  functions : List ScriptFunction

/-- An event that answers with a snippet's functions. -/
def RenderEvent.snippet? : RenderEvent → Option SnippetAnswer
  | .answered (.functions .snippet id owner script) fs => some ⟨id, owner, script, fs⟩
  | _ => none

theorem RenderEvent.snippet?_of_ne {scope : MemoScope} (hscope : scope ≠ .snippet)
    (id owner : String) (script : Script) (fs : List ScriptFunction) :
    (RenderEvent.answered (.functions scope id owner script) fs).snippet? = none := by
  cases scope with
  | snippet => exact absurd rfl hscope
  | _ => rfl

theorem RenderEvent.snippet?_of_asksElse {o : RenderOp} (ho : o.AsksElse) (x : o.Answer) :
    (RenderEvent.answered o x).snippet? = none := by
  cases o with
  | functions scope id owner script => exact ho.elim
  | _ => rfl

theorem RenderEvent.snippet?_functions {scope : MemoScope} {id owner : String} {script : Script}
    {fs : List ScriptFunction} {a : SnippetAnswer}
    (h : (RenderEvent.answered (.functions scope id owner script) fs).snippet? = some a) :
    scope = .snippet ∧ a = ⟨id, owner, script, fs⟩ := by
  cases scope with
  | snippet => exact ⟨rfl, (Option.some.inj h).symm⟩
  | _ => cases h

/-- The snippets a transcript has functions of, in the order they were asked for. -/
def Transcript.snippets (T : Transcript) : List SnippetAnswer := T.filterMap (·.snippet?)

theorem Transcript.snippets_concat (T : Transcript) (ev : RenderEvent) :
    Transcript.snippets (T ++ [ev]) = T.snippets ++ ev.snippet?.toList := filterMap_concat _ T ev

/-- The first of some answers under an id. -/
def firstUnder (id : String) (answers : List SnippetAnswer) : Option SnippetAnswer :=
  answers.find? (·.id = id)

/-- **Answers are those of the first that was asked for under their id**, which the generator gave, and
    so are the functions that are kept. -/
structure FirstAsked (gen : String → Script → List ScriptFunction) (memo : FunctionMemo)
    (answers : List SnippetAnswer) : Prop where
  kept : ∀ id, memo.get? .snippet id = (firstUnder id answers).map (·.functions)
  derived : ∀ id b, firstUnder id answers = some b → b.functions = gen b.owner b.script
  same : ∀ a ∈ answers, ∃ b, firstUnder a.id answers = some b ∧ a.functions = b.functions

section FirstAsked

variable {gen : String → Script → List ScriptFunction} {memo : FunctionMemo}
  {answers : List SnippetAnswer} {id owner : String} {script : Script} {fs : List ScriptFunction}

theorem firstUnder_concat (id : String) (answers : List SnippetAnswer) (a : SnippetAnswer) :
    firstUnder id (answers ++ [a]) =
      (firstUnder id answers).or (if a.id = id then some a else none) := by
  unfold firstUnder
  rw [List.find?_append, List.find?_singleton]
  simp only [decide_eq_true_eq]

theorem firstAsked_nil : FirstAsked gen .empty [] where
  kept _ := rfl
  derived id b h := by cases h
  same a ha := absurd ha List.not_mem_nil

/-- What is kept under another scope does not matter. -/
theorem FirstAsked.insert_ne (h : FirstAsked gen memo answers) {scope : MemoScope}
    (hscope : scope ≠ .snippet) (id : String) (fs : List ScriptFunction) :
    FirstAsked gen (memo.insert scope id fs) answers where
  kept id' := by
    have hne : (MemoScope.snippet, id') ≠ (scope, id) := fun h => hscope (Prod.mk.inj h).1.symm
    rw [FunctionMemo.get?_insert, if_neg hne]
    exact h.kept id'
  derived := h.derived
  same := h.same

/-- A snippet whose functions are kept is not the first. -/
theorem FirstAsked.known (h : FirstAsked gen memo answers) (hm : memo.get? .snippet id = some fs) :
    FirstAsked gen memo (answers ++ [⟨id, owner, script, fs⟩]) := by
  rw [h.kept id] at hm
  obtain ⟨b, hb, hfs⟩ := Option.map_eq_some_iff.1 hm
  have hfirst : ∀ id', firstUnder id' (answers ++ [⟨id, owner, script, fs⟩]) =
      firstUnder id' answers := by
    intro id'
    rw [firstUnder_concat]
    by_cases hid : id = id'
    · rw [← hid, hb]
      rfl
    · rw [if_neg hid, Option.or_none]
  constructor
  case kept =>
    intro id'
    rw [hfirst]
    exact h.kept id'
  case derived =>
    intro id' b' hb'
    rw [hfirst] at hb'
    exact h.derived id' b' hb'
  case same =>
    intro a ha
    rw [hfirst]
    rcases List.mem_append.1 ha with ha | ha
    · exact h.same a ha
    · obtain rfl := List.mem_singleton.1 ha
      exact ⟨b, hb, hfs.symm⟩

/-- A snippet whose functions are derived is the first. -/
theorem FirstAsked.derive (h : FirstAsked gen memo answers) (hm : memo.get? .snippet id = none) :
    FirstAsked gen (memo.insert .snippet id (gen owner script))
      (answers ++ [⟨id, owner, script, gen owner script⟩]) := by
  rw [h.kept id, Option.map_eq_none_iff] at hm
  have hnew : firstUnder id (answers ++ [⟨id, owner, script, gen owner script⟩]) =
      some ⟨id, owner, script, gen owner script⟩ := by
    rw [firstUnder_concat, hm, if_pos rfl]
    rfl
  have hold : ∀ id', id ≠ id' →
      firstUnder id' (answers ++ [⟨id, owner, script, gen owner script⟩]) = firstUnder id' answers := by
    intro id' hid
    rw [firstUnder_concat, if_neg hid, Option.or_none]
  constructor
  case kept =>
    intro id'
    rw [FunctionMemo.get?_insert]
    by_cases hid : id = id'
    · subst hid
      rw [if_pos rfl, hnew]
      rfl
    · rw [if_neg fun h => hid (Prod.mk.inj h).2.symm, hold id' hid]
      exact h.kept id'
  case derived =>
    intro id' b hb
    by_cases hid : id = id'
    · subst hid
      rw [hnew] at hb
      obtain rfl := Option.some.inj hb
      rfl
    · rw [hold id' hid] at hb
      exact h.derived id' b hb
  case same =>
    intro a ha
    rcases List.mem_append.1 ha with ha | ha
    · obtain ⟨b, hb, hfs⟩ := h.same a ha
      have hid : id ≠ a.id := by
        rintro rfl
        rw [hm] at hb
        cases hb
      exact ⟨b, (hold a.id hid).trans hb, hfs⟩
    · obtain rfl := List.mem_singleton.1 ha
      exact ⟨_, hnew, rfl⟩

/-- **Answers are right exactly if no two under one id have different functions.** -/
theorem FirstAsked.right_iff (h : FirstAsked gen memo answers) :
    (∀ a ∈ answers, a.functions = gen a.owner a.script) ↔
      ∀ a ∈ answers, ∀ b ∈ answers, a.id = b.id → gen a.owner a.script = gen b.owner b.script := by
  constructor
  · intro hright a ha b hb hid
    obtain ⟨a', ha', hfa⟩ := h.same a ha
    obtain ⟨b', hb', hfb⟩ := h.same b hb
    rw [hid] at ha'
    obtain rfl := Option.some.inj (ha'.symm.trans hb')
    rw [← hright a ha, ← hright b hb, hfa, hfb]
  · intro hsame a ha
    obtain ⟨b, hb, hfs⟩ := h.same a ha
    have hid : b.id = a.id := by simpa using List.find?_some hb
    rw [hfs, h.derived a.id b hb]
    exact hsame b (List.mem_of_find?_eq_some hb) a ha hid

end FirstAsked

/-! ## 2. Courses -/

section Course

variable {C : Cast} {e : Engine ω} {d : Nat} {memo : FunctionMemo} {T : Transcript}

/-- Along a course what is kept and what was answered belong to the first that was asked for. -/
theorem Course.firstAsked {gen : String → Script → List ScriptFunction}
    (hgen : ∀ owner script w, (e.services.functions owner script w).result = .ok (gen owner script))
    {d₀ : Nat} (h : Course C.contract e d₀ .empty d memo T) : FirstAsked gen memo T.snippets := by
  induction h with
  | start => exact firstAsked_nil
  | keeps scope id fs hk h ih =>
    have hscope : scope = .dialog := hk
    refine ih.insert_ne ?_ id fs
    rw [hscope]
    exact fun h => by cases h
  | @known d memo T scope id fs owner script hs hm h ih =>
    rw [Transcript.snippets_concat]
    by_cases hscope : scope = .snippet
    · subst hscope
      exact ih.known hm
    · rw [RenderEvent.snippet?_of_ne hscope, Option.toList_none, List.append_nil]
      exact ih
  | @derived d memo T scope id owner script fs hs hm hfs h ih =>
    obtain ⟨w, hw⟩ := hfs
    rw [Transcript.snippets_concat]
    by_cases hscope : scope = .snippet
    · subst hscope
      obtain rfl : gen owner script = fs := Except.ok.inj ((hgen owner script w).symm.trans hw)
      exact ih.derive hm
    · rw [RenderEvent.snippet?_of_ne hscope, Option.toList_none, List.append_nil]
      exact ih.insert_ne hscope id fs
  | underived hs hm herr h ih =>
    obtain ⟨w, hw⟩ := herr
    rw [hgen] at hw
    cases hw
  | answered o x helse ho hx ht h ih =>
    rw [Transcript.snippets_concat, RenderEvent.snippet?_of_asksElse helse, Option.toList_none,
      List.append_nil]
    exact ih
  | _ =>
    rw [Transcript.snippets_concat]
    simpa [RenderEvent.snippet?]

theorem forall_snippets_concat {P : SnippetAnswer → Prop} {ev : RenderEvent}
    (hT : ∀ a ∈ T.snippets, P a) (hev : ∀ a, ev.snippet? = some a → P a) :
    ∀ a ∈ Transcript.snippets (T ++ [ev]), P a := by
  intro a ha
  rw [Transcript.snippets_concat] at ha
  rcases List.mem_append.1 ha with ha | ha
  · exact hT a ha
  · exact hev a (Option.mem_toList.1 ha)

/-- Along a course the scripts that were asked for are those a contract allows. -/
theorem Course.scripted {K : Contract} {d₀ : Nat} {memo₀ : FunctionMemo}
    (h : Course K e d₀ memo₀ d memo T) :
    ∀ a ∈ T.snippets, K.script .snippet a.id a.owner a.script := by
  have hfunctions : ∀ {scope id owner script fs}, K.script scope id owner script →
      ∀ a, (RenderEvent.answered (.functions scope id owner script) fs).snippet? = some a →
        K.script .snippet a.id a.owner a.script := by
    intro scope id owner script fs hs a ha
    obtain ⟨rfl, rfl⟩ := RenderEvent.snippet?_functions ha
    exact hs
  induction h with
  | start => exact fun a ha => absurd ha List.not_mem_nil
  | keeps scope id fs hk h ih => exact ih
  | known owner script hs hm h ih => exact forall_snippets_concat ih (hfunctions hs)
  | derived hs hm hfs h ih => exact forall_snippets_concat ih (hfunctions hs)
  | underived hs hm herr h ih => exact forall_snippets_concat ih (hfunctions hs)
  | answered o x helse ho hx ht h ih =>
    refine forall_snippets_concat ih fun a ha => ?_
    rw [RenderEvent.snippet?_of_asksElse helse] at ha
    cases ha
  | _ => exact forall_snippets_concat (by assumption) fun a ha => by cases ha

end Course

/-! ## 3. Renders -/

/-- The cast of a render of an object over collaborators: the object and all that can be found. -/
def Services.cast (s : Services ω) (o : GameObject) : Cast where
  shows v := v = o ∨ ∃ id w, (s.object id w).result = .ok v
  object id v := ∃ w, (s.object id w).result = .ok v
  dialog _ _ := True
  source _ _ := True
  shows_of_object h := .inr ⟨_, h⟩
  source_name _ := trivial
  source_field _ := trivial
  source_node _ _ _ := trivial

/-- A list is cut at the first place of what is not in its beginning. -/
theorem append_cons_inj {α : Type} {c : α} {l l' r r' : List α} (hl : c ∉ l) (hl' : c ∉ l')
    (h : l ++ c :: r = l' ++ c :: r') : l = l' ∧ r = r' := by
  induction l generalizing l' with
  | nil =>
    cases l' with
    | nil => exact ⟨rfl, (List.cons.inj h).2⟩
    | cons x l' =>
      obtain ⟨rfl, -⟩ := List.cons.inj h
      exact absurd List.mem_cons_self hl'
  | cons x l ih =>
    cases l' with
    | nil =>
      obtain ⟨rfl, -⟩ := List.cons.inj h
      exact absurd List.mem_cons_self hl
    | cons x' l' =>
      obtain ⟨rfl, htail⟩ := List.cons.inj h
      obtain ⟨rfl, hr⟩ := ih (fun hc => hl (List.mem_cons_of_mem _ hc))
        (fun hc => hl' (List.mem_cons_of_mem _ hc)) htail
      exact ⟨rfl, hr⟩

/-- Ids joined by a slash are told apart if the first of them have none. -/
theorem joined_inj {a b a' b' : String} (ha : '/' ∉ a.toList) (ha' : '/' ∉ a'.toList)
    (h : a ++ "/" ++ b = a' ++ "/" ++ b') : a = a' ∧ b = b' := by
  have hlists : a.toList ++ '/' :: b.toList = a'.toList ++ '/' :: b'.toList := by
    simpa using congrArg String.toList h
  obtain ⟨hfirst, hsecond⟩ := append_cons_inj ha ha' hlists
  exact ⟨String.toList_inj.1 hfirst, String.toList_inj.1 hsecond⟩

/-- Objects are told apart by their ids, which have no slashes, and the snippets of each by theirs. -/
structure TellsSnippetsApart (shows : GameObject → Prop) : Prop where
  objects : ∀ o o', shows o → shows o' → o.id = o'.id → o = o'
  slashless : ∀ o, shows o → '/' ∉ o.id.toList
  snippets : ∀ o, shows o → (o.snippets.map (·.id)).Nodup

/-- **What a render was answered about snippets.** -/
structure SnippetsAnswered (gen : String → Script → List ScriptFunction)
    (shows : GameObject → Prop) (answers : List SnippetAnswer) : Prop where
  /-- every placeholder of a snippet is filled with what the functions give that are answered for the owner and the
      snippet it names: its other functions, the name of the primary one or its code -/
  filled : ∀ o type t, (fillSnippets o type t).run [] = (do
    let r ← SnippetForm.all.foldlM (SnippetForm.place o type) (t, [])
    pure (r.1, (reachedSnippets o r.2).reverse))
  /-- functions were asked for of snippets of objects that are shown, under joined ids -/
  sourced : ∀ a ∈ answers, ∃ o s, shows o ∧ s ∈ o.snippets ∧ a.id = o.id ++ "/" ++ s.id ∧
    a.owner = o.name ∧ a.script = s.script
  /-- they are those of the first snippet that was asked for under the joined id -/
  first : ∀ a ∈ answers, ∃ b, firstUnder a.id answers = some b ∧
    a.functions = gen b.owner b.script
  /-- so they are right exactly if no two snippets with one joined id have different functions -/
  right_iff : (∀ a ∈ answers, a.functions = gen a.owner a.script) ↔
    ∀ a ∈ answers, ∀ b ∈ answers, a.id = b.id → gen a.owner a.script = gen b.owner b.script
  /-- which is so where object ids have no slashes -/
  right : TellsSnippetsApart shows → ∀ a ∈ answers, a.functions = gen a.owner a.script

theorem snippetsAnswered_of_firstAsked {gen : String → Script → List ScriptFunction}
    {memo : FunctionMemo} {answers : List SnippetAnswer} {C : Cast}
    (hfirst : FirstAsked gen memo answers)
    (hscripted : ∀ a ∈ answers, C.Scripted .snippet a.id a.owner a.script) :
    SnippetsAnswered gen C.shows answers := by
  have hsourced : ∀ a ∈ answers, ∃ o s, C.shows o ∧ s ∈ o.snippets ∧ a.id = o.id ++ "/" ++ s.id ∧
      a.owner = o.name ∧ a.script = s.script := by
    intro a ha
    obtain ⟨o, ho, howner, s, hs, hid, hscript⟩ := hscripted a ha
    exact ⟨o, s, ho, hs, hid, howner, hscript⟩
  constructor
  case filled => exact run_fillSnippets
  case sourced => exact hsourced
  case first =>
    intro a ha
    obtain ⟨b, hb, hfs⟩ := hfirst.same a ha
    exact ⟨b, hb, hfs.trans (hfirst.derived a.id b hb)⟩
  case right_iff => exact hfirst.right_iff
  case right =>
    intro hapart
    refine hfirst.right_iff.2 fun a ha b hb hid => ?_
    obtain ⟨o, s, ho, hs, haid, haowner, hascript⟩ := hsourced a ha
    obtain ⟨o', s', ho', hs', hbid, hbowner, hbscript⟩ := hsourced b hb
    rw [haid, hbid] at hid
    obtain ⟨hobject, hsnippet⟩ := joined_inj (hapart.slashless o ho) (hapart.slashless o' ho') hid
    obtain rfl := hapart.objects o o' ho ho' hobject
    obtain rfl := List.inj_on_of_nodup_map (hapart.snippets o ho) hs hs' hsnippet
    rw [haowner, hascript, hbowner, hbscript]

/-- **The snippets of a render.** Whatever else its collaborators do, if they derive the functions of a
    script from its owner's name and the script, a render of an object gets for each snippet the
    functions of the first snippet that was asked for under the same joined id. -/
theorem Engine.snippetsAnswered_render (services : Services ω)
    (gen : String → Script → List ScriptFunction)
    (hgen : ∀ owner script w, (services.functions owner script w).result = .ok (gen owner script))
    (maxDepth : Nat) (npc : GameObject) (type : ObjectType) (referenced : List LanguageKey)
    (kind : ArtifactKind) (text : Text) (w : ω) (cancelled : Bool) :
    let e := Engine.standard services maxDepth
    let plain := e.render kind ⟨.object npc, type, referenced⟩ text w cancelled
    let seen := e.transcribed kind ⟨.object npc, type, referenced⟩ text w cancelled
    (seen.1, seen.2.1) = plain ∧
      SnippetsAnswered gen (fun o => o = npc ∨ ∃ id w, (services.object id w).result = .ok o)
        seen.2.2.snippets := by
  intro e plain seen
  let C := services.cast npc
  have hpromises : e.services.KeepPromises C.contract :=
    ⟨fun id w o ho => ⟨w, ho⟩, fun _ _ _ _ => trivial⟩
  have hc : C.contract.context ⟨.object npc, type, referenced⟩ := Cast.view_of_shows (.inl rfl)
  obtain ⟨hseen, memo, hcourse⟩ := transcribed_course (keeps_standard _ _) hpromises kind hc text w
    cancelled
  exact ⟨hseen, snippetsAnswered_of_firstAsked (hcourse.firstAsked hgen) hcourse.scripted⟩

/-- A character that talks and carries a sword. -/
def talker : GameObject :=
  ⟨"talker", "Goblin", .npc, [], [⟨"sword", 1, true⟩], [], [], [⟨"on/talk", "OnTalk", "greet()"⟩]⟩

/-- The sword, which swings. -/
def sword : GameObject :=
  ⟨"sword", "Sword", .item, [], [], [], [], [⟨"swing", "OnSwing", "swing()"⟩]⟩

theorem Project.mem_of_find {p : Project} {id : String} {o : GameObject} (h : p.find id = .ok o) :
    o ∈ p.objects := by
  unfold find at h
  split at h
  · rename_i o' ho'
    obtain rfl := Except.ok.inj h
    exact List.mem_reverse.1 (List.mem_of_find?_eq_some ho')
  · cases h

theorem tellsSnippetsApart_talker :
    let services := Services.inMemory ⟨[talker, sword], []⟩ .builtIn .standard
    TellsSnippetsApart fun o => o = talker ∨ ∃ id w, (services.object id w).result = .ok o := by
  intro services
  have hshown : ∀ o, (o = talker ∨ ∃ id w, (services.object id w).result = .ok o) →
      o = talker ∨ o = sword := by
    rintro o (rfl | ⟨id, w, ho⟩)
    · exact .inl rfl
    · simpa using Project.mem_of_find ho
  constructor
  case objects =>
    intro o o' ho ho' hid
    rcases hshown o ho with rfl | rfl <;> rcases hshown o' ho' with rfl | rfl <;>
      first | rfl | exact absurd hid (by decide)
  case slashless =>
    intro o ho
    rcases hshown o ho with rfl | rfl <;> decide
  case snippets =>
    intro o ho
    rcases hshown o ho with rfl | rfl <;> decide

theorem Engine.snippetsAnswered_talker :
    let services := Services.inMemory ⟨[talker, sword], []⟩ .builtIn .standard
    let text := braced "Snippet_OnTalk_FunctionName".toList
    let seen := (Engine.standard services 16).transcribed .npc (.ofObject talker) text .empty false
    (∀ owner script w, (services.functions owner script w).result =
        .ok (scriptFunctions owner script)) ∧
      ∀ a ∈ seen.2.2.snippets, a.functions = scriptFunctions a.owner a.script := by
  intro services text seen
  have h := snippetsAnswered_render services scriptFunctions (fun _ _ _ => rfl) 16 talker talker.type
    [] .npc text .empty false
  exact ⟨fun _ _ _ => rfl, h.2.right tellsSnippetsApart_talker⟩

-- snippets of two objects whose joined ids are the same
example :
    let o : GameObject := ⟨"a", "Goblin", .npc, [], [], [], [], [⟨"b/c", "OnTalk", "greet()"⟩]⟩
    let o' : GameObject := ⟨"a/b", "Sword", .item, [], [], [], [], [⟨"c", "OnSwing", "swing()"⟩]⟩
    o.snippets.map (o.id ++ "/" ++ ·.id) = o'.snippets.map (o'.id ++ "/" ++ ·.id) := by decide

end RecordExport
