import RecordExport.Proofs.Dialog.Flow
import RecordExport.Proofs.Fields.Usage
import RecordExport.Proofs.Render.Ahead
/-!
# What a character has

A character has a list of items and one of skills, and each list has a resolver of its own. Nobody else
looks at it: the render of a character without some of its entries differs where that resolver has its
turn, and nowhere else.

* `Possession`: the two lists, with the resolver's program for either;
* `Possession.resolve_without`: ahead of the fields every other resolver has the same program for a character
  without some of the entries;
* `Possession.run_resolve_without`: **every other resolver does the same for a character without some of
  the entries.** A listing of fields is a nested render with the character in its context, and no
  resolver of listings looks at the lists;
* `Possession.applicable_npc`: the resolver of a list among those of a character. There is always one behind
  it.
-/

namespace RecordExport

open RenderProgram

variable {ω : Type}

/-! ## 1. Lists -/

/-- What a character has a list of. -/
inductive Possession where
  | items
  | skills
  deriving DecidableEq, Repr

namespace Possession

/-- The topic whose resolver deals with the list. -/
def topic : Possession → Topic
  | .items => .inventory
  | .skills => .skills

/-- The label this resolver works under. -/
def label : Possession → String
  | .items => "Inventory"
  | .skills => "Skills"

/-- How the names begin that call for it. -/
def mark : Possession → String
  | .items => "Inventory_"
  | .skills => "Skills_"

/-- An entry of the list. -/
def Entry : Possession → Type
  | .items => InventoryEntry
  | .skills => String

/-- The id of the object that an entry names. -/
def id : (P : Possession) → P.Entry → String
  | .items, e => e.itemId
  | .skills, i => i

/-- The list of a character. -/
def entries : (P : Possession) → GameObject → List P.Entry
  | .items, npc => npc.inventory
  | .skills, npc => npc.skills

/-- What is done with the entries whose objects can be had. -/
def expand : (P : Possession) → List (P.Entry × GameObject) → Text → RenderProgram Text
  | .items, found, t =>
    expandBlocksM (.ofStem "Inventory".toList) (gate "Inventory_HasItems" (!found.isEmpty) t) found
      renderInventoryEntry
  | .skills, found, t =>
    expandBlocksM (.ofStem "Skills".toList) (gate "Skills_HasSkills" (!(found.map (·.2)).isEmpty) t)
      (found.map (·.2)) renderSkill

/-- **The character without the entries that name some objects.** -/
def without (gone : String → Bool) : Possession → GameObject → GameObject
  | .items, npc => { npc with inventory := npc.inventory.filter fun e => !gone e.itemId }
  | .skills, npc => { npc with skills := npc.skills.filter fun i => !gone i }

/-- The context with such a character as its subject. -/
def contextWithout (P : Possession) (gone : String → Bool) (npc : GameObject) (c : RenderContext) :
    RenderContext := { c with subject := .object (P.without gone npc) }

variable (P : Possession) (gone : String → Bool) (npc : GameObject)

theorem entries_without :
    P.entries (P.without gone npc) = (P.entries npc).filter fun a => !gone (P.id a) := by
  cases P <;> rfl

/-- **The program of the resolver**: look up what the entries name, and go on with what can be had. -/
theorem resolve_topic {c : RenderContext} (hc : c.subject = .object npc) (t : Text) :
    P.topic.resolver.resolve .npc c t =
      if mentions P.mark t then
        within P.label (fetchObjects P.id (P.entries npc) >>= fun found => P.expand found t)
      else pure t := by
  cases P with
  | items => exact resolve_inventory hc t
  | skills => exact resolve_skills hc t

/-! ## 2. Programs that look at neither list -/

theorem resolveSnippets_without (type : ObjectType) (t : Text) :
    resolveSnippets (P.without gone npc) type t = resolveSnippets npc type t := by
  cases P <;> rfl

theorem resolveRoutine_without (type : ObjectType) (t : Text) :
    resolveRoutine (P.without gone npc) type t = resolveRoutine npc type t := by
  cases P <;> rfl

/-- The steps of a dialog's functions, by induction on the nodes that were not gone into. -/
theorem flow_without (d : Dialog) (starts : List FunctionStart) (visited : List String) (id : String) :
    flow (P.without gone npc) d starts visited id = flow npc d starts visited id := by
  have hown : ∀ n, ownStep (P.without gone npc) d starts n = ownStep npc d starts n := by
    cases P <;> exact fun _ => rfl
  have hcall : ∀ n f, callStep (P.without gone npc) d n f = callStep npc d n f := by
    cases P <;> exact fun _ _ => rfl
  induction visited, id using flow.induct d with
  | case1 visited id hv => rw [flow, flow, dif_pos hv, dif_pos hv]
  | case2 visited id hv hn => rw [flow_of_target?_eq_none hn, flow_of_target?_eq_none hn]
  | case3 visited id hv n hn ih =>
    have hv : id ∉ visited := by simpa using hv
    rw [flow_of_target? hv hn, flow_of_target? hv hn, hown]
    congr 1
    split
    · rfl
    · rename_i next hnext
      split
      · rw [hcall]
      · exact ih next

theorem dialogFunctions_without (d : Dialog) :
    dialogFunctions (P.without gone npc) d = dialogFunctions npc d := by
  have hstarts : functionStarts (P.without gone npc) d = functionStarts npc d := by cases P <;> rfl
  unfold dialogFunctions planDialog
  rw [hstarts]
  simp only [flow_without]

theorem resolveDialog_without (t : Text) :
    resolveDialog (P.without gone npc) t = resolveDialog npc t := by
  have hid : (P.without gone npc).id = npc.id := by cases P <;> rfl
  unfold resolveDialog
  rw [hid]
  simp only [dialogFunctions_without]

/-- Ahead of the fields, every other resolver has the same program. -/
theorem resolve_without {c : RenderContext} (hc : c.subject = .object npc) {τ : Topic} (hτ : τ ≠ P.topic)
    (hahead : τ.order < Topic.fields.order) (t : Text) :
    τ.resolver.resolve .npc (P.contextWithout gone npc c) t = τ.resolver.resolve .npc c t := by
  have hc' : (P.contextWithout gone npc c).subject = .object (P.without gone npc) := rfl
  have htype : (P.contextWithout gone npc c).objectType = c.objectType := rfl
  cases τ with
  | snippets =>
    show Resolver.snippets.resolve .npc _ t = Resolver.snippets.resolve .npc c t
    rw [resolve_snippets hc' (by decide), resolve_snippets hc (by decide), htype, resolveSnippets_without]
  | dialog =>
    show Resolver.dialog.resolve .npc _ t = Resolver.dialog.resolve .npc c t
    rw [resolve_dialog hc', resolve_dialog hc, resolveDialog_without]
  | dailyRoutine =>
    show Resolver.dailyRoutine.resolve .npc _ t = Resolver.dailyRoutine.resolve .npc c t
    rw [resolve_dailyRoutine hc' (by decide), resolve_dailyRoutine hc (by decide), htype, resolveRoutine_without]
  | inventory =>
    show Resolver.inventory.resolve .npc _ t = Resolver.inventory.resolve .npc c t
    rw [resolve_inventory hc', resolve_inventory hc]
    cases P with
    | items => exact absurd rfl hτ
    | skills => rfl
  | skills =>
    show Resolver.skills.resolve .npc _ t = Resolver.skills.resolve .npc c t
    rw [resolve_skills hc', resolve_skills hc]
    cases P with
    | items => rfl
    | skills => exact absurd rfl hτ
  | fields | fieldList | language => exact absurd hahead (by decide)

/-! ## 3. Listings of fields -/

end Possession

namespace Engine

variable {e : Engine ω} {answer : (o : RenderOp) → SessionM ω o.Answer} {kind : ArtifactKind}
  {c c' : RenderContext}

/-- Attempts in contexts that no resolver tells apart. -/
theorem foldlM_attempt_congr {rs : List Resolver} (h : ∀ r ∈ rs, ∀ t,
    run answer (r.resolve kind c t) = run answer (r.resolve kind c' t)) (t : Text) :
    rs.foldlM (attempt answer kind c) t = rs.foldlM (attempt answer kind c') t := by
  induction rs generalizing t with
  | nil => rfl
  | cons r rs ih =>
    have hattempt : attempt answer kind c t r = attempt answer kind c' t r := by
      unfold attempt
      rw [h r List.mem_cons_self]
    rw [List.foldlM_cons, List.foldlM_cons, hattempt]
    exact bind_congr fun t => ih (fun r hr => h r (List.mem_cons_of_mem _ hr)) t

/-- So it is with passes. -/
theorem passWith_congr (h : ∀ r ∈ e.applicable kind, ∀ t, r.resolve kind c t = r.resolve kind c' t)
    (t : Text) : e.passWith answer kind c t = e.passWith answer kind c' t := by
  unfold passWith
  exact bind_congr fun _ =>
    foldlM_attempt_congr (fun r hr t => congrArg (run answer) (h r hr t)) t

end Engine

namespace Possession

variable (P : Possession) (gone : String → Bool) (npc : GameObject)

/-- The artefact of a listing is the same. -/
theorem artifact_fieldList_without (services : Services ω) (n left : Nat) (type : ObjectType)
    (fs : List Field) (name : String) :
    let e := Engine.standard services n
    let context (o : GameObject) := (RenderContext.of (.object o) type).withFields fs
    e.artifact (e.nested left) .fieldList (context (P.without gone npc)) name =
      e.artifact (e.nested left) .fieldList (context npc) name := by
  intro e context
  have hpass : ∀ answer text, e.passWith answer .fieldList (context (P.without gone npc)) text =
      e.passWith answer .fieldList (context npc) text := by
    intro answer text
    refine Engine.passWith_congr (fun r hr t => ?_) text
    have hlist : e.applicable .fieldList = [Resolver.fieldList] :=
      Engine.applicable_standard services n .fieldList
    rw [hlist] at hr
    obtain rfl := List.mem_singleton.1 hr
    cases P <;> rfl
  have hnested : ∀ text, e.nested left ⟨.fieldList, text, context (P.without gone npc), some name⟩ =
      e.nested left ⟨.fieldList, text, context npc, some name⟩ := by
    intro text
    cases left with
    | zero => rfl
    | succ left =>
      unfold Engine.nested
      simp only [hpass]
  unfold Engine.artifact
  simp only [hnested]

section Run

variable (services : Services ω) (n left depth : Nat)

theorem run_fillListing_without (name : String) (type : ObjectType) (fs : List Field) (t : Text) :
    let e := Engine.standard services n
    let answer := e.answer (e.nested left) depth
    Engine.run answer (fillListing name (P.without gone npc) type fs t) =
      Engine.run answer (fillListing name npc type fs t) := by
  intro e answer
  unfold fillListing
  rw [fillOnce_eq, fillOnce_eq]
  unfold fillAll
  split
  · rfl
  · rw [Engine.run_bind, Engine.run_bind]
    have hrequest : ∀ context, Engine.run answer (artifact .fieldList context name) =
        e.artifact (e.nested left) .fieldList context name := fun _ => Engine.run_request _
    rw [hrequest, hrequest, P.artifact_fieldList_without gone npc services n left type fs name]

theorem run_resolveObject_without (type : ObjectType) (space : String) (t : Text) :
    let e := Engine.standard services n
    let answer := e.answer (e.nested left) depth
    Engine.run answer (resolveObject (P.without gone npc) type space t) =
      Engine.run answer (resolveObject npc type space t) := by
  intro e answer
  have hconditions : resolveConditions (P.without gone npc) space t = resolveConditions npc space t := by
    cases P <;> rfl
  have hvalues : ∀ t, resolveValues (P.without gone npc) type space t = resolveValues npc type space t := by
    cases P <;> exact fun _ => rfl
  have hfields : (P.without gone npc).fields = npc.fields := by cases P <;> rfl
  have hlisting : ∀ name fs t, Engine.run answer (fillListing name (P.without gone npc) type fs t) =
      Engine.run answer (fillListing name npc type fs t) := fun name fs t =>
    P.run_fillListing_without gone npc services n left depth name type fs t
  unfold resolveObject resolveListings
  simp only [hconditions, hvalues, hfields, Engine.run_bind, hlisting]

/-- **Every other resolver does the same for a character without some entries.** -/
theorem run_resolve_without {c : RenderContext} (hc : c.subject = .object npc) {τ : Topic}
    (hτ : τ ≠ P.topic) (happlies : τ.resolver.applies .npc = true) (t : Text) :
    let e := Engine.standard services n
    let answer := e.answer (e.nested left) depth
    Engine.run answer (τ.resolver.resolve .npc (P.contextWithout gone npc c) t) =
      Engine.run answer (τ.resolver.resolve .npc c t) := by
  intro e answer
  rcases Nat.lt_or_eq_of_le (Topic.order_le_of_applies rfl happlies) with hahead | hsame
  · exact congrArg (Engine.run answer) (P.resolve_without gone npc hc hτ hahead t)
  · obtain rfl : τ = .fields := by
      revert hsame
      cases τ <;> decide
    have hc' : (P.contextWithout gone npc c).subject = .object (P.without gone npc) := rfl
    show Engine.run answer (Resolver.fields.resolve .npc _ t) =
      Engine.run answer (Resolver.fields.resolve .npc c t)
    rw [resolve_fields hc rfl, resolve_fields hc' rfl]
    exact P.run_resolveObject_without gone npc services n left depth c.objectType "Npc" t

end Run

/-! ## 4. The resolvers of a character -/

/-- The topics between that of the list and that of the fields, whose resolver is the last. -/
def behind : Possession → List Topic
  | .items => [.skills]
  | .skills => []

/-- **The resolvers of a character**: those ahead of the list's, that one, and those behind it. -/
theorem applicable_npc (services : Services ω) (n : Nat) :
    (Engine.standard services n).applicable .npc = P.topic.resolversAhead .npc ++
      P.topic.resolver :: (P.behind.map (·.resolver) ++ [Resolver.fields]) := by
  cases P <;> exact Engine.applicable_standard services n .npc

section Attempts

variable {c : RenderContext} (hc : c.subject = .object npc) (services : Services ω) (n left depth : Nat)
include hc

/-- The attempts of other resolvers. -/
theorem foldlM_attempt_without {τs : List Topic}
    (h : ∀ τ ∈ τs, τ ≠ P.topic ∧ τ.resolver.applies .npc = true) (t : Text) :
    let e := Engine.standard services n
    let answer := e.answer (e.nested left) depth
    (τs.map (·.resolver)).foldlM (Engine.attempt answer .npc (P.contextWithout gone npc c)) t =
      (τs.map (·.resolver)).foldlM (Engine.attempt answer .npc c) t := by
  intro e answer
  refine Engine.foldlM_attempt_congr (fun r hr t => ?_) t
  obtain ⟨τ, hτ, rfl⟩ := List.mem_map.1 hr
  exact P.run_resolve_without gone npc services n left depth hc (h τ hτ).1 (h τ hτ).2 t

theorem foldlM_ahead_without (t : Text) :
    let e := Engine.standard services n
    let answer := e.answer (e.nested left) depth
    (P.topic.resolversAhead .npc).foldlM (Engine.attempt answer .npc (P.contextWithout gone npc c)) t =
      (P.topic.resolversAhead .npc).foldlM (Engine.attempt answer .npc c) t := by
  refine P.foldlM_attempt_without gone npc hc services n left depth (fun τ hτ => ?_) t
  obtain ⟨hτ, happlies⟩ := List.mem_filter.1 hτ
  exact ⟨fun heq => Nat.lt_irrefl _ (heq ▸ Topic.order_lt_of_mem_ahead hτ), happlies⟩

theorem foldlM_behind_without (t : Text) :
    let e := Engine.standard services n
    let answer := e.answer (e.nested left) depth
    (P.behind.map (·.resolver) ++ [Resolver.fields]).foldlM
        (Engine.attempt answer .npc (P.contextWithout gone npc c)) t =
      (P.behind.map (·.resolver) ++ [Resolver.fields]).foldlM (Engine.attempt answer .npc c) t := by
  have hothers : ∀ τ ∈ P.behind ++ [Topic.fields], τ ≠ P.topic ∧ τ.resolver.applies .npc = true := by
    cases P <;> decide
  have hmap : (P.behind ++ [Topic.fields]).map (·.resolver) = P.behind.map (·.resolver) ++ [Resolver.fields] :=
    List.map_append
  rw [← hmap]
  exact P.foldlM_attempt_without gone npc hc services n left depth hothers t

end Attempts

end Possession
end RecordExport
