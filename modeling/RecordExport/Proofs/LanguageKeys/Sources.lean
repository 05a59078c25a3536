import RecordExport.Proofs.Dialog.Discovery
import RecordExport.Record.Project
import RecordExport.Resolver.Fields
/-!
# What language keys stand for

A key stands for a text of an object: its name, a field, a line of its dialog or an option of a choice
in it. Such a text is a `KeySource`. A request carries no more of its source than the owner's id and
one id more, so two sources of an owner with the same id are the same to the table of keys.

* `Project.keySources`: the texts of an object that have keys;
* `Project.WellFormed.eq_of_id?_eq`: where ids come from one place they tell texts apart.
-/

namespace RecordExport

/-! ## 1. Sources -/

/-- A text of an object that a key is printed for. -/
inductive KeySource where
  /-- the object's name -/
  | name
  /-- a field's value -/
  | field (f : Field)
  /-- a line of the object's dialog -/
  | line (n : DialogNode) (text : String)
  /-- an option of a choice in the object's dialog -/
  | option (n : DialogNode) (c : ChoiceOption)
  deriving DecidableEq, Repr

namespace KeySource

/-- The id that tells the text from its owner's other texts. -/
def id? : KeySource → Option String
  | .name => none
  | .field f => some f.id
  | .line n _ => some n.id
  | .option _ c => some c.id

/-- The text itself. -/
def text (o : GameObject) : KeySource → String
  | .name => o.name
  | .field f => f.value
  | .line _ text => text
  | .option _ c => c.text

/-- How a key is requested for the text when its owner is rendered under a type. -/
def request (o : GameObject) (type : ObjectType) : KeySource → KeyRequest
  | .name => nameKey o type
  | .field f => fieldKey o type f
  | .line n text => (nameKey o .npc).withField n.id ("Line " ++ n.id) text
  | .option _ c => (nameKey o .npc).withField c.id ("Choice " ++ c.id) c.text

@[simp] theorem identity_request (o : GameObject) (type : ObjectType) (s : KeySource) :
    (s.request o type).identity = (o.id, s.id?) := by
  cases s <;> rfl

@[simp] theorem value_request (o : GameObject) (type : ObjectType) (s : KeySource) :
    (s.request o type).value = s.text o := by
  cases s <;> rfl

end KeySource

/-- Where the ids of texts come from. -/
inductive KeySpace where
  | name
  | fields
  | lines
  /-- the options of the choice at a node -/
  | options (nodeId : String)
  deriving DecidableEq, Repr

/-- Where the text's id comes from. -/
def KeySource.space : KeySource → KeySpace
  | .name => .name
  | .field _ => .fields
  | .line _ _ => .lines
  | .option n _ => .options n.id

/-- The texts of a node that keys are printed for: a line or the options of a choice. -/
def DialogNode.keySources (n : DialogNode) : List KeySource :=
  match n.content with
  | .npcText text _ | .playerText text _ => [.line n text]
  | .choice options => options.map (.option n)
  | .action _ _ _ => []

/-- The texts of an object that keys are printed for: its name, its fields and those of its dialog. -/
def Project.keySources (p : Project) (o : GameObject) : List KeySource :=
  .name :: o.fields.map .field
    ++ (p.dialogOf? o.id).toList.flatMap fun d => d.nodes.flatMap (·.keySources)

theorem DialogNode.mem_keySources {n : DialogNode} {s : KeySource} (hs : s ∈ n.keySources) :
    (∃ text, s = .line n text ∧ n.keySources = [.line n text]) ∨
      ∃ options c, s = .option n c ∧ n.content = .choice options ∧ c ∈ options := by
  unfold keySources at hs ⊢
  cases hc : n.content with
  | npcText text next =>
    rw [hc] at hs
    exact .inl ⟨text, List.mem_singleton.1 hs, rfl⟩
  | playerText text next =>
    rw [hc] at hs
    exact .inl ⟨text, List.mem_singleton.1 hs, rfl⟩
  | choice options =>
    rw [hc] at hs
    obtain ⟨c, hco, rfl⟩ := List.mem_map.1 hs
    exact .inr ⟨options, c, rfl, rfl, hco⟩
  | action name value next =>
    rw [hc] at hs
    cases hs

theorem Project.mem_keySources {p : Project} {o : GameObject} {s : KeySource} :
    s ∈ p.keySources o ↔ s = .name ∨ (∃ f ∈ o.fields, s = .field f) ∨
      ∃ d n, p.dialogOf? o.id = some d ∧ n ∈ d.nodes ∧ s ∈ n.keySources := by
  unfold keySources
  rw [List.mem_append, List.mem_cons, List.mem_map, List.mem_flatMap, or_assoc]
  refine or_congr_right (or_congr ⟨?_, ?_⟩ ⟨?_, ?_⟩)
  · rintro ⟨f, hf, rfl⟩
    exact ⟨f, hf, rfl⟩
  · rintro ⟨f, hf, rfl⟩
    exact ⟨f, hf, rfl⟩
  · rintro ⟨d, hd, hs⟩
    obtain ⟨n, hn, hsn⟩ := List.mem_flatMap.1 hs
    exact ⟨d, n, Option.mem_toList.1 hd, hn, hsn⟩
  · rintro ⟨d, n, hd, hn, hs⟩
    exact ⟨d, Option.mem_toList.2 hd, List.mem_flatMap.2 ⟨n, hn, hs⟩⟩

section Membership

variable {p : Project} {o : GameObject} {n : DialogNode}

theorem mem_fields_of_source {f : Field} (h : .field f ∈ p.keySources o) : f ∈ o.fields := by
  rcases Project.mem_keySources.1 h with hf | ⟨f', hf, he⟩ | ⟨d, n, -, -, hn⟩
  · cases hf
  · cases he
    exact hf
  · rcases n.mem_keySources hn with ⟨text, he, -⟩ | ⟨options, c, he, -⟩ <;> cases he

theorem exists_node_of_line {text : String} (h : .line n text ∈ p.keySources o) :
    ∃ d, p.dialogOf? o.id = some d ∧ n ∈ d.nodes ∧ n.keySources = [.line n text] := by
  rcases Project.mem_keySources.1 h with hl | ⟨f, -, he⟩ | ⟨d, m, hd, hm, hs⟩
  · cases hl
  · cases he
  · rcases m.mem_keySources hs with ⟨text', he, hms⟩ | ⟨options, c, he, -⟩ <;> cases he
    exact ⟨d, hd, hm, hms⟩

theorem exists_choice_of_option {c : ChoiceOption} (h : .option n c ∈ p.keySources o) :
    ∃ d options, p.dialogOf? o.id = some d ∧ n ∈ d.nodes ∧ n.content = .choice options ∧
      c ∈ options := by
  rcases Project.mem_keySources.1 h with hl | ⟨f, -, he⟩ | ⟨d, m, hd, hm, hs⟩
  · cases hl
  · cases he
  · rcases m.mem_keySources hs with ⟨text', he, hms⟩ | ⟨options, c', he, hc, hco⟩ <;> cases he
    exact ⟨d, options, hd, hm, hc, hco⟩

end Membership

/-- The fields of an object, the nodes of its dialog and the options of each choice in it have ids of
    their own. -/
structure Project.WellFormed (p : Project) (o : GameObject) : Prop where
  fields : (o.fields.map (·.id)).Nodup
  nodes : ∀ d, p.dialogOf? o.id = some d → d.DistinctIds
  options : ∀ d, p.dialogOf? o.id = some d → ∀ n ∈ d.nodes, ∀ options,
    n.content = .choice options → (options.map (·.id)).Nodup

/-- **Where ids come from one place they tell texts apart.** -/
theorem Project.WellFormed.eq_of_id?_eq {p : Project} {o : GameObject} (h : p.WellFormed o)
    {s s' : KeySource} (hs : s ∈ p.keySources o) (hs' : s' ∈ p.keySources o)
    (hspace : s.space = s'.space) (hid : s.id? = s'.id?) : s = s' := by
  -- texts from different places drop out; a line or an option is found through its node
  cases s <;> cases s' <;> try cases hspace
  case name => rfl
  case field f f' =>
    rw [List.inj_on_of_nodup_map h.fields (mem_fields_of_source hs) (mem_fields_of_source hs')
      (Option.some.inj hid)]
  case line n text n' text' =>
    obtain ⟨d, hd, hn, hl⟩ := exists_node_of_line hs
    obtain ⟨d', hd', hn', hl'⟩ := exists_node_of_line hs'
    obtain rfl : d = d' := Option.some.inj (hd.symm.trans hd')
    obtain rfl : n = n' := Dialog.eq_of_id_eq (h.nodes d hd) hn hn' (Option.some.inj hid)
    exact List.singleton_inj.1 (hl.symm.trans hl')
  case option n c n' c' =>
    obtain ⟨d, options, hd, hn, hc, hco⟩ := exists_choice_of_option hs
    obtain ⟨d', options', hd', hn', hc', hco'⟩ := exists_choice_of_option hs'
    obtain rfl : d = d' := Option.some.inj (hd.symm.trans hd')
    obtain rfl : n = n' := Dialog.eq_of_id_eq (h.nodes d hd) hn hn' (KeySpace.options.inj hspace)
    obtain rfl : options = options' := NodeContent.choice.inj (hc.symm.trans hc')
    rw [List.inj_on_of_nodup_map (h.options d hd n hn options hc) hco hco' (Option.some.inj hid)]

/-- An object's texts can be rendered: it is a subject or stands in the project under its id. -/
def Project.Shows (p : Project) (subjects : List GameObject) (o : GameObject) : Prop :=
  o ∈ subjects ∨ p.object? o.id = some o

theorem Project.shows_of_object? {p : Project} {subjects : List GameObject} {id : String}
    {o : GameObject} (h : p.object? id = some o) : p.Shows subjects o := by
  have hid : o.id = id := by simpa using List.find?_some h
  rw [← hid] at h
  exact .inr h

end RecordExport
