import RecordExport.Proofs.Json.Written
import RecordExport.Record.Codec
/-!
# Records survive being written

Every record a project file can hold is read back from its written form as it was: the keys, tags and defaults of
the decoders fit those of the writers.

* `Spells`: a value is what a decoder wants for a given result, and no number in it is too long;
* `Slots.Spells.record`: a record spells itself if each of its members spells its field, in the order of the slots;
* `GameObject.spells`, `Dialog.spells`, `Project.spells`: one lemma for every kind of record;
* `recordsSurvive`: **every object, every dialog and every project is read back from its text**, and a project
  read from a text finds the records that stand in it.

A dialog node is no plain record. Its content lies open beside its id and is read once its type is known, which
limits how deep a value may nest; only the options of a choice nest at all, and they need a limit of three.
-/

namespace RecordExport

open Json Json.Decoder

/-! ## 1. Values and what they stand for -/

namespace Json.Decoder

/-- A written value stands for a result of the decoder. -/
structure Spells {α : Type} (d : Decoder α) (v : Json) (a : α) : Prop where
  decoded : d (toReading v) = .ok a
  fits : FitsWord v

namespace Spells

variable {α : Type} {d : Decoder α}

/-- **A text in which the value is written is read as what the value stands for**, however it is spaced. -/
theorem ofText {v : Json} {a : α} (h : d.Spells v a) {S : Spacing} (hS : S.Insignificant) :
    ofText d (written S 0 v) = .ok a := by
  simp only [Decoder.ofText, document_written hS 0 h.fits, h.decoded]

theorem str (s : String) : Decoder.str.Spells (.str s) s := ⟨by simp [toReading, Decoder.str], by simp [FitsWord]⟩

theorem bool (b : Bool) : Decoder.bool.Spells (.bool b) b := ⟨by simp [toReading, Decoder.bool], by simp [FitsWord]⟩

theorem natBelow {n bound : Nat} (h : n < bound) (hbound : bound ≤ 2 ^ 64) :
    (natBelow bound).Spells (.nat n) n where
  decoded := by simp [toReading, Decoder.natBelow, Number.toNat?, h]
  fits := by
    rw [FitsWord]
    omega

/-- A word of the list stands for its meaning. -/
theorem oneOf {words : List (String × α)} {word : String} {a : α} (h : words.lookup word = some a) :
    (oneOf words).Spells (.str word) a :=
  ⟨by simp [toReading, Decoder.oneOf, h], by simp [FitsWord]⟩

/-- Nothing is written as null, which no other value is read as. -/
theorem optional {f : α → Json} (h : ∀ a, d.Spells (f a) a) (hnull : ∀ a, f a ≠ .null) (o : Option α) :
    (optional d).Spells (.ofOption f o) o := by
  cases o with
  | none => exact ⟨rfl, trivial⟩
  | some a =>
    refine ⟨?_, (h a).fits⟩
    show Decoder.optional d (toReading (f a)) = _
    have hdecoded := (h a).decoded
    unfold Decoder.optional
    split
    · rename_i hr
      cases hf : f a with
      | null => exact absurd hf (hnull a)
      | _ => simp [hf, toReading] at hr
    · rw [hdecoded]
      rfl

theorem each {f : α → Json} : ∀ {as : List α}, (∀ a ∈ as, d.Spells (f a) a) →
    each d (toReadings (as.map f)) = .ok as
  | [], _ => rfl
  | a :: as, h => by
    have hrest : Decoder.each d (toReadings (as.map f)) = .ok as := each fun a ha => h a (by simp [ha])
    simp only [List.map_cons, toReadings, Decoder.each, (h a (by simp)).decoded, hrest]
    rfl

theorem list {f : α → Json} {as : List α} (h : ∀ a ∈ as, d.Spells (f a) a) :
    (list d).Spells (.arr (as.map f)) as where
  decoded := by simp only [toReading, Decoder.list, each h]
  fits := by
    rw [FitsWord]
    exact itemsFit_map f fun a ha => (h a ha).fits

end Spells

/-! ## 2. Records -/

namespace Slots

/-- The keys of the fields. -/
def keys : {ts : List Type} → Slots ts → List String
  | _, .nil => []
  | _, .cons s rest => s.key :: rest.keys

/-- The members give every field its value, in the order of the slots. -/
inductive Spells : {ts : List Type} → Slots ts → List (String × Json) → Values ts → Prop where
  | nil : Spells .nil [] ()
  | cons {α : Type} {ts : List Type} {s : Slot α} {rest : Slots ts} {v : Json} {a : α} {ms : List (String × Json)}
      {vs : Values ts} : s.decode.Spells v a → Spells rest ms vs →
      Spells (.cons s rest) ((s.key, v) :: ms) (a, vs)

variable {ts : List Type} {slots : Slots ts} {ms : List (String × Json)} {vs : Values ts}

theorem Spells.keys_eq (h : slots.Spells ms vs) : ms.map (·.1) = slots.keys := by
  induction h with
  | nil => rfl
  | cons _ _ ih => simp [keys, ih]

theorem Spells.membersFit (h : slots.Spells ms vs) : MembersFit ms := by
  induction h with
  | nil => trivial
  | cons hv _ ih => exact ⟨hv.fits, ih⟩

/-- Members with other keys leave a field as it is. -/
theorem fillMembers_cons {α : Type} (s : Slot α) (rest : Slots ts) :
    ∀ (ms : List (String × Json)) (given : Option α) (others : Filled ts), s.key ∉ ms.map (·.1) →
      (Slots.cons s rest).fillMembers (toMembers ms) (given, others) =
        (rest.fillMembers (toMembers ms) others).map fun others => (given, others)
  | [], _, _, _ => rfl
  | (key, v) :: ms, given, others, hkey => by
    rw [List.map_cons, List.mem_cons, not_or] at hkey
    simp only [toMembers, fillMembers, fill, Ne.symm hkey.1, if_false]
    rcases rest.fill key (toReading v) others with _ | _ | others
    · simp only [Option.map_none]
      cases (toReading v).pass with
      | none => exact fillMembers_cons s rest ms given others hkey.2
      | some f => rfl
    · rfl
    · exact fillMembers_cons s rest ms given others hkey.2

/-- The members fill the slots, and the slots are then complete. -/
theorem Spells.fillMembers (h : slots.Spells ms vs) (hkeys : slots.keys.Nodup) :
    ∃ given, slots.fillMembers (toMembers ms) (Filled.none ts) = .ok given ∧ slots.complete given = .ok vs := by
  induction h with
  | nil => exact ⟨(), rfl, rfl⟩
  | @cons α ts s rest v a ms vs hv hms ih =>
    obtain ⟨hkey, hrest⟩ := List.nodup_cons.1 hkeys
    obtain ⟨others, hfill, hcomplete⟩ := ih hrest
    rw [← hms.keys_eq] at hkey
    refine ⟨(some a, others), ?_, ?_⟩
    · simp only [toMembers, Slots.fillMembers, fill, Filled.none, if_true, hv.decoded, Except.map]
      rw [fillMembers_cons s rest ms _ _ hkey, hfill]
      rfl
    · simp only [complete, Option.some_or, hcomplete]
      rfl

theorem Spells.members (h : slots.Spells ms vs) (hkeys : slots.keys.Nodup) :
    members slots (toMembers ms) none = .ok vs := by
  obtain ⟨given, hfill, hcomplete⟩ := h.fillMembers hkeys
  simp only [Decoder.members, hfill, hcomplete]

theorem Spells.map_members {α : Type} (h : slots.Spells ms vs) (hkeys : slots.keys.Nodup) (build : Values ts → α) :
    (Decoder.members slots (toMembers ms) none).map build = .ok (build vs) := by
  rw [h.members hkeys]
  rfl

/-- **A record whose members give every field its value stands for what is built from the values.** -/
theorem Spells.record {α : Type} (h : slots.Spells ms vs) (hkeys : slots.keys.Nodup) (build : Values ts → α) :
    (record slots build).Spells (.obj ms) (build vs) where
  decoded := h.map_members hkeys build
  fits := by
    rw [FitsWord]
    exact h.membersFit

end Slots
end Json.Decoder

/-! ## 3. Objects -/

theorem ObjectType.lookup_tag (t : ObjectType) : ObjectType.tags.lookup t.tag = some t := by cases t <;> rfl

theorem FieldType.lookup_tag (t : FieldType) : FieldType.tags.lookup t.tag = some t := by cases t <;> rfl

theorem spells_strs (ss : List String) : (list str).Spells (.strs ss) ss := .list fun s _ => .str s

theorem spells_optional_str (o : Option String) : (optional str).Spells (.ofOption .str o) o :=
  .optional .str (fun _ h => Json.noConfusion h) o

theorem Field.spells (f : Field) : Field.decoder.Spells f.toJson f :=
  Slots.Spells.record (.cons (.str f.id) <| .cons (.str f.name) <| .cons (.oneOf f.type.lookup_tag) <|
    .cons (.str f.value) <| .cons (spells_strs f.aliases) .nil) (by decide) _

/-- A quantity has 32 bits, and as many are read. -/
theorem InventoryEntry.spells (e : InventoryEntry) : InventoryEntry.decoder.Spells e.toJson e := by
  have h : InventoryEntry.decoder.Spells e.toJson ⟨e.itemId, UInt32.ofNat e.quantity.toNat, e.isEquipped⟩ :=
    Slots.Spells.record (.cons (.str e.itemId) <| .cons (.natBelow e.quantity.toNat_lt (by decide)) <|
      .cons (.bool e.isEquipped) .nil) (by decide) _
  rwa [UInt32.ofNat_toNat] at h

/-- Hours and minutes have eight bits, and as many are read. -/
theorem TimeOfDay.spells (t : TimeOfDay) : TimeOfDay.decoder.Spells t.toJson t := by
  have h : TimeOfDay.decoder.Spells t.toJson ⟨UInt8.ofNat t.hours.toNat, UInt8.ofNat t.minutes.toNat⟩ :=
    Slots.Spells.record (.cons (.natBelow t.hours.toNat_lt (by decide)) <|
      .cons (.natBelow t.minutes.toNat_lt (by decide)) .nil) (by decide) _
  rwa [UInt8.ofNat_toNat, UInt8.ofNat_toNat] at h

theorem Script.spells (s : Script) : Script.decoder.Spells s.toJson s :=
  Slots.Spells.record (.cons (.str s.name) <| .cons (.str s.code) .nil) (by decide) _

theorem ScheduleEvent.spells (e : ScheduleEvent) : ScheduleEvent.decoder.Spells e.toJson e :=
  Slots.Spells.record (.cons (.str e.id) <| .cons e.earliest.spells <| .cons e.latest.spells <|
    .cons (spells_optional_str e.movementTarget) <|
    .cons (.optional Script.spells (fun _ h => Json.noConfusion h) e.script) <|
    .cons (.bool e.enabledByDefault) .nil) (by decide) _

theorem Snippet.spells (s : Snippet) : Snippet.decoder.Spells s.toJson s :=
  Slots.Spells.record (.cons (.str s.id) <| .cons (.str s.name) <| .cons (.str s.code) .nil) (by decide) _

theorem GameObject.spells (o : GameObject) : GameObject.decoder.Spells o.toJson o :=
  Slots.Spells.record (.cons (.str o.id) <| .cons (.str o.name) <| .cons (.oneOf o.type.lookup_tag) <|
    .cons (.list fun f _ => f.spells) <| .cons (.list fun e _ => e.spells) <| .cons (spells_strs o.skills) <|
    .cons (.list fun e _ => e.spells) <| .cons (.list fun s _ => s.spells) .nil) (by decide) _

/-! ## 4. Dialogs -/

section Depth

variable {depth : Option Nat}

theorem not_any_le {limit : Nat} (h : ∀ n ∈ depth, limit < n) : depth.any (· ≤ limit) = false := by
  cases depth with
  | none => rfl
  | some n => simpa using h n rfl

/-- Items that can be read one level further in make a list that can be read. -/
theorem readable_arr (hdepth : ∀ n ∈ depth, 1 < n) {vs : List Json}
    (h : ∀ v ∈ vs, (toReading v).readable (depth.map (· - 1)) = none) :
    (toReading (.arr vs)).readable depth = none := by
  simp only [toReading, Reading.readable, not_any_le hdepth, Bool.false_eq_true, if_false, Option.or_none]
  induction vs with
  | nil => rfl
  | cons v vs ih => simp [toReadings, Reading.readableItems, h v (by simp), ih fun v hv => h v (by simp [hv])]

theorem readable_obj (hdepth : ∀ n ∈ depth, 1 < n) {ms : List (String × Json)}
    (h : ∀ m ∈ ms, (toReading m.2).readable (depth.map (· - 1)) = none) :
    (toReading (.obj ms)).readable depth = none := by
  simp only [toReading, Reading.readable, not_any_le hdepth, Bool.false_eq_true, if_false, Option.or_none]
  induction ms with
  | nil => rfl
  | cons m ms ih => simp [toMembers, Reading.readableMembers, h m (by simp), ih fun m hm => h m (by simp [hm])]

theorem readable_str (s : String) : (toReading (.str s)).readable depth = none := by
  simp [toReading, Reading.readable]

theorem readable_ofOption (o : Option String) : (toReading (.ofOption .str o)).readable depth = none := by
  cases o <;> simp [Json.ofOption, toReading, Reading.readable]

end Depth

theorem ChoiceOption.spells (o : ChoiceOption) : ChoiceOption.decoder.Spells o.toJson o :=
  Slots.Spells.record (.cons (.str o.id) <| .cons (.str o.text) <| .cons (spells_optional_str o.next) .nil)
    (by decide) _

/-- The content of a node: a tag, and members that give the fields under this tag their values. -/
structure NodeContent.Tells (c : NodeContent) (tag : NodeTag) (word : String) (ms : List (String × Json)) : Prop where
  written : c.toMembers = ("type", .str word) :: ms
  tagged : NodeTag.tags.lookup word = some tag
  untagged : "type" ∉ ms.map (·.1)
  decoded : NodeContent.ofMembers tag (Json.toMembers ms) = .ok c
  fits : MembersFit ms

theorem NodeContent.tells (c : NodeContent) : ∃ tag word ms, c.Tells tag word ms := by
  let line (text : String) (next : Option String) := Slots.Spells.cons (s := .required "text" str) (.str text) <|
    .cons (s := .defaulted "next" (optional str) none) (spells_optional_str next) .nil
  cases c with
  | npcText text next =>
    refine ⟨.npcText, "npc-text", _, rfl, rfl, ?_, ?_, (line text next).membersFit⟩
    · simp
    · exact (line text next).map_members (by decide) _
  | playerText text next =>
    refine ⟨.playerText, "player-text", _, rfl, rfl, ?_, ?_, (line text next).membersFit⟩
    · simp
    · exact (line text next).map_members (by decide) _
  | choice options =>
    have hoptions : (list ChoiceOption.decoder).Spells (.arr (options.map ChoiceOption.toJson)) options :=
      .list fun o _ => o.spells
    have h := Slots.Spells.cons (s := .required "options" (list ChoiceOption.decoder)) hoptions .nil
    refine ⟨.choice, "choice", _, rfl, rfl, ?_, ?_, h.membersFit⟩
    · simp
    · exact h.map_members (by decide) _
  | action name value next =>
    have h := Slots.Spells.cons (s := .required "action" str) (.str name) <|
      .cons (s := .defaulted "value" str "") (.str value) <|
      .cons (s := .defaulted "next" (optional str) none) (spells_optional_str next) .nil
    refine ⟨.action, "action", _, rfl, rfl, ?_, ?_, h.membersFit⟩
    · simp
    · exact h.map_members (by decide) _

theorem mem_toMembers {ms : List (String × Json)} {m : Except Trouble String × Reading} (h : m ∈ toMembers ms) :
    ∃ key ∈ ms.map (·.1), m.1 = .ok key := by
  induction ms with
  | nil => cases h
  | cons n ms ih =>
    rcases List.mem_cons.1 h with rfl | h
    · exact ⟨n.1, by simp, rfl⟩
    · obtain ⟨key, hkey, hm⟩ := ih h
      exact ⟨key, List.mem_cons_of_mem _ hkey, hm⟩

/-- Content that a tag and members tell is read from them. -/
theorem NodeContent.Tells.nodeContent {c : NodeContent} {tag : NodeTag} {word : String} {ms : List (String × Json)}
    (h : c.Tells tag word ms) : nodeContent (Json.toMembers c.toMembers) = .ok c := by
  unfold RecordExport.nodeContent
  extract_lets isTag content
  have hothers : ∀ m ∈ Json.toMembers ms, isTag m = false := by
    intro m hm
    obtain ⟨key, hkey, hm⟩ := mem_toMembers hm
    simp only [isTag, hm, decide_eq_false_iff_not]
    rintro rfl
    exact h.untagged hkey
  have htag : (Json.toMembers c.toMembers).filter isTag = [(.ok "type", .str (.ok word))] := by
    rw [h.written, Json.toMembers, List.filter_cons_of_pos rfl,
      List.filter_eq_nil_iff.2 fun m hm => by simp [hothers m hm]]
    rfl
  have hrest : (Json.toMembers c.toMembers).filter (fun m => !isTag m) = Json.toMembers ms := by
    rw [h.written, Json.toMembers, List.filter_cons_of_neg (by simp [isTag])]
    exact List.filter_eq_self.2 fun m hm => by simp [hothers m hm]
  have hcontent : content = .ok c := by
    simp only [content, htag, hrest, NodeTag.decoder, h.tagged]
    exact h.decoded
  rw [hcontent]

/-- Beside the id, the members of a node are taken over as they are if each can be read. -/
theorem nodeMembers_others {depth : Option Nat} : ∀ {ms : List (String × Json)} (id : Option String),
    (∀ m ∈ ms, m.1 ≠ "id" ∧ (toReading m.2).readable depth = none) →
      nodeMembers depth (toMembers ms) id = .ok (id, toMembers ms)
  | [], _, _ => rfl
  | (key, v) :: ms, id, h => by
    obtain ⟨hkey, hread⟩ := h (key, v) (by simp)
    have hrest : nodeMembers depth (toMembers ms) id = _ := nodeMembers_others id fun m hm => h m (by simp [hm])
    simp only [toMembers, nodeMembers, hkey, if_false, hread, hrest]
    rfl

/-- What a node holds nests three deep at most: the texts of the options of a list. -/
theorem NodeContent.readable_toMembers {depth : Option Nat} (hdepth : ∀ n ∈ depth, 3 ≤ n) (c : NodeContent) :
    ∀ m ∈ c.toMembers, m.1 ≠ "id" ∧ (toReading m.2).readable depth = none := by
  cases c with
  | choice options =>
    have hoptions : (toReading (.arr (options.map ChoiceOption.toJson))).readable depth = none := by
      refine readable_arr (fun n hn => Nat.le_of_succ_le (hdepth n hn)) ?_
      simp only [List.mem_map, forall_exists_index, and_imp, forall_apply_eq_imp_iff₂]
      intro o _
      refine readable_obj ?_ ?_
      · intro n hn
        obtain ⟨k, hk, rfl⟩ := Option.map_eq_some_iff.1 hn
        have := hdepth k hk
        omega
      · simp [readable_str, readable_ofOption]
    simp [NodeContent.toMembers, readable_str, hoptions]
  | _ => simp [NodeContent.toMembers, readable_str, readable_ofOption]

/-- A node is read back wherever the members of a node may nest three deep. -/
theorem DialogNode.spells {depth : Option Nat} (hdepth : ∀ n ∈ depth, 3 ≤ n) (n : DialogNode) :
    (DialogNode.decoder depth).Spells n.toJson n := by
  obtain ⟨tag, word, ms, htells⟩ := n.content.tells
  have hcontent := htells.nodeContent
  have hothers := nodeMembers_others (some n.id) (n.content.readable_toMembers hdepth)
  constructor
  · simp only [DialogNode.toJson, toReading, toMembers, DialogNode.decoder, nodeMembers, if_true, Decoder.str,
      hothers, hcontent]
    rfl
  · simp only [DialogNode.toJson, htells.written, FitsWord, MembersFit, true_and]
    exact htells.fits

theorem Dialog.spells {depth : Option Nat} (hdepth : ∀ n ∈ depth, 3 ≤ n) (d : Dialog) :
    (Dialog.decoder depth).Spells d.toJson d :=
  Slots.Spells.record (.cons (.str d.id) <| .cons (.str d.objectId) <|
    .cons (.list fun n _ => n.spells hdepth) .nil) (by simp [Slots.keys, Slot.required, Slot.defaulted]) _

/-! ## 5. Projects -/

theorem Project.spells {depth : Option Nat} (hdepth : ∀ n ∈ depth, 3 ≤ n) (p : Project) :
    (Project.decoder depth).Spells p.toJson p :=
  Slots.Spells.record (.cons (.list fun o _ => o.spells) <|
    .cons (.list fun d _ => d.spells hdepth) .nil) (by simp [Slots.keys, Slot.defaulted]) _

/-- **What holds of texts that records are written in**: alone and inside a project every record is read back as it
    was. Several records may share an id; a project read from a text then finds the last of them, as it does in the
    project that was written. -/
structure RecordsSurvive (write : Json → Text) : Prop where
  /-- every object, alone -/
  object : ∀ o : GameObject, ofText GameObject.decoder (write o.toJson) = .ok o
  /-- every dialog, alone, as long as what a node holds may nest as deep as it does -/
  dialog : ∀ (d : Dialog) (depth : Option Nat), (∀ n ∈ depth, 3 ≤ n) →
    ofText (Dialog.decoder depth) (write d.toJson) = .ok d
  /-- every project, and so every record in it -/
  project : ∀ p : Project, Project.ofText (write p.toJson) = .ok p
  /-- an object with no other of its id behind it is the one found in the project that was read -/
  objectInside : ∀ (o : GameObject) (before after : List GameObject) (dialogs : List Dialog),
    (∀ other ∈ after, other.id ≠ o.id) →
      ∃ p, Project.ofText (write (Project.toJson ⟨before ++ o :: after, dialogs⟩)) = .ok p ∧
        p.object? o.id = some o
  /-- and so is a dialog, which is found by the object it belongs to -/
  dialogInside : ∀ (d : Dialog) (before after : List Dialog) (objects : List GameObject),
    (∀ other ∈ after, other.objectId ≠ d.objectId) →
      ∃ p, Project.ofText (write (Project.toJson ⟨objects, before ++ d :: after⟩)) = .ok p ∧
        p.dialogOf? d.objectId = some d

/-- Looking from the back, the last entry with a key is found. -/
theorem find?_reverse_append {α β : Type} [DecidableEq β] (key : α → β) (a : α) (before after : List α)
    (h : ∀ other ∈ after, key other ≠ key a) :
    (before ++ a :: after).reverse.find? (fun x => key x = key a) = some a := by
  have hafter : after.reverse.find? (fun x => key x = key a) = none := by simpa using h
  simp [List.find?_append, hafter]

/-- **Records survive being written**, with any insignificant spaces between the parts. -/
theorem recordsSurvive {S : Spacing} (hS : S.Insignificant) : RecordsSurvive (written S 0) where
  object o := o.spells.ofText hS
  dialog d depth hdepth := (d.spells hdepth).ofText hS
  project p := (p.spells (by decide)).ofText hS
  objectInside o before after dialogs h :=
    ⟨⟨before ++ o :: after, dialogs⟩, (Project.spells (by decide) _).ofText hS,
      find?_reverse_append GameObject.id o before after h⟩
  dialogInside d before after objects h :=
    ⟨⟨objects, before ++ d :: after⟩, (Project.spells (by decide) _).ofText hS,
      find?_reverse_append Dialog.objectId d before after h⟩

/-- The two layouts in use, without a space and with a line for every item and member. -/
theorem recordsSurvive_layouts :
    Spacing.none.Insignificant ∧ Spacing.lines.Insignificant ∧ RecordsSurvive compact ∧
      RecordsSurvive (indented 0) := by
  have hcompact : compact = written .none 0 := funext (compact_eq 0)
  have hindented : indented 0 = written .lines 0 := funext (indented_eq 0)
  rw [hcompact, hindented]
  exact ⟨Spacing.insignificant_none, Spacing.insignificant_lines, recordsSurvive Spacing.insignificant_none,
    recordsSurvive Spacing.insignificant_lines⟩

end RecordExport
