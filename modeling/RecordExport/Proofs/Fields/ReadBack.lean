import RecordExport.Proofs.Fields.ItemExport
import RecordExport.Proofs.Literals.Strings
/-!
# The export of an item, read back

Whoever reads the built-in export of an item finds in its strings what was exported: the id, the name, the key of the
name, and then for each field its name and, unless it is a number, its value. Ids and names of fields are written as
they are, so they must not end a string; carriage returns are never found again, and neither is a value that is
nothing but blanks on one line, which is trimmed away.

* `readBack`, `standsFor_trimmed`: what a value is found as;
* `Field.strung_listed`: the line of a field has the field's strings, and they stand on that line;
* `strings_itemText`: the text of an item has the strings of its parts;
* `quotable_request`: keys issued in memory are written as they are;
* `readsBack_item`: **a render of an item gives a text with the item's strings**;
* `letters_lost`: an item for each way to lose one of them.
-/

namespace RecordExport

open EscapeSettings (withoutReturns)

variable {ω : Type}

/-! ## 1. Values -/

/-- What a value is found as: one with nothing but blanks on its only line is trimmed away, and every other loses its
    carriage returns. -/
def readBack (v : Text) : Text := if Text.allBlank v && !v.contains '\n' then [] else withoutReturns v

/-- No line feed is left in what is escaped. -/
theorem feed_not_mem_escape (v : Text) : '\n' ∉ EscapeSettings.standard.escape v := fun hm => by
  have hfeed := reversible_standard.eq_of_lineEnd_mem hm (.inr rfl)
  cases hfeed

theorem mem_or_of_mem_escape {c : Char} {v : Text} (h : c ∈ EscapeSettings.standard.escape v) :
    c ∈ v ∨ c = '\\' ∨ c = 'n' := by
  obtain ⟨a, ha, hc⟩ := List.mem_flatMap.1 h
  rcases reversible_standard.escapeChar_cases a with ⟨-, hw⟩ | ⟨-, hw⟩ | ⟨-, -, -, hw⟩ | ⟨-, -, -, hw⟩
  · rw [hw] at hc
    cases hc
  · rw [hw] at hc
    exact .inr (by simpa using hc)
  · rw [hw] at hc
    rcases List.mem_cons.1 hc with rfl | hc
    · exact .inr (.inl rfl)
    · exact .inl (List.mem_singleton.1 hc ▸ ha)
  · rw [hw] at hc
    exact .inl (List.mem_singleton.1 hc ▸ ha)

theorem brace_not_mem_escape {v : Text} (h : '{' ∉ v) : '{' ∉ EscapeSettings.standard.escape v := fun hm => by
  rcases mem_or_of_mem_escape hm with hm | hm | hm
  · exact h hm
  · cases hm
  · cases hm

/-- What is escaped is blank if the value is, on one line. -/
theorem allBlank_escape (v : Text) :
    Text.allBlank (EscapeSettings.standard.escape v) = (Text.allBlank v && !v.contains '\n') := by
  unfold Text.allBlank
  induction v with
  | nil => rfl
  | cons c v ih =>
    rw [EscapeSettings.escape_cons, List.all_append, ih, List.all_cons, List.contains_cons]
    rcases reversible_standard.escapeChar_cases c with
      ⟨rfl, hw⟩ | ⟨rfl, hw⟩ | ⟨hr, hf, hl, hw⟩ | ⟨hr, hf, hl, hw⟩
    · rw [hw]
      rfl
    · rw [hw, beq_self_eq_true, Bool.true_or, Bool.not_true, Bool.and_false]
      rfl
    · have hinked : ∀ c ∈ ['"', '\\'], isBlank c = false := by simp [isBlank]
      rw [hw, hinked c hl]
      rfl
    · rw [hw, beq_false_of_ne (Ne.symm hf)]
      simp [Bool.and_assoc]

/-- **A value that is escaped and trimmed** stands for what it is found as. -/
theorem standsFor_trimmed (v : Text) :
    StandsFor (trimBlankLines (EscapeSettings.standard.escape v)) (readBack v) := by
  rw [trimBlankLines_of_not_mem (feed_not_mem_escape v), allBlank_escape]
  unfold readBack
  split
  · exact standsFor_nil
  · exact standsFor_escape v

/-! ## 2. Fields -/

/-- **A text that is written between quotes as it is**: nothing in it ends the string, is taken for something else or
    makes a placeholder. -/
structure Quotable (t : Text) : Prop where
  quote : '"' ∉ t
  backslash : '\\' ∉ t
  returns : '\r' ∉ t
  brace : '{' ∉ t

instance (t : Text) : Decidable (Quotable t) :=
  decidable_of_iff ('"' ∉ t ∧ '\\' ∉ t ∧ '\r' ∉ t ∧ '{' ∉ t)
    ⟨fun ⟨quote, backslash, returns, brace⟩ => ⟨quote, backslash, returns, brace⟩,
      fun h => ⟨h.quote, h.backslash, h.returns, h.brace⟩⟩

theorem Quotable.standsFor {t : Text} (h : Quotable t) : StandsFor t (withoutReturns t) := by
  have hkept : withoutReturns t = t := List.filter_eq_self.2 fun c hc => by
    rw [decide_eq_true_eq]
    rintro rfl
    exact h.returns hc
  rw [hkept]
  exact standsFor_plain h.quote h.backslash

/-- The strings of a field: its name, and its value unless it is a number. -/
def Field.strings (f : Field) : List Text :=
  withoutReturns f.name.toList :: if f.isNumber then [] else [readBack f.value.toList]

/-- **A field that can be read back**: its name is written as it is on one line, and a number has no quote. -/
structure Field.Readable (f : Field) : Prop where
  name : Quotable f.name.toList
  feed : '\n' ∉ f.name.toList
  value : '{' ∉ f.value.toList
  number : f.isNumber = true → '"' ∉ f.value.toList

instance (f : Field) : Decidable f.Readable :=
  decidable_of_iff (Quotable f.name.toList ∧ '\n' ∉ f.name.toList ∧ '{' ∉ f.value.toList ∧
      (f.isNumber = true → '"' ∉ f.value.toList))
    ⟨fun ⟨name, feed, value, number⟩ => ⟨name, feed, value, number⟩,
      fun h => ⟨h.name, h.feed, h.value, h.number⟩⟩

theorem mem_of_mem_trimmed {c : Char} {v : Text} (h : c ∈ trimBlankLines (Text.trim v)) : c ∈ v :=
  mem_of_mem_trim ((infix_trimBlankLines _).subset h)

namespace Field

variable {f : Field}

theorem Listable.of_unbraced (hname : '{' ∉ f.name.toList) (hvalue : '{' ∉ f.value.toList) :
    f.Listable .standard := by
  refine ⟨hname, ?_⟩
  unfold written
  split
  · exact fun hm => hvalue (mem_of_mem_trim hm)
  · exact brace_not_mem_escape hvalue

/-- **The line of a field has the strings of the field.** -/
theorem strung_listed (h : f.Readable) (last : Bool) : Strung (f.listed .standard last) f.strings := by
  have hback : ∀ last : Bool, '"' ∉ (if last then [] else [',']) ++ ['\n'] := by decide
  rw [listed_of_not_mem h.feed]
  unfold strings written
  cases hnumber : f.isNumber with
  | true =>
    have hplain : '"' ∉ "] = ".toList ++ (trimBlankLines (Text.trim f.value.toList) ++ listedBack true last) := by
      simp only [List.mem_append, not_or]
      exact ⟨by decide, fun hm => h.number hnumber (mem_of_mem_trimmed hm), hback last⟩
    have hline := Strung.char (c := '[') (by decide) (.string h.name.standsFor h.feed (.plain hplain))
    refine (congrArg (fun t => Strung t _) ?_).mp hline
    simp [listedFront, valueQuote]
  | false =>
    have hvalue := Strung.string (standsFor_trimmed f.value.toList)
      (fun hm => feed_not_mem_escape f.value.toList ((infix_trimBlankLines _).subset hm)) (.plain (hback last))
    have hrest := (Strung.plain (a := "] = ".toList) (by decide)).append hvalue
    have hline := Strung.char (c := '[') (by decide) (.string h.name.standsFor h.feed hrest)
    refine (congrArg (fun t => Strung t _) ?_).mp hline
    simp [listedFront, listedBack, valueQuote]

end Field

/-- **A listing has the strings of its fields**, one after the other. -/
theorem strung_fieldListing {fs : List Field} (h : ∀ f ∈ fs, f.Readable) :
    Strung (fieldListing .standard fs) (fs.flatMap Field.strings) := by
  have hlines : List.Forall₂ Strung ((positioned fs).map fun a => a.1.listed .standard a.2.isLast)
      ((positioned fs).map fun a => a.1.strings) := by
    rw [List.forall₂_map_left_iff, List.forall₂_map_right_iff, List.forall₂_same]
    intro a ha
    have hmem : a.1 ∈ (positioned fs).map (·.1) := List.mem_map_of_mem ha
    rw [map_positioned] at hmem
    exact Field.strung_listed (h a.1 hmem) a.2.isLast
  have hstrings : ((positioned fs).map fun a => a.1.strings) = fs.map Field.strings := by
    conv => rhs; rw [← map_positioned fs]
    rw [List.map_map]
    rfl
  have hjoined := Strung.joinItems hlines
  rw [hstrings] at hjoined
  rwa [List.flatMap_def]

/-! ## 3. Items -/

/-- The strings in front of the listing. -/
theorem strings_itemFront {id name key id' name' key' : Text} (hid : StandsFor id id') (hname : StandsFor name name')
    (hkey : StandsFor key key') :
    strings (sourceOf (itemFront (.literal id) (.literal name) (.literal key))) = some [id', name', key'] := by
  have hquoted : sourceOf (itemFront (.literal id) (.literal name) (.literal key)) =
      "\x7b\n    id = ".toList ++ '"' :: (id ++ '"' :: (",\n    name = ".toList ++ '"' :: (name ++ '"' ::
        (",\n    name_key = ".toList ++ '"' :: (key ++ '"' :: ",\n    ".toList))))) := by
    simp [itemFront, Token.source]
  rw [hquoted, strings_quoted hid (by decide), strings_quoted hname (by decide), strings_quoted hkey (by decide),
    strings_plain (by decide)]
  rfl

/-- **The text of an item has the strings of its parts**, whatever line the listing takes. -/
theorem strings_itemText {id name key listing id' name' key' : Text} {ss : List Text} (hid : StandsFor id id')
    (hname : StandsFor name name') (hkey : StandsFor key key') (hlisting : Strung listing ss) :
    strings (itemText id name key listing) = some ([id', name', key'] ++ ss) := by
  have hback : strings (sourceOf itemBack) = some [] := by decide
  refine (strings_insertion (strings_itemFront hid hname hkey) hlisting).trans ?_
  rw [hback, Option.map_some, List.append_nil]

/-- The strings of an item: its id, its name and the key of its name, and those of its fields. -/
def GameObject.strings (o : GameObject) (key : String) : List Text :=
  [withoutReturns o.id.toList, withoutReturns o.name.toList, withoutReturns key.toList] ++
    o.fields.flatMap Field.strings

/-- **An item that can be read back**: its id is written as it is, nothing in its name makes a placeholder, and its
    fields can be read back. -/
structure GameObject.Readable (o : GameObject) : Prop where
  id : Quotable o.id.toList
  name : '{' ∉ o.name.toList
  fields : ∀ f ∈ o.fields, f.Readable

instance (o : GameObject) : Decidable o.Readable :=
  decidable_of_iff (Quotable o.id.toList ∧ '{' ∉ o.name.toList ∧ ∀ f ∈ o.fields, f.Readable)
    ⟨fun ⟨id, name, fields⟩ => ⟨id, name, fields⟩, fun h => ⟨h.id, h.name, h.fields⟩⟩

/-- **Keys that are issued in memory are written as they are.** -/
theorem quotable_request {t : KeyTable} (h : KeyTable.empty.Precedes t) (r : KeyRequest) :
    Quotable (t.request r).1.toList where
  quote := (h.lacks rfl).answer rfl r
  backslash := (h.lacks rfl).answer rfl r
  returns := (h.lacks rfl).answer rfl r
  brace := (h.lacks rfl).answer rfl r

/-- **The built-in export of an item can be read back.** Escaped in the standard way, with a key that is written as it
    is and the built-in template for the listing, a render gives a text, and the strings of this text are those of the
    item. -/
theorem readsBack_item {services : Services ω} (hescape : services.escape = .standard) {o : GameObject}
    (ho : o.Readable) {c : RenderContext} (hc : c.subject = .object o) {key : String} (hkey : Quotable key.toList)
    {w w' w'' : ω} (h : Engine.AnswersItem services (nameKey o c.objectType) key w w' w'') (maxDepth : Nat) :
    ∃ out, ((Engine.standard services (maxDepth + 1)).render .item c (BuiltIn.template .item) w false).1 = .ok out ∧
      strings out.text = some (o.strings key) := by
  have hname : '{' ∉ services.escape.escape o.name.toList := hescape ▸ brace_not_mem_escape ho.name
  have hfields : ∀ f ∈ o.fields, f.Listable services.escape := fun f hf =>
    hescape ▸ .of_unbraced (ho.fields f hf).name.brace (ho.fields f hf).value
  obtain ⟨diagnostics, hrender⟩ := Engine.exportsItem hc ho.id.brace hname hfields hkey.brace h maxDepth
  refine ⟨_, congrArg Prod.fst hrender, ?_⟩
  rw [hescape]
  exact strings_itemText ho.id.standsFor (standsFor_escape _) hkey.standsFor (strung_fieldListing ho.fields)

/-- An item with a line end, quotes and a backslash in its texts, a number, and a value of nothing but a blank. -/
def ruler : GameObject :=
  ⟨"ruler", "Long \"Ruler\"", .item, [⟨"1", "Note", .multiLineText, " keep \\ dry\r\n\"ok\"\n", []⟩,
    ⟨"2", "Length", .number, " 12 ", []⟩, ⟨"3", "Spare", .text, " ", []⟩], [], [], [], []⟩

theorem readsBack_item_ruler : ruler.Readable ∧
    ∃ out, ((Engine.standard (Services.inMemory ⟨[ruler], []⟩ .builtIn .standard) 64).render .item
        (.ofObject ruler) (BuiltIn.template .item) .empty false).1 = .ok out ∧
      strings out.text = some ["ruler".toList, "Long \"Ruler\"".toList, "Item_Long__Ruler__Name".toList,
        "Note".toList, " keep \\ dry\n\"ok\"\n".toList, "Length".toList, "Spare".toList, []] := by
  have hreadable : ruler.Readable := by decide
  have hkey : (KeyTable.empty.request (nameKey ruler .item)).1 = "Item_Long__Ruler__Name" := by decide +kernel
  have hanswers := Engine.answersItem_inMemory ⟨[ruler], []⟩ .standard (nameKey ruler .item) .empty
  have hquotable := quotable_request KeyTable.empty.precedes_refl (nameKey ruler .item)
  rw [hkey] at hanswers hquotable
  have hread := readsBack_item rfl hreadable (c := .ofObject ruler) rfl hquotable hanswers 63
  have hstrings : ruler.strings "Item_Long__Ruler__Name" = ["ruler".toList, "Long \"Ruler\"".toList,
      "Item_Long__Ruler__Name".toList, "Note".toList, " keep \\ dry\n\"ok\"\n".toList, "Length".toList,
      "Spare".toList, []] := by decide +kernel
  rw [hstrings] at hread
  exact ⟨hreadable, hread⟩

/-- A letter with one field. -/
def letterWith (id name : String) (type : FieldType) (value : String) : GameObject :=
  ⟨id, "Letter", .item, [⟨"1", name, type, value, []⟩], [], [], [], []⟩

/-- One letter for each way not to be found again: a blank value; a quote, a backslash or a carriage return in the id
    or in the name of the field; a line feed in that name; a number with a quote. -/
def unreadableLetters : List GameObject :=
  [letterWith "letter" "Note" .text " ",
    letterWith "let\"ter" "Note" .text "Hi", letterWith "let\\ter" "Note" .text "Hi",
    letterWith "let\rter" "Note" .text "Hi",
    letterWith "letter" "No\"te" .text "Hi", letterWith "letter" "No\\te" .text "Hi",
    letterWith "letter" "No\rte" .text "Hi", letterWith "letter" "No\nte" .text "Hi",
    letterWith "letter" "Size" .number "12\""]

/-- The strings of an item if no value of it were trimmed away. -/
def GameObject.fullStrings (o : GameObject) (key : String) : List Text :=
  [withoutReturns o.id.toList, withoutReturns o.name.toList, withoutReturns key.toList] ++
    o.fields.flatMap fun f =>
      withoutReturns f.name.toList :: if f.isNumber then [] else [withoutReturns f.value.toList]

/-- No text of the item has a brace. -/
def GameObject.Unbraced (o : GameObject) : Prop :=
  ∀ t ∈ o.id :: o.name :: o.fields.flatMap fun f => [f.name, f.value], '{' ∉ t.toList ∧ '}' ∉ t.toList

instance (o : GameObject) : Decidable o.Unbraced := inferInstanceAs (Decidable (∀ t ∈ _, _))

/-- **An item is lost** if it is not found again in its export, though no text of it has a brace. -/
structure GameObject.Lost (o : GameObject) : Prop where
  unbraced : o.Unbraced
  export_ne : ¬ ∃ out,
    ((Engine.standard (Services.inMemory ⟨[o], []⟩ .builtIn .standard) 64).render .item (.ofObject o)
        (BuiltIn.template .item) .empty false).1 = .ok out ∧
      RecordExport.strings out.text = some (o.fullStrings (KeyTable.empty.request (nameKey o o.type)).1)

/-- Whether an item is lost can be read off the text its export ends with. -/
theorem lost_of_strings_ne {o : GameObject} (ho : o.Unbraced) {key : String}
    (hkey : (KeyTable.empty.request (nameKey o o.type)).1 = key)
    (hne : strings (itemText o.id.toList (EscapeSettings.standard.escape o.name.toList) key.toList
      (fieldListing .standard o.fields)) ≠ some (o.fullStrings key)) : o.Lost := by
  let services := Services.inMemory ⟨[o], []⟩ .builtIn .standard
  obtain ⟨hid, hrest⟩ := List.forall_mem_cons.1 ho
  obtain ⟨hname, hfields⟩ := List.forall_mem_cons.1 hrest
  have hescaped : '{' ∉ services.escape.escape o.name.toList := brace_not_mem_escape hname.1
  have hlistable : ∀ f ∈ o.fields, f.Listable services.escape := by
    intro f hf
    have htexts : ∀ t ∈ [f.name, f.value], '{' ∉ t.toList := fun t ht =>
      (hfields t (List.mem_flatMap.2 ⟨f, hf, ht⟩)).1
    exact .of_unbraced (htexts _ List.mem_cons_self) (htexts _ (List.mem_cons_of_mem _ List.mem_cons_self))
  have hanswers := Engine.answersItem_inMemory ⟨[o], []⟩ .standard (nameKey o o.type) .empty
  have hquotable := quotable_request KeyTable.empty.precedes_refl (nameKey o o.type)
  rw [hkey] at hanswers hquotable
  obtain ⟨diagnostics, hrender⟩ :=
    Engine.exportsItem (c := .ofObject o) rfl hid.1 hescaped hlistable hquotable.brace hanswers 63
  refine ⟨ho, ?_⟩
  rintro ⟨out, hout, hstrings⟩
  rw [hrender] at hout
  obtain rfl := Except.ok.inj hout
  rw [hkey] at hstrings
  exact hne hstrings

/-- **Each of these letters is lost.** -/
theorem letters_lost : unreadableLetters.Forall GameObject.Lost := by
  have hunbraced : ∀ o ∈ unreadableLetters, o.Unbraced := by decide +kernel
  have hkeys : ∀ o ∈ unreadableLetters, (KeyTable.empty.request (nameKey o o.type)).1 = "Item_Letter_Name" := by
    decide +kernel
  have hstrings : ∀ o ∈ unreadableLetters,
      strings (itemText o.id.toList (EscapeSettings.standard.escape o.name.toList)
        "Item_Letter_Name".toList (fieldListing .standard o.fields)) ≠
        some (o.fullStrings "Item_Letter_Name") := by
    decide +kernel
  exact List.forall_iff_forall_mem.2 fun o ho =>
    lost_of_strings_ne (hunbraced o ho) (hkeys o ho) (hstrings o ho)

end RecordExport
