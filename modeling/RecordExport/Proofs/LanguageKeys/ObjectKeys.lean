import RecordExport.Proofs.LanguageKeys.Fetching
import RecordExport.Proofs.LanguageKeys.Sources
import RecordExport.Proofs.Template.Names
import RecordExport.Proofs.Template.OnePass
import RecordExport.Proofs.Template.Sealed
/-!
# Keys in the texts of objects

An object's own placeholders have names for the keys of its texts: one for its name, and for each of its
fields one under every name the field answers to. A key that was put in has no braces, so no later pass takes
it for something else.

* `KeyTable.Precedes.lacks`: there is nothing in the keys of a table but letters, digits and underscores;
* `LonePlace`: a text with one placeholder, and what passes do in it;
* `KeySource.IsNamed`: the names for the key of a text;
* `Engine.render_lonePlace`: **a render of the object prints the key in their place**, and asks for nothing
  else.
-/

namespace RecordExport

open RenderProgram

/-! ## 1. What no key has -/

/-- A character keys are written with. -/
def isKeyChar (c : Char) : Bool := isIdentifierChar c || c = '_'

theorem isKeyChar_of_isDigit {c : Char} (h : c.isDigit = true) : isKeyChar c = true := by
  have hdigit : (decide ('0' ≤ c) && decide (c ≤ '9')) = true := h
  unfold isKeyChar isIdentifierChar
  rw [hdigit]
  rfl

section Foreign

variable {c : Char} (hc : isKeyChar c = false)

include hc

theorem not_mem_identifier (name : Text) : c ∉ identifier name := by
  obtain ⟨hkept, hline⟩ := Bool.or_eq_false_iff.1 hc
  have hline : c ≠ '_' := of_decide_eq_false hline
  have hbody : c ∉ (Text.trim name).map fun c => if isIdentifierChar c then c else '_' := by
    intro hm
    obtain ⟨d, -, hd⟩ := List.mem_map.1 hm
    split at hd
    · rename_i hd'
      rw [← hd, hd'] at hkept
      cases hkept
    · exact hline hd.symm
  unfold identifier
  dsimp only
  split
  · exact fun hm => hline (List.mem_singleton.1 hm)
  · rename_i d body heq
    rw [heq] at hbody
    split
    · intro hm
      rcases List.mem_cons.1 hm with hm | hm
      · exact hline hm
      · exact hbody hm
    · exact hbody

theorem not_mem_identifierOf (name : String) : c ∉ (identifierOf name).toList := by
  unfold identifierOf
  rw [String.toList_ofList]
  exact not_mem_identifier hc _

theorem not_mem_joined {a b : String} (ha : c ∉ a.toList) (hb : c ∉ b.toList) : c ∉ (a ++ "_" ++ b).toList := by
  have hline : c ∉ "_".toList := fun hm =>
    of_decide_eq_false (Bool.or_eq_false_iff.1 hc).2 (List.mem_singleton.1 hm)
  simp only [String.toList_append, List.mem_append, ha, hb, hline, or_self, not_false_eq_true]

theorem not_mem_baseKey (r : KeyRequest) : c ∉ r.baseKey.toList := by
  have hspace : c ∉ r.objectType.space.toList := by
    have hspaces : r.objectType.space.toList.all isKeyChar = true := by cases r.objectType <;> decide
    intro hm
    rw [List.all_eq_true.1 hspaces c hm] at hc
    cases hc
  exact not_mem_joined hc (not_mem_joined hc hspace (not_mem_identifierOf hc _)) (not_mem_identifierOf hc _)

theorem not_mem_candidate {base : String} (h : c ∉ base.toList) (n : Nat) :
    c ∉ (KeyTable.candidate base n).toList := by
  cases n with
  | zero => exact h
  | succ n =>
    have hdigits : c ∉ (toString (n + 2)).toList := fun hm => by
      have hm : c ∈ (String.ofList (Nat.toDigits 10 (n + 2))).toList := hm
      rw [String.toList_ofList] at hm
      have hdigit := Nat.isDigit_of_mem_toDigits (by decide) (Nat.le_refl 10) hm
      rw [isKeyChar_of_isDigit hdigit] at hc
      cases hc
    exact not_mem_joined hc h hdigits

end Foreign

namespace KeyTable

variable {t : KeyTable}

/-- No key of the table has the character. -/
def Lacks (t : KeyTable) (c : Char) : Prop := ∀ i k, t.keyOf i = some k → c ∉ k.toList

theorem Lacks.answer {c : Char} (hc : isKeyChar c = false) (h : t.Lacks c) (r : KeyRequest) :
    c ∉ (t.request r).1.toList := by
  cases hk : t.keyOf r.identity with
  | some k =>
    rw [request_of_keyOf_eq_some hk]
    exact h _ k hk
  | none =>
    obtain ⟨n, hn, -⟩ := t.freeKey_eq_candidate r.baseKey
    rw [request_of_keyOf_eq_none hk, hn]
    exact not_mem_candidate hc (not_mem_baseKey hc r) n

theorem Lacks.request {c : Char} (hc : isKeyChar c = false) (h : t.Lacks c) (r : KeyRequest) :
    (t.request r).2.Lacks c := by
  intro i k hk
  rw [keyOf_request] at hk
  split at hk
  · rw [← Option.some.inj hk]
    exact h.answer hc r
  · exact h i k hk

/-- **Keys are written with nothing else**, by induction on the requests since the table was empty. -/
theorem Precedes.lacks (h : empty.Precedes t) {c : Char} (hc : isKeyChar c = false) : t.Lacks c := by
  obtain ⟨rs, rfl⟩ := h
  induction rs using List.reverseRecOn with
  | nil =>
    intro i k hk
    cases hk
  | append_singleton rs r ih =>
    rw [after_append]
    exact ih.request hc r

/-- No key of the table has an opening brace. -/
def Unbraced (t : KeyTable) : Prop := ∀ i k, t.keyOf i = some k → '{' ∉ k.toList

theorem Unbraced.answer (h : t.Unbraced) (r : KeyRequest) : '{' ∉ (t.request r).1.toList :=
  Lacks.answer rfl h r

theorem Precedes.unbraced (h : empty.Precedes t) : t.Unbraced := h.lacks rfl

end KeyTable

/-! ## 2. A text with one placeholder -/

/-- Without opening braces there are no placeholders. -/
theorem placeholder_not_mem_of_unbraced {t : Text} (h : '{' ∉ t) : ∀ b, Token.placeholder b ∉ tokenize t :=
  placeholder_not_mem_of_unopened (unopened_of_not_mem h)

theorem avoids_of_unbraced {t : Text} (h : '{' ∉ t) (start : Text) : t.Avoids start :=
  fun b hb => absurd hb (placeholder_not_mem_of_unbraced h b)

theorem scalarCaptures_of_unbraced {t : Text} (h : '{' ∉ t) (p : Pattern) :
    ∀ k ∈ tokenize t, scalarCaptures p k = none := by
  intro k hk
  cases k with
  | literal l => rfl
  | placeholder b => exact absurd hk (placeholder_not_mem_of_unbraced h b)

theorem scalarsIn_of_unbraced {t : Text} (h : '{' ∉ t) (p : Pattern) : scalarsIn p t = [] :=
  List.filterMap_eq_nil_iff.2 (scalarCaptures_of_unbraced h p)

/-- Nothing is replaced without opening braces. -/
theorem flatMap_of_unbraced {t : Text} (h : '{' ∉ t) (p : Pattern) (value : List Text → Text) :
    (tokenize t).flatMap (fun k => ((scalarCaptures p k).map value).getD k.source) = t := by
  have hsource : (tokenize t).flatMap (fun k => ((scalarCaptures p k).map value).getD k.source) =
      (tokenize t).flatMap Token.source := by
    refine List.flatMap_congr fun k hk => ?_
    rw [scalarCaptures_of_unbraced h p k hk]
    rfl
  exact hsource.trans (source_tokenize t)

/-- **A text with one placeholder** and no other opening brace. -/
structure LonePlace where
  before : Text
  body : Text
  behind : Text
  plain_before : '{' ∉ before
  plain_behind : '{' ∉ behind
  isBody : IsBody body

namespace LonePlace

variable (u : LonePlace) {p : Pattern} {start value : Text}

/-- The text as it is written. -/
def text : Text := u.before ++ (braced u.body ++ u.behind)

/-- The name of its placeholder. -/
def name : Text := Text.trim u.body

/-- The text with a value in the place. -/
def filled (value : Text) : Text := u.before ++ (value ++ u.behind)

theorem unbraced_filled (h : '{' ∉ value) : '{' ∉ u.filled value := by
  unfold filled
  simp only [List.mem_append, u.plain_before, h, u.plain_behind, or_self, not_false_eq_true]

theorem tokenize_text :
    tokenize u.text = tokenize u.before ++ .placeholder u.body :: tokenize u.behind :=
  tokenize_append_braced u.before u.isBody u.behind

theorem eq_of_mem_tokenize {b : Text} (h : Token.placeholder b ∈ tokenize u.text) : b = u.body := by
  rw [tokenize_text] at h
  rcases List.mem_append.1 h with h | h
  · exact absurd h (placeholder_not_mem_of_unbraced u.plain_before b)
  · rcases List.mem_cons.1 h with h | h
    · exact Token.placeholder.inj h
    · exact absurd h (placeholder_not_mem_of_unbraced u.plain_behind b)

theorem avoids (h : ¬ start <+: u.name) : u.text.Avoids start := by
  intro b hb
  rw [u.eq_of_mem_tokenize hb]
  exact h

theorem scalarsIn_text (p : Pattern) :
    scalarsIn p u.text = (scalarCaptures p (.placeholder u.body)).toList := by
  have hbehind := scalarsIn_append_of_plain p u.plain_behind []
  rw [List.append_nil] at hbehind
  unfold text
  rw [scalarsIn_append_of_plain p u.plain_before]
  unfold scalarsIn at hbehind ⊢
  rw [tokenize_braced u.isBody, List.filterMap_cons, hbehind, tokenize]
  cases scalarCaptures p (.placeholder u.body) <;> rfl

theorem replaceScalars_text {cs : List Text} (h : scalarCaptures p (.placeholder u.body) = some cs)
    (value : List Text → Text) : replaceScalars p .inline u.text value = u.filled (value cs) := by
  rw [replaceScalars_inline, tokenize_text, List.flatMap_append, List.flatMap_cons, h,
    flatMap_of_unbraced u.plain_before, flatMap_of_unbraced u.plain_behind]
  rfl

/-- Another name is not found. -/
theorem scalarsIn_literal_of_ne {name : String} (h : u.name ≠ name.toList) :
    scalarsIn (.literal name.toList) u.text = [] := by
  have hno : (Pattern.literal name.toList).captures u.name = none :=
    Option.not_isSome_iff_eq_none.1 fun hm => h (isMatch_literal_iff.1 hm)
  have hcaptures : scalarCaptures (.literal name.toList) (.placeholder u.body) = none := by
    unfold scalarCaptures
    split
    · exact hno
    · rfl
  rw [scalarsIn_text, hcaptures]
  rfl

theorem fill_of_ne {name : String} (h : u.name ≠ name.toList) (placement : Placement) (value : Text) :
    fill name placement value u.text = u.text := by
  unfold fill
  rw [replaceScalars_eq, u.scalarsIn_literal_of_ne h]
  rfl

section Scalar

variable {u} (h : Token.shapeOfName u.name = .scalar)
include h

theorem scalarCaptures_of_scalar (p : Pattern) :
    scalarCaptures p (.placeholder u.body) = p.captures u.name := if_pos h

theorem scalarsIn_of_captures {cs : List Text} (hcs : p.captures u.name = some cs) :
    scalarsIn p u.text = [cs] := by
  rw [scalarsIn_text, scalarCaptures_of_scalar h, hcs]
  rfl

/-- The value that was asked for goes into the place. -/
theorem placeValues_text {cs : List Text} (hcs : p.captures u.name = some cs) (value : Text) :
    placeValues p .inline [value] u.text = u.filled value := by
  have hplaced := replaceScalars_eq p .inline u.text fun _ => value
  rw [scalarsIn_of_captures h hcs] at hplaced
  exact hplaced.symm.trans (u.replaceScalars_text ((scalarCaptures_of_scalar h p).trans hcs) _)

theorem fill_of_eq {name : String} (hname : u.name = name.toList) (value : Text) :
    fill name .inline value u.text = u.filled value := by
  obtain ⟨cs, hcs⟩ := Option.isSome_iff_exists.1 (isMatch_literal_iff.2 hname)
  exact u.replaceScalars_text ((scalarCaptures_of_scalar h _).trans hcs) fun _ => value

/-- A value stands for no block. -/
theorem findBlock_eq_none (f : BlockFamily) : findBlock f (tokenize u.text) = none := by
  have hopen : ∀ k ∈ tokenize u.text, f.isOpening k = false := by
    intro k hk
    cases k with
    | literal l => rfl
    | placeholder b =>
      have hshape : (Token.placeholder b).shape = .scalar := by
        rw [u.eq_of_mem_tokenize hk]
        exact h
      unfold BlockFamily.isOpening
      rw [hshape]
      rfl
  have hfind := findBlock_of_not_opening hopen []
  rwa [List.append_nil] at hfind

end Scalar

end LonePlace

/-! ## 3. Names of keys -/

/-- **A name that stands for the key of an object's text**: that of its own name, or that of a field under a
    name the field answers to. -/
inductive KeySource.IsNamed (o : GameObject) (space : String) : KeySource → Text → Prop
  | name : IsNamed o space .name (space ++ "_Name_LangKey").toList
  | field {f : Field} {n : Text} (h : o.field? n = some f) :
    IsNamed o space (.field f) ((space ++ "_").toList ++ ("Value_".toList ++ (n ++ "_LangKey".toList)))

namespace KeySource.IsNamed

variable {o : GameObject} {space : String} {s : KeySource} {name : Text}

theorem space_isPrefix (h : s.IsNamed o space name) : (space ++ "_").toList <+: name := by
  cases h with
  | name => exact begins_name (List.prefix_refl _) "Name_LangKey"
  | field h => exact List.prefix_append _ _

theorem endsIn (h : s.IsNamed o space name) : "_LangKey".toList <:+ name := by
  cases h with
  | name => exact ⟨(space ++ "_Name").toList, by rw [← String.toList_append, String.append_assoc]; rfl⟩
  | field h => exact ((List.suffix_append _ _).trans (List.suffix_append _ _)).trans (List.suffix_append _ _)

theorem not_suffix (h : s.IsNamed o space name) {trail : Text} (hshort : ¬ trail <:+ "_LangKey".toList)
    (hlong : ¬ "_LangKey".toList <:+ trail) : ¬ trail <:+ name := fun hends =>
  (List.suffix_or_suffix_of_suffix hends h.endsIn).elim hshort hlong

/-- Such a name stands for a value. -/
theorem shape_eq (h : s.IsNamed o space name) : Token.shapeOfName name = .scalar := by
  have hnot : ∀ trail : Text, ¬ trail <:+ "_LangKey".toList → ¬ "_LangKey".toList <:+ trail →
      name.endsIn trail = false := fun trail hshort hlong =>
    Bool.eq_false_iff.2 fun hends => h.not_suffix hshort hlong (List.isSuffixOf_iff_suffix.1 hends)
  unfold Token.shapeOfName
  rw [hnot startTrail (by decide) (by decide), hnot endTrail (by decide) (by decide)]
  rfl

/-- It is no name of the same namespace with another end. -/
theorem ne (h : s.IsNamed o space name) (rest : String) (hshort : ¬ rest.toList <:+ "_LangKey".toList)
    (hlong : ¬ "_LangKey".toList <:+ rest.toList) : name ≠ (space ++ rest).toList := by
  intro heq
  refine h.not_suffix hshort hlong ?_
  rw [heq, String.toList_append]
  exact List.suffix_append _ _

end KeySource.IsNamed

/-- A pattern takes all that stands before its fixed end. -/
theorem cutLongest_fixed {n : Text} (h : '\n' ∉ n) (s : Text) :
    cutLongest (partCaptures [.fixed s]) (n ++ s) = some (n, []) := by
  have hrest : ∀ {r : Text} {cs : List Text}, partCaptures [.fixed s] r = some cs → r = s ∧ cs = [] := by
    intro r cs hr
    obtain ⟨r', hlead, hr'⟩ := Option.bind_eq_some_iff.1 hr
    unfold partCaptures at hr'
    split at hr'
    · rename_i hnil
      rw [Text.eq_append_of_afterLeading? hlead, hnil, List.append_nil]
      exact ⟨rfl, (Option.some.inj hr').symm⟩
    · cases hr'
  have hends : (partCaptures [.fixed s] s).isSome = true := isMatch_literal_iff.2 rfl
  have hsome := isSome_cutLongest.2 ⟨n, s, rfl, h, hends⟩
  obtain ⟨⟨front, cs⟩, hcut⟩ := Option.isSome_iff_exists.1 hsome
  obtain ⟨rest, heq, hanswer⟩ := cutLongest_eq hcut
  obtain ⟨rfl, rfl⟩ := hrest hanswer
  rw [hcut, List.append_cancel_right heq]

theorem partCaptures_fixed (s t : Text) (ps : List NamePart) :
    partCaptures (.fixed s :: ps) (s ++ t) = partCaptures ps t := by
  rw [partCaptures.eq_def]
  dsimp only
  rw [Text.afterLeading?_append, Option.bind_some]

theorem captures_valueKey (space : String) {n : Text} (h : '\n' ∉ n) :
    (FieldPlaceholder.valueKey space).captures
      ((space ++ "_").toList ++ ("Value_".toList ++ (n ++ "_LangKey".toList))) = some [n] := by
  have hspace : (space ++ "_").toList = space.toList ++ ['_'] := String.toList_append
  unfold FieldPlaceholder.valueKey Pattern.within
  show partCaptures _ _ = _
  rw [hspace, partCaptures_fixed, partCaptures_fixed, partCaptures.eq_def]
  dsimp only
  rw [cutLongest_fixed h]
  rfl

/-! ## 4. Objects -/

section Objects

variable {settings : EscapeSettings} {u : LonePlace} {o : GameObject} {type : ObjectType} {space : String}
  {s : KeySource} {t : KeyTable}

/-- The name and the id of an object do not go where a key is to stand. -/
theorem fillIdentity_of_isNamed (h : s.IsNamed o space u.name) :
    fillIdentity o type space u.text = (do
      let _ ← escaped o.name.toList
      fillKey (space ++ "_Name_LangKey") (nameKey o type) u.text) := by
  have hid := u.fill_of_ne (h.ne "_Id" (by decide) (by decide)) .inline
  have hname := u.fill_of_ne (h.ne "_Name" (by decide) (by decide)) .inline
  unfold fillIdentity
  simp only [hid, hname]

/-- The key of the name goes in with the identity. -/
theorem fetches_fillIdentity_of_name (h : KeySource.name.IsNamed o space u.name) (t : KeyTable) :
    (fillIdentity o type space u.text).Fetches settings t [nameKey o type]
      (u.filled (t.request (nameKey o type)).1.toList) := by
  let r := nameKey o type
  have heq : u.name = (space ++ "_Name_LangKey").toList := by
    generalize u.name = name at h
    cases h
    rfl
  obtain ⟨cs, hcs⟩ := Option.isSome_iff_exists.1 (isMatch_literal_iff.2 heq)
  have hfetched : (fillKey (space ++ "_Name_LangKey") r u.text).Fetches settings t _ _ :=
    fetches_fillKey (KeyTable.precedes_refl (t.after _))
  have hasked : (scalarsIn (.literal (space ++ "_Name_LangKey").toList) u.text).map (fun _ => r) = [r] :=
    congrArg (List.map _) (LonePlace.scalarsIn_of_captures h.shape_eq hcs)
  have hagain : ((t.after [r]).request r).1 = (t.request r).1 := (KeyTable.precedes_refl _).request_eq rfl
  rw [hasked, LonePlace.fill_of_eq h.shape_eq heq, hagain] at hfetched
  rw [fillIdentity_of_isNamed h]
  exact (fetches_escaped _).then hfetched

/-- The key of a value waits for its own pass. -/
theorem fetches_fillIdentity_of_field {f : Field} (h : (KeySource.field f).IsNamed o space u.name)
    (t : KeyTable) : (fillIdentity o type space u.text).Fetches settings t [] u.text := by
  have hne : u.name ≠ (space ++ "_Name_LangKey").toList := by
    generalize u.name = name at h
    cases h
    intro heq
    have hname : (space ++ "_Name_LangKey").toList = (space ++ "_").toList ++ "Name_LangKey".toList := by
      rw [← String.toList_append, String.append_assoc]
      rfl
    cases (List.cons.inj (List.append_cancel_left (heq.trans hname))).1
  have hkept : fillKey (space ++ "_Name_LangKey") (nameKey o type) u.text = pure u.text := by
    unfold fillKey
    rw [replaceScalarsM_eq, u.scalarsIn_literal_of_ne hne]
    rfl
  rw [fillIdentity_of_isNamed h]
  refine (fetches_escaped _).then ?_
  rw [hkept]
  exact fetches_pure _

/-- What a pattern of a field's key captures of its name leads to the field. -/
theorem captures_of_field {f : Field} (h : (KeySource.field f).IsNamed o space u.name) :
    ∃ n, (FieldPlaceholder.valueKey space).captures u.name = some [n] ∧ o.field? n = some f := by
  have hfeed : '\n' ∉ u.name := fun hm => by cases u.isBody.chars _ (mem_of_mem_trim hm)
  generalize u.name = name at h hfeed
  cases h with
  | field hf =>
    refine ⟨_, captures_valueKey space fun hm => hfeed ?_, hf⟩
    exact List.mem_append_right _ (List.mem_append_right _ (List.mem_append_left _ hm))

/-- Values and listings are not looked for in a text without braces. -/
theorem fetches_of_unbraced {v : Text} (h : '{' ∉ v) (keyed : List (List Text)) (t : KeyTable) :
    (do
      let named := scalarsIn (FieldPlaceholder.value space) v
      let values ← named.mapM (giveField o fieldValue)
      let v := placeValues (FieldPlaceholder.value space) .fitted values v
      fillListings o type space (reachedFields o (keyed ++ named)) v : RenderProgram Text).Fetches settings t
        [] v := by
  have hlistings := fillListings_of_avoids (avoids_of_unbraced h (space ++ "_").toList) o type
  have hplaced : placeValues (FieldPlaceholder.value space) .fitted [] v = v := rfl
  simp only [scalarsIn_of_unbraced h, List.mapM_nil, pure_bind, hplaced, hlistings]
  exact fetches_pure v

/-- **The program of an object asks for the key that a name stands for**, and for nothing else. -/
theorem fetches_resolveObject (h : s.IsNamed o space u.name) (ht : t.Unbraced) :
    (resolveObject o type space u.text).Fetches settings t [s.request o type]
      (u.filled (t.request (s.request o type)).1.toList) := by
  have hshape := h.shape_eq
  rw [resolveObject_eq, settle_of_no_block (fun c => LonePlace.findBlock_eq_none hshape _) o, pure_bind]
  cases s with
  | name =>
    have hunbraced := u.unbraced_filled (ht.answer (nameKey o type))
    refine (fetches_fillIdentity_of_name h t).bind ?_
    dsimp only
    rw [scalarsIn_of_unbraced hunbraced]
    exact fetches_of_unbraced hunbraced [] _
  | field f =>
    have hunbraced := u.unbraced_filled (ht.answer (fieldKey o type f))
    obtain ⟨n, hcaptures, hf⟩ := captures_of_field h
    have hgiven : giveField o (fun f => .languageKey (fieldKey o type f)) [n] =
        .languageKey (fieldKey o type f) := by
      unfold giveField
      rw [show o.field? (firstCapture [n]) = some f from hf]
    have hkeys : ([[n]].mapM (giveField o fun f => .languageKey (fieldKey o type f))).Fetches settings t
        [fieldKey o type f] [(t.request (fieldKey o type f)).1.toList] := by
      rw [List.mapM_cons, hgiven, List.mapM_nil]
      exact (fetches_languageKey _).bind ((fetches_pure []).then (fetches_pure _))
    refine (fetches_fillIdentity_of_field h t).then ?_
    dsimp only
    rw [LonePlace.scalarsIn_of_captures hshape hcaptures]
    refine hkeys.bind ?_
    rw [LonePlace.placeValues_text hshape hcaptures]
    exact fetches_of_unbraced hunbraced [[n]] _
  -- lines and options have no names here
  | line n text =>
    generalize u.name = name at h
    cases h
  | option n c =>
    generalize u.name = name at h
    cases h

end Objects

/-! ## 5. Renders of objects -/

section Renders

variable {u : LonePlace} {space : String} {kind : ArtifactKind}

/-- A text whose only name is an object's own is foreign to the resolvers of all else. -/
theorem isForeign_of_space (hspace : kind.space? = some space) (hname : (space ++ "_").toList <+: u.name)
    {topic : Topic} (htopic : topic ≠ .fields) : topic.IsForeign u.text := by
  obtain ⟨type, -, rfl⟩ := Option.map_eq_some_iff.1 hspace
  have hapart : ∀ start ∈ topic.namespaces, ¬ start.toList <+: (type.space ++ "_").toList ∧
      ¬ (type.space ++ "_").toList <+: start.toList := by
    cases topic with
    | fields => exact absurd rfl htopic
    | _ => cases type <;> decide
  intro start hstart
  refine u.avoids fun hbegins => ?_
  exact (List.prefix_or_prefix_of_prefix hbegins hname).elim (hapart start hstart).1 (hapart start hstart).2

/-- The fields of an object are resolved last. -/
theorem Engine.applicable_object {ω : Type} (services : Services ω) (n : Nat)
    (hspace : kind.space? = some space) :
    ∃ topics : List Topic, Topic.fields ∉ topics ∧
      (Engine.standard services n).applicable kind = topics.map (·.resolver) ++ [.fields] := by
  rw [Engine.applicable_standard]
  cases kind with
  | npc => exact ⟨[.snippets, .dialog, .dailyRoutine, .inventory, .skills], by decide, rfl⟩
  | item => exact ⟨[.snippets], by decide, rfl⟩
  | skill => exact ⟨[.snippets], by decide, rfl⟩
  | _ => cases hspace

/-- **A render of an object prints the key that a name stands for**, under whatever type. -/
theorem Engine.render_lonePlace (p : Project) (registry : TemplateRegistry) (config : Config) (n : Nat)
    {c : RenderContext} {o : GameObject} {s : KeySource} {t : KeyTable} (hspace : kind.space? = some space)
    (hsubject : c.subject = .object o) (hs : s.IsNamed o space u.name) (ht : KeyTable.empty.Precedes t) :
    let r := s.request o c.objectType
    ∃ diagnostics, (Engine.standard (Services.inMemory p registry config) n).render kind c u.text t false =
      (.ok ⟨u.filled (t.request r).1.toList, diagnostics⟩, (t.request r).2) := by
  intro r
  have hfetched : (Resolver.fields.resolve kind c u.text).Fetches config.escape t [r]
      (u.filled (t.request r).1.toList) := by
    unfold Resolver.fields singleObject
    dsimp only
    rw [hspace, hsubject]
    exact fetches_resolveObject hs ht.unbraced
  obtain ⟨topics, htopics, happlicable⟩ :=
    applicable_object (Services.inMemory p registry config) n hspace
  refine render_of_fetches happlicable (fun r hr => ?_) hfetched
  obtain ⟨topic, htopic, rfl⟩ := List.mem_map.1 hr
  have hne : topic ≠ .fields := fun heq => htopics (heq ▸ htopic)
  exact topic.leavesAlone_resolve (isForeign_of_space hspace hs.space_isPrefix hne) kind c

end Renders

end RecordExport
