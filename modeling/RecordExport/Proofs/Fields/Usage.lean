import RecordExport.Proofs.Template.Pairs
import RecordExport.Proofs.Template.Scalars
import RecordExport.Resolver.Fields
/-!
# Which fields are used

The fields of an object that are read while it is resolved are its USED fields. They are known when its
listings are filled, and all listings go by them, wherever they stand.

* `FieldCondition`: the four conditions on fields, settled one after the other. What one of them drops is
  not in the text any more, so nothing in it is used;
* `run_mapM_useField`: the fields that names lead to are noted, whichever way they are read;
* `fillOnce_eq`: a listing is made at most once, and is the same everywhere;
* `resolveObject_usage`: all of this together, for the whole program of an object.
-/

namespace RecordExport

open RenderProgram

/-! ## 1. Conditions -/

/-- A condition on fields. -/
inductive FieldCondition where
  | has
  | hasNot
  | notEquals
  | equals
  deriving DecidableEq, Repr

namespace FieldCondition

/-- The conditions in the order they are settled in. -/
def all : List FieldCondition := [.has, .hasNot, .notEquals, .equals]

/-- The blocks of a condition. -/
def family (space : String) : FieldCondition → BlockFamily
  | .has => FieldPlaceholder.hasField space
  | .hasNot => FieldPlaceholder.hasNotField space
  | .notEquals => FieldPlaceholder.notEquals space
  | .equals => FieldPlaceholder.equals space

/-- How a condition is decided. -/
def decision (o : GameObject) : FieldCondition → List Text → RenderProgram Bool
  | .has, cs => pure (o.field? (firstCapture cs)).isSome
  | .hasNot, cs => pure (o.field? (firstCapture cs)).isNone
  | .notEquals, cs => compareField o false cs
  | .equals, cs => compareField o true cs

/-- What a marker of a condition captures is as the condition asks for. -/
def holds (o : GameObject) : FieldCondition → List Text → Bool
  | .has, cs => (o.field? (firstCapture cs)).isSome
  | .hasNot, cs => (o.field? (firstCapture cs)).isNone
  | .notEquals, cs =>
    (o.field? (firstCapture cs)).any fun f => !sameValue f.value.toList (secondCapture cs)
  | .equals, cs =>
    (o.field? (firstCapture cs)).any fun f => sameValue f.value.toList (secondCapture cs)

/-- A condition that does not hold is denied; on an unknown field that is reported. -/
theorem denies_decision {o : GameObject} {c : FieldCondition} {cs : List Text}
    (h : c.holds o cs = false) : Denies (c.decision o) cs := by
  have hcompare : ∀ expected,
      (o.field? (firstCapture cs)).any
        (fun f => sameValue f.value.toList (secondCapture cs) == expected) = false →
      Denies (compareField o expected) cs := by
    intro expected h
    unfold Denies compareField
    cases hf : o.field? (firstCapture cs) with
    | none => rfl
    | some f =>
      rw [hf] at h
      have h : (sameValue f.value.toList (secondCapture cs) == expected) = false := h
      simp only [h]
      rfl
  cases c with
  | has => exact congrArg pure h
  | hasNot => exact congrArg pure h
  | notEquals => exact hcompare false (by simpa [holds] using h)
  | equals => exact hcompare true (by simpa [holds] using h)

/-- Settle the conditions of one kind. -/
def settle (o : GameObject) (space : String) (t : Text) (c : FieldCondition) : RenderProgram Text :=
  keepBlocksM (c.family space) t (c.decision o)

/-- **What a condition drops is not in the text any more**, and nothing was asked for it. -/
theorem settle_dropped {o : GameObject} {space : String} (c : FieldCondition) {t t' : Text}
    (h : Exchanged (DroppedContents (c.family space) fun captures => c.holds o captures = false) t t') :
    c.settle o space t = c.settle o space t' := by
  refine keepBlocksM_dropped (fun ⟨hdrop, hdrop', hedges⟩ => ?_) h
  exact ⟨hdrop.mono fun _ => denies_decision, hdrop'.mono fun _ => denies_decision, hedges⟩

end FieldCondition

theorem resolveConditions_eq (o : GameObject) (space : String) (t : Text) :
    resolveConditions o space t = FieldCondition.all.foldlM (FieldCondition.settle o space) t := by
  have hhas : ∀ t, FieldCondition.settle o space t .has = pure (keepBlocks _ t _) :=
    fun t => keepBlocksM_pure _ t _
  have hhasNot : ∀ t, FieldCondition.settle o space t .hasNot = pure (keepBlocks _ t _) :=
    fun t => keepBlocksM_pure _ t _
  unfold FieldCondition.all
  rw [List.foldlM_cons, hhas, pure_bind, List.foldlM_cons, hhasNot, pure_bind, List.foldlM_cons]
  simp only [List.foldlM_cons, List.foldlM_nil, bind_pure]
  rfl

/-! ## 2. Fields that are read -/

/-- What a field gives; a name without a field is reported. -/
def giveField (o : GameObject) (give : Field → RenderProgram Text) (captures : List Text) :
    RenderProgram Text :=
  match o.field? (firstCapture captures) with
  | some f => give f
  | none => missing o.name (firstCapture captures)

/-- The ids of the fields that names lead to. -/
def reachedFields (o : GameObject) (names : List (List Text)) : List String :=
  names.filterMap fun captures => (o.field? (firstCapture captures)).map (·.id)

variable {o : GameObject}

theorem reachedFields_append (names names' : List (List Text)) :
    reachedFields o (names ++ names') = reachedFields o names ++ reachedFields o names' :=
  List.filterMap_append

/-- **A loop of turns that note something** is a loop of turns that do not, behind which all of it is noted. -/
theorem run_mapM_noted {α β : Type} {f : α → StateT (List String) RenderProgram β} {g : α → RenderProgram β}
    {note : α → Option String}
    (h : ∀ a used, (f a).run used = (do let b ← g a; pure (b, (note a).toList ++ used)))
    (as : List α) (used : List String) :
    (as.mapM f).run used = (do let bs ← as.mapM g; pure (bs, (as.filterMap note).reverse ++ used)) := by
  induction as generalizing used with
  | nil => rfl
  | cons a as ih =>
    have hnote : (List.filterMap note (a :: as)).reverse = (as.filterMap note).reverse ++ (note a).toList := by
      rw [List.filterMap_cons]
      cases note a <;> simp
    rw [List.mapM_cons, List.mapM_cons, StateT.run_bind, h, hnote]
    simp only [bind_assoc, pure_bind, StateT.run_bind, StateT.run_pure, ih, List.append_assoc]

theorem run_useField (give : Field → RenderProgram Text) (captures : List Text)
    (used : List String) :
    (useField o give captures).run used =
      (do let v ← giveField o give captures
          pure (v, ((o.field? (firstCapture captures)).map (·.id)).toList ++ used)) := by
  unfold useField giveField
  cases o.field? (firstCapture captures) with
  | some f => rfl
  | none => rfl

/-- **The fields that names lead to are noted**, and beyond that each is only asked for what it gives. -/
theorem run_mapM_useField (give : Field → RenderProgram Text) (names : List (List Text))
    (used : List String) :
    (names.mapM (useField o give)).run used =
      (do let vs ← names.mapM (giveField o give)
          pure (vs, (reachedFields o names).reverse ++ used)) := run_mapM_noted (run_useField give) names used

/-- A field that is used is reached by a scalar placeholder: a marker names its field in vain. -/
theorem exists_scalar_of_reached {p : Pattern} {t : Text} {id : String}
    (h : id ∈ reachedFields o (scalarsIn p t)) :
    ∃ k ∈ tokenize t, k.shape = .scalar ∧ ∃ captures, p.captures k.name = some captures ∧
      ∃ f, o.field? (firstCapture captures) = some f ∧ f.id = id := by
  obtain ⟨captures, hmem, hid⟩ := List.mem_filterMap.1 h
  obtain ⟨k, hk, hshape, hcaptures⟩ := mem_scalarsIn hmem
  obtain ⟨f, hf, rfl⟩ := Option.map_eq_some_iff.1 hid
  exact ⟨k, hk, hshape, captures, hcaptures, f, hf, rfl⟩

/-! ## 3. Texts that are made once -/

/-- Put a text in the place of every placeholder with a name. It is made if there is such a placeholder. -/
def fillAll (name : String) (make : RenderProgram Text) (t : Text) : RenderProgram Text :=
  if scalarsIn (.literal name.toList) t = [] then pure t
  else do
    let made ← make
    pure (fill name .fitted made t)

/-- Make a text, or give the one that was made before. -/
def makeOnce (make : RenderProgram Text) : StateT (Option Text) RenderProgram Text := do
  match ← get with
  | some made => pure made
  | none =>
    let made ← make
    set (some made)
    pure made

theorem run_mapM_makeOnce (make : RenderProgram Text) (names : List (List Text)) (made : Text) :
    (names.mapM fun _ => makeOnce make).run (some made) =
      pure (names.map fun _ => made, some made) := by
  have hone : (makeOnce make).run (some made) = pure (made, some made) := rfl
  induction names with
  | nil => rfl
  | cons captures names ih =>
    rw [List.mapM_cons, StateT.run_bind, hone, pure_bind, StateT.run_bind, ih, pure_bind]
    rfl

/-- **What is made once is the same everywhere.** -/
theorem fillOnce_eq (name : String) (make : RenderProgram Text) (t : Text) :
    fillOnce name make t = fillAll name make t := by
  have hone : (makeOnce make).run none = (do let made ← make; pure (made, some made)) := by
    unfold makeOnce
    simp [StateT.run_bind]
  have hunfold : fillOnce name make t = (do
      let r ← (replaceScalarsM (.literal name.toList) .fitted t fun _ => makeOnce make).run none
      pure r.1) := rfl
  rw [hunfold, replaceScalarsM_eq, StateT.run_bind]
  unfold fillAll
  cases hnames : scalarsIn (.literal name.toList) t with
  | nil => rfl
  | cons captures names =>
    rw [if_neg (List.cons_ne_nil _ _), List.mapM_cons, StateT.run_bind, hone]
    simp only [bind_assoc, pure_bind, StateT.run_bind, run_mapM_makeOnce, StateT.run_pure]
    refine bind_congr fun made => ?_
    unfold fill
    rw [replaceScalars_eq, hnames]
    rfl

/-! ## 4. Objects -/

/-- Fill the id of an object, its name and the key of its name. -/
def fillIdentity (o : GameObject) (type : ObjectType) (space : String) (t : Text) :
    RenderProgram Text := do
  let name ← escaped o.name.toList
  fillKey (space ++ "_Name_LangKey") (nameKey o type)
    (fill (space ++ "_Name") .inline name (fill (space ++ "_Id") .inline o.id.toList t))

/-- The values of an object's fields, read in two passes over the text: the fields that either leads to
    are noted. -/
theorem run_resolveValues (o : GameObject) (type : ObjectType) (space : String) (t : Text) :
    (resolveValues o type space t).run [] = (do
      let t ← fillIdentity o type space t
      let keyed := scalarsIn (FieldPlaceholder.valueKey space) t
      let keys ← keyed.mapM (giveField o fun f => .languageKey (fieldKey o type f))
      let t := placeValues (FieldPlaceholder.valueKey space) .inline keys t
      let named := scalarsIn (FieldPlaceholder.value space) t
      let values ← named.mapM (giveField o fieldValue)
      pure (placeValues (FieldPlaceholder.value space) .fitted values t,
        (reachedFields o (keyed ++ named)).reverse)) := by
  unfold resolveValues fillIdentity
  simp only [StateT.run_bind, bind_assoc, pure_bind, replaceScalarsM_eq, StateT.run_monadLift,
    StateT.run_pure, run_mapM_useField, monadLift_self, reachedFields_append, List.reverse_append,
    List.append_nil]

/-- The listing of some fields of an object. -/
def listing (name : String) (o : GameObject) (type : ObjectType) (fs : List Field) :
    RenderProgram Text :=
  .artifact .fieldList ((RenderContext.of (.object o) type).withFields fs) name

/-- Fill the listings of an object, given which fields were used. -/
def fillListings (o : GameObject) (type : ObjectType) (space : String) (used : List String) (t : Text) :
    RenderProgram Text := do
  let t := gate (space ++ "_HasUnusedFields") (decide (∃ f ∈ o.fields, f.id ∉ used)) t
  let unused := o.fields.filter fun f => decide (f.id ∉ used)
  let t ← fillAll (space ++ "_UnusedFields") (listing (space ++ "_UnusedFields") o type unused) t
  fillAll (space ++ "_AllFields") (listing (space ++ "_AllFields") o type o.fields) t

theorem resolveListings_eq (o : GameObject) (type : ObjectType) (space : String) (used : List String)
    (t : Text) : resolveListings o type space used.reverse t = fillListings o type space used t := by
  have hunused : unusedFields used.reverse o.fields =
      o.fields.filter fun f => decide (f.id ∉ used) := by
    refine List.filter_congr fun f _ => ?_
    simp
  have hempty : (!(unusedFields used.reverse o.fields).isEmpty) =
      decide (∃ f ∈ o.fields, f.id ∉ used) := by
    rw [hunused, Bool.eq_iff_iff, Bool.not_eq_true', List.isEmpty_eq_false_iff_exists_mem,
      decide_eq_true_iff]
    simp only [List.mem_filter, decide_eq_true_iff]
  unfold resolveListings fillListings fillListing
  dsimp only
  rw [hempty, hunused]
  simp only [fillOnce_eq]
  rfl

/-- The program of an object, without the set it keeps while it reads. -/
theorem resolveObject_eq (o : GameObject) (type : ObjectType) (space : String) (t : Text) :
    resolveObject o type space t = (do
      let t ← FieldCondition.all.foldlM (FieldCondition.settle o space) t
      let t ← fillIdentity o type space t
      let keyed := scalarsIn (FieldPlaceholder.valueKey space) t
      let keys ← keyed.mapM (giveField o fun f => .languageKey (fieldKey o type f))
      let t := placeValues (FieldPlaceholder.valueKey space) .inline keys t
      let named := scalarsIn (FieldPlaceholder.value space) t
      let values ← named.mapM (giveField o fieldValue)
      let t := placeValues (FieldPlaceholder.value space) .fitted values t
      fillListings o type space (reachedFields o (keyed ++ named)) t) := by
  unfold resolveObject
  rw [resolveConditions_eq]
  simp only [run_resolveValues, bind_assoc, pure_bind, resolveListings_eq]

/-- **Used and unused fields are told apart by one set.** It is of the fields that the placeholders of
    values and of values' keys lead to, in the texts in which each of the two kinds is looked for; blocks
    for unused fields and both listings are settled by it, all over the text. A field is not used by what a
    condition drops, nor by any marker. -/
theorem resolveObject_usage (o : GameObject) (type : ObjectType) (space : String) :
    (∀ t, resolveObject o type space t = do
      let t ← FieldCondition.all.foldlM (FieldCondition.settle o space) t
      let t ← fillIdentity o type space t
      let keyed := scalarsIn (FieldPlaceholder.valueKey space) t
      let keys ← keyed.mapM (giveField o fun f => .languageKey (fieldKey o type f))
      let t := placeValues (FieldPlaceholder.valueKey space) .inline keys t
      let named := scalarsIn (FieldPlaceholder.value space) t
      let values ← named.mapM (giveField o fieldValue)
      let t := placeValues (FieldPlaceholder.value space) .fitted values t
      fillListings o type space (reachedFields o (keyed ++ named)) t) ∧
    (∀ (c : FieldCondition) (t t' : Text),
      Exchanged (DroppedContents (c.family space) fun captures => c.holds o captures = false) t t' →
        c.settle o space t = c.settle o space t') ∧
    ∀ p t, ∀ id ∈ reachedFields o (scalarsIn p t), ∃ k ∈ tokenize t, k.shape = .scalar ∧
      ∃ captures, p.captures k.name = some captures ∧
        ∃ f, o.field? (firstCapture captures) = some f ∧ f.id = id :=
  ⟨resolveObject_eq o type space, fun c _ _ h => c.settle_dropped h,
    fun _ _ _ h => exists_scalar_of_reached h⟩

end RecordExport
