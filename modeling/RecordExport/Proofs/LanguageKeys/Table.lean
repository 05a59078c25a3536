import Mathlib
import RecordExport.Memo
import RecordExport.Service.LanguageKeys
/-!
# Language keys are stable and tell texts apart

A `KeyTable` is read through two views: `keyOf` gives the key of an identity, `textOf` the text of a
key. Each says what a request does to it (`keyOf_request`, `textOf_request`); nothing after that opens
the table.

* `freeKey_eq_candidate`: the search for a free key finds the first candidate that is free, and there
  always is one;
* `Consistent` ties the two views together and every request keeps it (`consistent_request`);
* `Answers` says what any run of requests leaves: keys never change, and a key's text is that of the
  latest request for it (`answers_answered`).
-/

namespace RecordExport

namespace KeyTable

/-! ## 1. Two views of a table -/

/-- The key issued for an identity. -/
def keyOf (t : KeyTable) (identity : String × Option String) : Option String :=
  t.issued.lookup identity

/-- The text a key stands for. -/
def textOf (t : KeyTable) (key : String) : Option String := t.values.lookup key

theorem isTaken_eq_isSome_textOf (t : KeyTable) (key : String) :
    t.isTaken key = (t.textOf key).isSome := rfl

theorem lookup_cons_of_ne {κ ν : Type} [BEq κ] [LawfulBEq κ] {e : κ × ν} {l : List (κ × ν)} {k : κ}
    (h : k ≠ e.1) : (e :: l).lookup k = l.lookup k := by
  rw [List.lookup_cons, beq_eq_false_iff_ne.2 h]

theorem textOf_setValue (t : KeyTable) (key value k : String) :
    (t.setValue key value).textOf k = if k = key then some value else t.textOf k := by
  unfold setValue textOf
  rw [List.lookup_append, lookup_filter_ne, List.lookup_singleton]
  by_cases hk : k = key <;> simp [hk]

@[simp] theorem keyOf_setValue (t : KeyTable) (key value : String) (i : String × Option String) :
    (t.setValue key value).keyOf i = t.keyOf i := rfl

theorem mem_values_of_textOf {t : KeyTable} {k v : String} (h : t.textOf k = some v) :
    (k, v) ∈ t.values := by
  obtain ⟨a, b, hl, -⟩ := List.lookup_eq_some_iff.1 h
  rw [hl]
  simp

/-! ## 2. A free key -/

theorem candidate_injective (base : String) : Function.Injective (candidate base) := by
  have hlong : ∀ n, base ≠ base ++ "_" ++ toString (n + 2) := by
    intro n he
    have hl := congrArg String.length he
    rw [String.length_append, String.length_append] at hl
    have : "_".length = 1 := rfl
    omega
  intro m n h
  cases m with
  | zero =>
    cases n with
    | zero => rfl
    | succ n => exact absurd h (hlong n)
  | succ m =>
    cases n with
    | zero => exact absurd h.symm (hlong m)
    | succ n =>
      have hd : toString (m + 2) = toString (n + 2) := (String.append_right_inj _).1 h
      have := Nat.repr_injective hd
      omega

/-- Among the candidates up to the number of keys one is free. -/
theorem exists_free (t : KeyTable) (base : String) :
    ∃ n ≤ t.values.length, t.isTaken (candidate base n) = false := by
  by_contra hno
  push Not at hno
  have hsub : (List.range (t.values.length + 1)).map (candidate base) ⊆ t.values.map (·.1) := by
    intro k hk
    obtain ⟨n, hn, rfl⟩ := List.mem_map.1 hk
    have ht := hno n (Nat.le_of_lt_succ (List.mem_range.1 hn))
    rw [isTaken_eq_isSome_textOf] at ht
    obtain ⟨v, hv⟩ := Option.isSome_iff_exists.1 (Bool.eq_true_of_not_eq_false ht)
    exact List.mem_map.2 ⟨_, mem_values_of_textOf hv, rfl⟩
  have hnodup : ((List.range (t.values.length + 1)).map (candidate base)).Nodup :=
    List.nodup_range.map (candidate_injective base)
  have hle := (hnodup.subperm hsub).length_le
  simp at hle

/-- **The search ends with the first candidate that is free.** -/
theorem freeKey_eq_candidate (t : KeyTable) (base : String) :
    ∃ n, t.freeKey base = candidate base n ∧ t.isTaken (candidate base n) = false ∧
      ∀ m < n, t.isTaken (candidate base m) = true := by
  obtain ⟨n, hn, hfree⟩ := t.exists_free base
  unfold freeKey
  cases hf : ((List.range (t.values.length + 1)).map (candidate base)).find? (!t.isTaken ·) with
  | none =>
    have hall := List.find?_eq_none.1 hf (candidate base n)
      (List.mem_map_of_mem (List.mem_range.2 (Nat.lt_succ_of_le hn)))
    rw [hfree] at hall
    exact absurd rfl hall
  | some k =>
    obtain ⟨hk, i, hi, rfl, hbefore⟩ := List.find?_eq_some_iff_getElem.1 hf
    rw [List.getElem_map, List.getElem_range] at hk ⊢
    refine ⟨i, rfl, by simpa using hk, fun m hm => ?_⟩
    have := hbefore m hm
    rw [List.getElem_map, List.getElem_range] at this
    simpa using this

theorem textOf_freeKey (t : KeyTable) (base : String) : t.textOf (t.freeKey base) = none := by
  obtain ⟨n, hn, hfree, -⟩ := t.freeKey_eq_candidate base
  rw [hn]
  simpa [isTaken_eq_isSome_textOf] using hfree

/-! ## 3. One request -/

theorem request_of_keyOf_eq_some {t : KeyTable} {r : KeyRequest} {k : String}
    (h : t.keyOf r.identity = some k) : t.request r = (k, t.setValue k r.value) := by
  unfold request
  split
  · rename_i k' hk
    obtain rfl : k' = k := Option.some.inj (hk.symm.trans h)
    rfl
  · rename_i hk
    rw [keyOf, hk] at h
    cases h

theorem request_of_keyOf_eq_none {t : KeyTable} {r : KeyRequest} (h : t.keyOf r.identity = none) :
    t.request r = (t.freeKey r.baseKey,
      { t with issued := (r.identity, t.freeKey r.baseKey) :: t.issued }.setValue
        (t.freeKey r.baseKey) r.value) := by
  unfold request
  split
  · rename_i k hk
    rw [keyOf, hk] at h
    cases h
  · rfl

/-- **A request gives its identity the key it answers**, and no other identity another key. -/
theorem keyOf_request (t : KeyTable) (r : KeyRequest) (i : String × Option String) :
    (t.request r).2.keyOf i = if i = r.identity then some (t.request r).1 else t.keyOf i := by
  cases h : t.keyOf r.identity with
  | some k =>
    rw [request_of_keyOf_eq_some h]
    by_cases hi : i = r.identity <;> simp [hi, h]
  | none =>
    rw [request_of_keyOf_eq_none h]
    rw [keyOf_setValue]
    unfold keyOf
    by_cases hi : i = r.identity
    · rw [if_pos hi, hi, List.lookup_cons_self]
    · rw [if_neg hi, lookup_cons_of_ne hi]

/-- **A request gives the key it answers the request's text**, and no other key another text. -/
theorem textOf_request (t : KeyTable) (r : KeyRequest) (k : String) :
    (t.request r).2.textOf k = if k = (t.request r).1 then some r.value else t.textOf k := by
  cases h : t.keyOf r.identity with
  | some k' =>
    rw [request_of_keyOf_eq_some h]
    exact textOf_setValue t k' r.value k
  | none =>
    rw [request_of_keyOf_eq_none h]
    exact textOf_setValue _ _ r.value k

/-- A key in the table before the request is answered to its own identity only. -/
theorem keyOf_eq_some_of_answered {t : KeyTable} {r : KeyRequest}
    (h : (t.textOf (t.request r).1).isSome) : t.keyOf r.identity = some (t.request r).1 := by
  cases hk : t.keyOf r.identity with
  | some k => rw [request_of_keyOf_eq_some hk]
  | none =>
    rw [request_of_keyOf_eq_none hk, textOf_freeKey] at h
    cases h

/-! ## 4. The invariant -/

/-- **The two views fit together**: different identities have different keys, and the keys with a
    text are those that were issued. -/
structure Consistent (t : KeyTable) : Prop where
  keysOnce : (t.values.map (·.1)).Nodup
  injective : ∀ {i j : String × Option String} {k : String},
    t.keyOf i = some k → t.keyOf j = some k → i = j
  issued_iff : ∀ k, (t.textOf k).isSome ↔ ∃ i, t.keyOf i = some k

theorem consistent_empty : empty.Consistent where
  keysOnce := List.nodup_nil
  injective h _ := by cases h
  issued_iff k := by simp [empty, textOf, keyOf]

theorem nodup_keys_setValue {t : KeyTable} (h : (t.values.map (·.1)).Nodup) (key value : String) :
    ((t.setValue key value).values.map (·.1)).Nodup := by
  unfold setValue
  rw [List.map_append, List.nodup_append]
  refine ⟨(List.filter_sublist.map _).nodup h, by simp, ?_⟩
  intro k hk k' hk'
  obtain ⟨e, he, rfl⟩ := List.mem_map.1 hk
  obtain rfl : k' = key := by simpa using hk'
  simpa using (List.mem_filter.1 he).2

/-- A key once issued stays with its identity. -/
theorem keyOf_request_of_keyOf {t : KeyTable} {i : String × Option String} {k : String}
    (hi : t.keyOf i = some k) (r : KeyRequest) : (t.request r).2.keyOf i = some k := by
  rw [keyOf_request]
  split
  · rename_i hir
    subst hir
    rw [request_of_keyOf_eq_some hi]
  · exact hi

/-- After a request two identities have the same key only if they are the same. -/
theorem Consistent.injective_request {t : KeyTable} (h : t.Consistent) (r : KeyRequest)
    {i j : String × Option String} {k : String} (hi : (t.request r).2.keyOf i = some k)
    (hj : (t.request r).2.keyOf j = some k) : i = j := by
  -- a key the table already has can only be answered to the identity it was issued for
  have hold : ∀ {i}, t.keyOf i = some (t.request r).1 → i = r.identity := by
    intro i hi
    exact h.injective hi (keyOf_eq_some_of_answered ((h.issued_iff _).2 ⟨i, hi⟩))
  rw [keyOf_request] at hi hj
  split at hi
  · rename_i hir
    obtain rfl := Option.some.inj hi
    split at hj
    · rename_i hjr
      rw [hir, hjr]
    · rw [hir, hold hj]
  · split at hj
    · rename_i hjr
      obtain rfl := Option.some.inj hj
      rw [hjr, hold hi]
    · exact h.injective hi hj

/-- After a request the keys with a text are those that were issued. -/
theorem Consistent.issued_iff_request {t : KeyTable} (h : t.Consistent) (r : KeyRequest)
    (k : String) :
    ((t.request r).2.textOf k).isSome ↔ ∃ i, (t.request r).2.keyOf i = some k := by
  rw [textOf_request]
  constructor
  · intro hk
    split at hk
    · rename_i he
      exact ⟨r.identity, by rw [keyOf_request, if_pos rfl, he]⟩
    · obtain ⟨i, hi⟩ := (h.issued_iff k).1 hk
      exact ⟨i, keyOf_request_of_keyOf hi r⟩
  · rintro ⟨i, hi⟩
    rw [keyOf_request] at hi
    split at hi
    · obtain rfl := Option.some.inj hi
      rw [if_pos rfl]
      rfl
    · split
      · rfl
      · exact (h.issued_iff k).2 ⟨i, hi⟩

/-- **Every request keeps the invariant.** -/
theorem consistent_request {t : KeyTable} (h : t.Consistent) (r : KeyRequest) :
    (t.request r).2.Consistent where
  keysOnce := by
    cases hk : t.keyOf r.identity with
    | some k =>
      rw [request_of_keyOf_eq_some hk]
      exact nodup_keys_setValue h.keysOnce k r.value
    | none =>
      rw [request_of_keyOf_eq_none hk]
      exact nodup_keys_setValue h.keysOnce _ r.value
  injective := h.injective_request r
  issued_iff := h.issued_iff_request r

/-! ## 5. Runs of requests -/

/-- The requests answered one after the other, each with its key, and the table afterwards. -/
def answered (t : KeyTable) (rs : List KeyRequest) : List (KeyRequest × String) × KeyTable :=
  rs.foldl (fun a r => (a.1 ++ [(r, (a.2.request r).1)], (a.2.request r).2)) ([], t)

theorem answered_concat (t : KeyTable) (rs : List KeyRequest) (r : KeyRequest) :
    t.answered (rs ++ [r]) =
      ((t.answered rs).1 ++ [(r, ((t.answered rs).2.request r).1)],
        ((t.answered rs).2.request r).2) := by
  unfold answered
  rw [List.foldl_append]
  rfl

/-- The text of the latest request for an identity. -/
def latestText (calls : List (KeyRequest × String)) (identity : String × Option String) :
    Option String :=
  (calls.reverse.find? (·.1.identity = identity)).map (·.1.value)

theorem latestText_concat (calls : List (KeyRequest × String)) (r : KeyRequest) (k : String)
    (i : String × Option String) :
    latestText (calls ++ [(r, k)]) i =
      if i = r.identity then some r.value else latestText calls i := by
  unfold latestText
  rw [List.reverse_append, List.reverse_singleton, List.singleton_append, List.find?_cons]
  by_cases hi : i = r.identity
  · simp [hi]
  · simp [hi, Ne.symm hi]

theorem exists_latest {calls : List (KeyRequest × String)} {c : KeyRequest × String}
    (hc : c ∈ calls) : ∃ c' ∈ calls, c'.1.identity = c.1.identity ∧
      latestText calls c.1.identity = some c'.1.value := by
  unfold latestText
  cases hf : calls.reverse.find? (·.1.identity = c.1.identity) with
  | none =>
    have hno := List.find?_eq_none.1 hf c (List.mem_reverse.2 hc)
    exact absurd (decide_eq_true rfl) hno
  | some c' =>
    have hid := List.find?_some hf
    exact ⟨c', List.mem_reverse.1 (List.mem_of_find?_eq_some hf), by simpa using hid, rfl⟩

/-- **What requests leave behind**, from a table `t₀` to a table `t`. -/
structure Answers (t₀ : KeyTable) (calls : List (KeyRequest × String)) (t : KeyTable) : Prop where
  consistent : t.Consistent
  /-- the identity of a request has the key that was answered -/
  stable : ∀ c ∈ calls, t.keyOf c.1.identity = some c.2
  keeps : ∀ i k, t₀.keyOf i = some k → t.keyOf i = some k
  /-- no identity has a key that was not requested -/
  known : ∀ i k, t.keyOf i = some k → t₀.keyOf i = some k ∨ ∃ c ∈ calls, c.1.identity = i
  texts : ∀ i k, t.keyOf i = some k → t.textOf k = (latestText calls i).or (t₀.textOf k)

theorem answers_nil {t₀ : KeyTable} (h : t₀.Consistent) : Answers t₀ [] t₀ where
  consistent := h
  stable _ hc := absurd hc List.not_mem_nil
  keeps _ _ hi := hi
  known _ _ hi := .inl hi
  texts _ _ _ := rfl

theorem answers_concat {t₀ t : KeyTable} {calls : List (KeyRequest × String)}
    (h : Answers t₀ calls t) (r : KeyRequest) :
    Answers t₀ (calls ++ [(r, (t.request r).1)]) (t.request r).2 where
  consistent := consistent_request h.consistent r
  stable := by
    intro c hc
    rcases List.mem_append.1 hc with hc | hc
    · exact keyOf_request_of_keyOf (h.stable c hc) r
    · obtain rfl := List.mem_singleton.1 hc
      rw [keyOf_request, if_pos rfl]
  keeps i k hi := keyOf_request_of_keyOf (h.keeps i k hi) r
  known := by
    intro i k hi
    rw [keyOf_request] at hi
    split at hi
    · rename_i hir
      exact .inr ⟨_, List.mem_append_right _ (List.mem_singleton_self _), hir.symm⟩
    · rcases h.known i k hi with hi | ⟨c, hc, hci⟩
      · exact .inl hi
      · exact .inr ⟨c, List.mem_append_left _ hc, hci⟩
  texts := by
    intro i k hi
    have hc := consistent_request h.consistent r
    rw [latestText_concat, textOf_request]
    by_cases hir : i = r.identity
    · subst hir
      rw [keyOf_request, if_pos rfl] at hi
      rw [if_pos (Option.some.inj hi).symm, if_pos rfl]
      rfl
    · -- another identity has another key, so its text is left alone
      have hk : k ≠ (t.request r).1 := by
        rintro rfl
        exact hir (hc.injective hi (by rw [keyOf_request, if_pos rfl]))
      rw [keyOf_request, if_neg hir] at hi
      rw [if_neg hir, if_neg hk]
      exact h.texts i k hi

/-- **Any run of requests leaves this behind.** -/
theorem answers_answered {t : KeyTable} (h : t.Consistent) (rs : List KeyRequest) :
    Answers t (t.answered rs).1 (t.answered rs).2 := by
  induction rs using List.reverseRecOn with
  | nil => exact answers_nil h
  | append_singleton rs r ih =>
    rw [answered_concat]
    exact answers_concat ih r

theorem Answers.key_eq_iff {t₀ t : KeyTable} {calls : List (KeyRequest × String)}
    (h : Answers t₀ calls t) {c c' : KeyRequest × String} (hc : c ∈ calls) (hc' : c' ∈ calls) :
    c.2 = c'.2 ↔ c.1.identity = c'.1.identity := by
  have hk := h.stable c hc
  have hk' := h.stable c' hc'
  constructor
  · intro he
    rw [he] at hk
    exact h.consistent.injective hk hk'
  · intro he
    rw [he] at hk
    exact Option.some.inj (hk.symm.trans hk')

/-- A key that was answered stands for the text of the latest request for its identity. -/
theorem Answers.textOf_eq {t₀ t : KeyTable} {calls : List (KeyRequest × String)}
    (h : Answers t₀ calls t) {c : KeyRequest × String} (hc : c ∈ calls) :
    t.textOf c.2 = latestText calls c.1.identity := by
  obtain ⟨c', -, -, hl⟩ := exists_latest hc
  rw [h.texts _ _ (h.stable c hc), hl, Option.some_or]

theorem map_fst_answered (t : KeyTable) (rs : List KeyRequest) :
    (t.answered rs).1.map (·.1) = rs := by
  induction rs using List.reverseRecOn with
  | nil => rfl
  | append_singleton rs r ih => rw [answered_concat, List.map_append, ih, List.map_singleton]

/-! ## 6. The listing -/

theorem mem_keys {t : KeyTable} (h : t.Consistent) {k v : String} :
    ⟨k, v⟩ ∈ t.keys ↔ t.textOf k = some v := by
  have hm : ⟨k, v⟩ ∈ t.keys ↔ (k, v) ∈ t.values := by
    unfold keys
    rw [List.mem_map]
    constructor
    · rintro ⟨⟨k', v'⟩, he, heq⟩
      obtain ⟨rfl, rfl⟩ := LanguageKey.mk.inj heq
      exact List.mem_mergeSort.1 he
    · intro he
      exact ⟨(k, v), List.mem_mergeSort.2 he, rfl⟩
  rw [hm]
  constructor
  · intro he
    obtain ⟨a, b, hl⟩ := List.append_of_mem he
    have hn := h.keysOnce
    rw [hl, List.map_append, List.map_cons] at hn
    rw [textOf, List.lookup_eq_some_iff]
    refine ⟨a, b, hl, fun e hea => ?_⟩
    have hne : e.1 ≠ k := by
      rintro rfl
      exact (List.nodup_append.1 hn).2.2 _ (List.mem_map_of_mem hea) _ List.mem_cons_self rfl
    simpa using hne.symm
  · exact mem_values_of_textOf

/-- **The listing is in strictly ascending order**, so no key is listed twice. -/
theorem sorted_keys {t : KeyTable} (h : t.Consistent) :
    (t.keys.map (·.key)).Pairwise (· < ·) := by
  have hle : (t.keys.map (·.key)).Pairwise (· ≤ ·) := by
    unfold keys
    rw [List.map_map, List.pairwise_map]
    have hs : (t.values.mergeSort fun a b => a.1 ≤ b.1).Pairwise
        fun a b => decide (a.1 ≤ b.1) = true :=
      List.pairwise_mergeSort
        (fun a b c hab hbc => by simpa using le_trans (by simpa using hab) (by simpa using hbc))
        (fun a b => by simpa using le_total a.1 b.1) t.values
    exact hs.imp fun hab => by simpa using hab
  have hne : (t.keys.map (·.key)).Nodup := by
    unfold keys
    rw [List.map_map]
    exact (((List.mergeSort_perm _ _).map _).nodup_iff).2 h.keysOnce
  exact (hle.and hne).imp fun hab => lt_of_le_of_ne hab.1 hab.2

/-! ## 7. From an empty table -/

/-- **Keys are stable and tell texts apart**: requests get the same key exactly if they have the same
    identity. The listing has every key that was answered, once and in ascending order, with the
    text of the latest request for its identity; and a search for a free key ends with the first
    candidate that is free. -/
structure Faithful (rs : List KeyRequest) (calls : List (KeyRequest × String)) (t : KeyTable) :
    Prop where
  allAnswered : calls.map (·.1) = rs
  key_eq_iff : ∀ c ∈ calls, ∀ c' ∈ calls, c.2 = c'.2 ↔ c.1.identity = c'.1.identity
  ascending : (t.keys.map (·.key)).Pairwise (· < ·)
  listed_iff : ∀ k v, ⟨k, v⟩ ∈ t.keys ↔
    ∃ c ∈ calls, c.2 = k ∧ latestText calls c.1.identity = some v
  searchEnds : ∀ base, ∃ n, t.freeKey base = candidate base n ∧
    t.isTaken (candidate base n) = false ∧ ∀ m < n, t.isTaken (candidate base m) = true

theorem faithful_answered (rs : List KeyRequest) :
    Faithful rs (empty.answered rs).1 (empty.answered rs).2 := by
  have h := answers_answered consistent_empty rs
  have htext : ∀ {i k}, (empty.answered rs).2.keyOf i = some k →
      (empty.answered rs).2.textOf k = latestText (empty.answered rs).1 i := by
    intro i k hi
    rw [h.texts i k hi]
    exact Option.or_none
  constructor
  case allAnswered => exact map_fst_answered empty rs
  case key_eq_iff => exact fun c hc c' hc' => h.key_eq_iff hc hc'
  case ascending => exact sorted_keys h.consistent
  case listed_iff =>
    intro k v
    rw [mem_keys h.consistent]
    constructor
    · intro hk
      obtain ⟨i, hi⟩ := (h.consistent.issued_iff k).1 (by rw [hk]; rfl)
      rcases h.known i k hi with hno | ⟨c, hc, rfl⟩
      · cases hno
      · have hck : c.2 = k := Option.some.inj ((h.stable c hc).symm.trans hi)
        exact ⟨c, hc, hck, by rw [← htext hi, hk]⟩
    · rintro ⟨c, hc, rfl, hv⟩
      rw [htext (h.stable c hc), hv]
  case searchEnds => exact freeKey_eq_candidate _

-- a name that is there already, and a field whose name looks like a numbered key
example :
    ((empty.answered
      [.forName "a" "Bob" .npc, (KeyRequest.forName "b" "Bob" .npc).withField "f" "Name 2" "x",
        .forName "c" "Bob" .npc]).1.map (·.2))
      = ["Npc_Bob_Name", "Npc_Bob_Name_2", "Npc_Bob_Name_3"] := by decide

end KeyTable
end RecordExport
