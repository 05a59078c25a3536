import Mathlib.Data.List.Basic
import Mathlib.Data.List.TakeWhile
import RecordExport.Template.Token
/-!
# The tokens of texts put together

Where a placeholder stands in a text its tokens are those before it, the placeholder, and those behind
it. Nothing that stands before can reach into it, because a body has no braces.

* `tokenize_append_braced`: a text is cut at any of its placeholders;
* `isBody_of_mem_tokenize`: the placeholders of a text have bodies as they are written;
* `glue`: tokens put behind tokens, where a literal behind a literal makes one with it.
-/

namespace RecordExport

/-! ## 1. Bodies -/

/-- What can stand between the delimiters of a placeholder. -/
structure IsBody (b : Text) : Prop where
  ne_nil : b ≠ []
  chars : ∀ c ∈ b, isBodyChar c = true

instance (b : Text) : Decidable (IsBody b) :=
  decidable_of_iff (b ≠ [] ∧ b.all isBodyChar = true)
    ⟨fun ⟨hne, hall⟩ => ⟨hne, List.all_eq_true.1 hall⟩,
      fun ⟨hne, hchars⟩ => ⟨hne, List.all_eq_true.2 hchars⟩⟩

theorem isBody_of_cutPlaceholder? {t b rest : Text} (h : cutPlaceholder? t = some (b, rest)) :
    IsBody b := ⟨(eq_of_cutPlaceholder? h).2.1, (eq_of_cutPlaceholder? h).2.2⟩

/-! ## 2. Cutting at a placeholder -/

theorem cutPlaceholder?_braces (t : Text) :
    cutPlaceholder? ('{' :: '{' :: t) =
      match t.takeWhile isBodyChar, t.dropWhile isBodyChar with
      | c :: body, '}' :: '}' :: rest => some (c :: body, rest)
      | _, _ => none := rfl

theorem cutPlaceholder?_of_ne {t : Text} (h : ∀ z, t ≠ '{' :: '{' :: z) : cutPlaceholder? t = none := by
  unfold cutPlaceholder?
  split
  · exact absurd rfl (h _)
  · rfl

theorem cutPlaceholder?_braced {b : Text} (hb : IsBody b) (t : Text) :
    cutPlaceholder? (braced b ++ t) = some (b, t) := by
  obtain ⟨c, b', rfl⟩ := List.exists_cons_of_ne_nil hb.ne_nil
  have htext : braced (c :: b') ++ t = '{' :: '{' :: ((c :: b') ++ '}' :: '}' :: t) := by
    simp [braced]
  have hstop : ('}' :: '}' :: t).takeWhile isBodyChar = [] := rfl
  have hrest : ('}' :: '}' :: t).dropWhile isBodyChar = '}' :: '}' :: t := rfl
  rw [htext, cutPlaceholder?_braces, List.takeWhile_append_of_pos hb.chars,
    List.dropWhile_append_of_pos hb.chars, hstop, hrest, List.append_nil]
  rfl

/-- A placeholder that begins further on does not help the text before it to one. -/
theorem cutPlaceholder?_append_braces {a : Text} (ha : a ≠ []) (z : Text) :
    cutPlaceholder? (a ++ '{' :: '{' :: z) =
      (cutPlaceholder? a).map fun r => (r.1, r.2 ++ '{' :: '{' :: z) := by
  match a, ha with
  | [x], _ =>
    have hnone : cutPlaceholder? [x] = none := cutPlaceholder?_of_ne fun z hz => by simp at hz
    rw [hnone]
    by_cases hx : x = '{'
    · rw [hx]
      rfl
    · exact cutPlaceholder?_of_ne fun _ hz => hx (List.cons.inj hz).1
  | x :: y :: a, _ =>
    by_cases hxy : x = '{' ∧ y = '{'
    · obtain ⟨rfl, rfl⟩ := hxy
      rw [List.cons_append, List.cons_append, cutPlaceholder?_braces, cutPlaceholder?_braces]
      cases hd : a.dropWhile isBodyChar with
      | nil =>
        have hrest : ('{' :: '{' :: z).dropWhile isBodyChar = '{' :: '{' :: z := rfl
        rw [List.dropWhile_append_of_pos (List.dropWhile_eq_nil_iff.1 hd), hrest]
        split
        · rename_i h
          cases h
        · split
          · rename_i h
            cases h
          · rfl
      | cons d ds =>
        have ht : (a ++ '{' :: '{' :: z).takeWhile isBodyChar = a.takeWhile isBodyChar := by
          refine List.takeWhile_append.trans (if_neg fun hlength => ?_)
          have hall := (List.takeWhile_prefix isBodyChar).eq_of_length hlength
          rw [List.dropWhile_eq_nil_iff.2 (List.takeWhile_eq_self_iff.1 hall)] at hd
          cases hd
        have hr : (a ++ '{' :: '{' :: z).dropWhile isBodyChar = d :: ds ++ '{' :: '{' :: z := by
          rw [List.dropWhile_append, hd]
          rfl
        rw [ht, hr]
        cases a.takeWhile isBodyChar with
        | nil => rfl
        | cons c body =>
          by_cases hdb : d = '}'
          · subst hdb
            cases ds with
            | nil => rfl
            | cons d ds =>
              by_cases hdb : d = '}'
              · subst hdb
                rfl
              · simp [hdb]
          · simp [hdb]
    · have hne : ∀ (w w' : Text), x :: y :: w ≠ '{' :: '{' :: w' := by
        intro w w' h
        obtain ⟨hx, h⟩ := List.cons.inj h
        exact hxy ⟨hx, (List.cons.inj h).1⟩
      rw [List.cons_append, List.cons_append, cutPlaceholder?_of_ne (hne _),
        cutPlaceholder?_of_ne (hne _)]
      rfl

theorem tokenize_of_cut {t b rest : Text} (h : cutPlaceholder? t = some (b, rest)) :
    tokenize t = .placeholder b :: tokenize rest := by
  cases t with
  | nil => cases h
  | cons c t =>
    rw [tokenize]
    split
    · rename_i b' rest' h'
      rw [h] at h'
      cases h'
      rfl
    · rename_i h'
      rw [h] at h'
      cases h'

theorem tokenize_of_not_cut {c : Char} {t : Text} (h : cutPlaceholder? (c :: t) = none) :
    tokenize (c :: t) = joinLiteral c (tokenize t) := by
  rw [tokenize]
  split
  · rename_i h'
    rw [h] at h'
    cases h'
  · rfl

theorem tokenize_braced {b : Text} (hb : IsBody b) (t : Text) :
    tokenize (braced b ++ t) = .placeholder b :: tokenize t :=
  tokenize_of_cut (cutPlaceholder?_braced hb t)

/-- A literal character is joined to what follows it, whatever comes after a placeholder. -/
theorem joinLiteral_append (c : Char) (ts : List Token) (b : Text) (us : List Token) :
    joinLiteral c (ts ++ .placeholder b :: us) = joinLiteral c ts ++ .placeholder b :: us := by
  cases ts with
  | nil => rfl
  | cons t ts => cases t <;> rfl

/-- **A text is cut at a placeholder.** -/
theorem tokenize_append_braced (a : Text) {b : Text} (hb : IsBody b) (t : Text) :
    tokenize (a ++ (braced b ++ t)) = tokenize a ++ .placeholder b :: tokenize t := by
  have hbraces : braced b ++ t = '{' :: '{' :: (b ++ ['}', '}'] ++ t) := rfl
  fun_induction tokenize a with
  | case1 => exact tokenize_braced hb t
  | case2 c a body rest h ih =>
    have hcut := cutPlaceholder?_append_braces (List.cons_ne_nil c a) (b ++ ['}', '}'] ++ t)
    rw [h, ← hbraces] at hcut
    rw [tokenize_of_cut hcut, ih]
    rfl
  | case3 c a h ih =>
    have hcut := cutPlaceholder?_append_braces (List.cons_ne_nil c a) (b ++ ['}', '}'] ++ t)
    rw [h, ← hbraces] at hcut
    have hcons := tokenize_of_not_cut (c := c) (t := a ++ (braced b ++ t)) hcut
    rw [List.cons_append, hcons, ih, joinLiteral_append]

theorem isBody_of_mem_tokenize {t b : Text} (h : Token.placeholder b ∈ tokenize t) : IsBody b := by
  have hjoin : ∀ c ts, Token.placeholder b ∈ joinLiteral c ts → Token.placeholder b ∈ ts := by
    intro c ts hm
    unfold joinLiteral at hm
    split at hm <;> simp_all
  fun_induction tokenize t with
  | case1 => cases h
  | case2 c t body rest hcut ih =>
    rcases List.mem_cons.1 h with heq | h
    · cases heq
      exact isBody_of_cutPlaceholder? hcut
    · exact ih h
  | case3 c t hcut ih => exact ih (hjoin c _ h)

/-! ## 3. Tokens put together -/

/-- A token before others: a literal before a literal makes one with it. -/
def fuse : Token → List Token → List Token
  | .literal l, .literal m :: ts => .literal (l ++ m) :: ts
  | k, ts => k :: ts

/-- Tokens put behind tokens, the last of the ones before the first of the others. -/
def glue (ks ts : List Token) : List Token :=
  match ks.getLast? with
  | some k => ks.dropLast ++ fuse k ts
  | none => ts

theorem joinLiteral_eq_fuse (c : Char) (ts : List Token) : joinLiteral c ts = fuse (.literal [c]) ts := by
  cases ts with
  | nil => rfl
  | cons t ts => cases t <;> rfl

theorem glue_concat (ks : List Token) (k : Token) (ts : List Token) :
    glue (ks ++ [k]) ts = ks ++ fuse k ts := by
  unfold glue
  rw [List.getLast?_concat, List.dropLast_concat]

theorem glue_nil (ks : List Token) : glue ks [] = ks := by
  rcases List.eq_nil_or_concat' ks with rfl | ⟨ks, k, rfl⟩
  · rfl
  · rw [glue_concat]
    cases k <;> rfl

theorem fuse_fuse (j k : Token) (ts : List Token) : glue (fuse j [k]) ts = fuse j (fuse k ts) := by
  cases j with
  | placeholder b => rfl
  | literal l =>
    cases k with
    | placeholder b => rfl
    | literal m =>
      cases ts with
      | nil => rfl
      | cons t ts =>
        cases t with
        | placeholder b => rfl
        | literal n =>
          show Token.literal (l ++ m ++ n) :: ts = .literal (l ++ (m ++ n)) :: ts
          rw [List.append_assoc]

theorem append_glue (ks : List Token) {js : List Token} (h : js ≠ []) (ts : List Token) :
    glue (ks ++ js) ts = ks ++ glue js ts := by
  obtain ⟨js, j, rfl⟩ := (List.eq_nil_or_concat' js).resolve_left h
  rw [← List.append_assoc, glue_concat, glue_concat, List.append_assoc]

theorem fuse_ne_nil (k : Token) (ts : List Token) : fuse k ts ≠ [] := by
  unfold fuse
  split <;> exact List.cons_ne_nil _ _

/-- It does not matter which tokens are put together first. -/
theorem glue_assoc (ks : List Token) (k : Token) (ts : List Token) :
    glue (glue ks [k]) ts = glue ks (fuse k ts) := by
  rcases List.eq_nil_or_concat' ks with rfl | ⟨ks, j, rfl⟩
  · rfl
  · rw [glue_concat, glue_concat, append_glue ks (fuse_ne_nil j [k]), fuse_fuse]

/-- A token before tokens put together is before the first of them. -/
theorem fuse_glue (k : Token) (ks ts : List Token) : fuse k (glue ks ts) = glue (fuse k ks) ts := by
  cases ks with
  | nil => cases k <;> rfl
  | cons j ks =>
    cases ks with
    | nil => exact (fuse_fuse k j ts).symm
    | cons i ks =>
      have hrest : glue (j :: i :: ks) ts = j :: glue (i :: ks) ts :=
        append_glue [j] (List.cons_ne_nil i ks) ts
      have hfuse : ∀ us, fuse k (j :: us) = fuse k [j] ++ us := by
        intro us
        cases k with
        | placeholder b => rfl
        | literal l => cases j <;> rfl
      rw [hrest, hfuse, hfuse (i :: ks), append_glue _ (List.cons_ne_nil i ks)]

end RecordExport
