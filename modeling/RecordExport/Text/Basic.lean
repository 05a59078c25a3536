/-!
# Text

A template is read, changed and written as a sequence of characters. This file fixes the type and
the few cuts every later module makes:

* `byteSize` measures a text in UTF-8 bytes, the unit of every position shown to an author;
* `afterLeading?` and `beforeTrailing?` take a given beginning or end away;
* `replaceAll` puts a text in the place of another;
* `firstLine` and `lastLine` are the parts of the line a cut runs through.
-/

namespace RecordExport

/-- A text, character by character. -/
abbrev Text := List Char

namespace Text

/-! ## 1. Size -/

/-- Size in bytes of the UTF-8 encoding. -/
def byteSize (t : Text) : Nat := t.foldr (fun c n => c.utf8Size + n) 0

@[simp] theorem byteSize_nil : byteSize [] = 0 := rfl

@[simp] theorem byteSize_cons (c : Char) (t : Text) :
    byteSize (c :: t) = c.utf8Size + byteSize t := rfl

@[simp] theorem byteSize_append (s t : Text) : byteSize (s ++ t) = byteSize s + byteSize t := by
  induction s with
  | nil => simp
  | cons c s ih => simp [ih, Nat.add_assoc]

/-! ## 2. Beginnings and ends -/

/-- What follows `lead` in a text that begins with it. -/
def afterLeading? : (lead t : Text) → Option Text
  | [], t => some t
  | _ :: _, [] => none
  | a :: lead, c :: t => if a = c then afterLeading? lead t else none

theorem afterLeading?_append (lead t : Text) : afterLeading? lead (lead ++ t) = some t := by
  induction lead with
  | nil => rfl
  | cons a lead ih => simp [afterLeading?, ih]

theorem eq_append_of_afterLeading? {lead t r : Text} (h : afterLeading? lead t = some r) :
    t = lead ++ r := by
  fun_induction afterLeading? lead t with
  | case1 => simp_all
  | case2 => simp at h
  | case3 => simp_all
  | case4 => simp at h

/-- The text begins with `lead`. -/
def beginsWith (t lead : Text) : Bool := (afterLeading? lead t).isSome

theorem beginsWith_iff {lead t : Text} : beginsWith t lead = true ↔ lead <+: t := by
  unfold beginsWith
  constructor
  · intro h
    obtain ⟨r, hr⟩ := Option.isSome_iff_exists.1 h
    exact ⟨r, (eq_append_of_afterLeading? hr).symm⟩
  · rintro ⟨r, rfl⟩
    rw [afterLeading?_append]
    rfl

/-- The text ends with `trail`. -/
def endsIn (t trail : Text) : Bool := trail.isSuffixOf t

/-- What stands before `trail` in a text that ends with it. -/
def beforeTrailing? (trail t : Text) : Option Text :=
  if t.endsIn trail then some (t.take (t.length - trail.length)) else none

/-- `part` occurs somewhere in the text. -/
def hasPart (part : Text) : Text → Bool
  | [] => part.isEmpty
  | c :: t => beginsWith (c :: t) part || hasPart part t

theorem hasPart_iff {part t : Text} : hasPart part t = true ↔ part <:+: t := by
  induction t with
  | nil => rw [hasPart, List.isEmpty_iff, List.infix_nil]
  | cons c t ih => rw [hasPart, Bool.or_eq_true, beginsWith_iff, ih, List.infix_cons_iff]

/-- The text with `new` in the place of `old` wherever it occurs, the leftmost first; the next
    `skip` characters belong to an occurrence already replaced. -/
def replaceFrom (old new : Text) : (skip : Nat) → Text → Text
  | _, [] => []
  | skip + 1, _ :: t => replaceFrom old new skip t
  | 0, c :: t =>
    if beginsWith (c :: t) old then new ++ replaceFrom old new (old.length - 1) t
    else c :: replaceFrom old new 0 t

/-- The text with `new` in the place of every `old`, which must not be empty. -/
def replaceAll (old new t : Text) : Text := replaceFrom old new 0 t

/-! ## 3. The line around a cut -/

/-- The text up to its first line feed, without it. -/
def firstLine (t : Text) : Text := t.takeWhile (· ≠ '\n')

/-- The text after its last line feed. -/
def lastLine (t : Text) : Text := (t.reverse.takeWhile (· ≠ '\n')).reverse

end Text
end RecordExport
