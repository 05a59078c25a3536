import RecordExport.Text.Blank
/-!
# Tokens of a template

A template is target-language text with placeholders written in double braces. Cutting it into
tokens separates the two and never looks inside the literal parts:

* a placeholder is two opening braces, one or more characters other than braces and line ends, and
  two closing braces; every such occurrence is a token, and nothing else is a placeholder;
* all other text is literal, and a literal is as long as it can be;
* the tokens of a text, written one after the other, are that text (`source_tokenize`).

A placeholder's name is its body without white space at the ends. Its last part tells its shape:
`_Start` opens a block, `_End` closes one, anything else stands for a value.
-/

namespace RecordExport

/-! ## 1. The form of a placeholder -/

/-- A character that may stand between the delimiters of a placeholder. -/
def isBodyChar (c : Char) : Bool := c ≠ '{' && c ≠ '}' && c ≠ '\r' && c ≠ '\n'

/-- The body of the placeholder a text begins with, and the text after it. -/
def cutPlaceholder? : Text → Option (Text × Text)
  | '{' :: '{' :: t =>
    match t.takeWhile isBodyChar, t.dropWhile isBodyChar with
    | c :: body, '}' :: '}' :: rest => some (c :: body, rest)
    | _, _ => none
  | _ => none

/-- A placeholder with this body, as it is written. -/
def braced (body : Text) : Text := '{' :: '{' :: (body ++ ['}', '}'])

/-- What is cut off is a placeholder as it is written, with a body of body characters. -/
theorem eq_of_cutPlaceholder? {t body rest : Text} (h : cutPlaceholder? t = some (body, rest)) :
    t = braced body ++ rest ∧ body ≠ [] ∧ ∀ c ∈ body, isBodyChar c := by
  unfold cutPlaceholder? at h
  split at h
  · rename_i s
    split at h
    · rename_i c b r hb hr
      simp only [Option.some.injEq, Prod.mk.injEq] at h
      obtain ⟨rfl, rfl⟩ := h
      refine ⟨?_, by simp, ?_⟩
      · have := List.takeWhile_append_dropWhile (p := isBodyChar) (l := s)
        rw [hb, hr] at this
        simp [braced, ← this]
      · intro x hx
        have h2 : x ∈ s.takeWhile isBodyChar := by rw [hb]; exact hx
        exact List.all_eq_true.1 List.all_takeWhile x h2
    · simp at h
  · simp at h

/-- The text after a placeholder is shorter than the text it was cut off. -/
theorem length_lt_of_cutPlaceholder? {t body rest : Text}
    (h : cutPlaceholder? t = some (body, rest)) : rest.length < t.length := by
  have := (eq_of_cutPlaceholder? h).1
  subst this
  simp [braced]
  omega

/-! ## 2. Tokens -/

/-- One piece of a template. -/
inductive Token where
  /-- target-language text -/
  | literal (text : Text)
  /-- a placeholder, by what stands between its delimiters -/
  | placeholder (body : Text)
  deriving DecidableEq, Repr

/-- What a token is for. -/
inductive TokenShape where
  | literal
  | scalar
  | blockStart
  | blockEnd
  deriving DecidableEq, Repr

/-- The last part of a name that opens a block. -/
def startTrail : Text := "_Start".toList

/-- The last part of a name that closes a block. -/
def endTrail : Text := "_End".toList

namespace Token

/-- The token as it is written. -/
def source : Token → Text
  | .literal t => t
  | .placeholder b => braced b

/-- The name of a placeholder; a literal has none. -/
def name : Token → Text
  | .literal _ => []
  | .placeholder b => Text.trim b

/-- The shape a placeholder's name gives it. -/
def shapeOfName (n : Text) : TokenShape :=
  if n.endsIn startTrail then .blockStart
  else if n.endsIn endTrail then .blockEnd
  else .scalar

/-- What a token is for. -/
def shape : Token → TokenShape
  | .literal _ => .literal
  | .placeholder b => shapeOfName (Text.trim b)

/-- The name without the part that opens or closes a block. -/
def stem (t : Token) : Text :=
  match t.shape with
  | .blockStart => (Text.beforeTrailing? startTrail t.name).getD t.name
  | .blockEnd => (Text.beforeTrailing? endTrail t.name).getD t.name
  | _ => t.name

/-- The token is a placeholder of any shape. -/
def isPlaceholder : Token → Bool
  | .literal _ => false
  | .placeholder _ => true

/-- Size of the token as it is written, in bytes. -/
def byteSize (t : Token) : Nat := Text.byteSize t.source

end Token

/-! ## 3. Cutting a text into tokens -/

/-- A character of literal text, joined to the literal that follows it if one does. -/
def joinLiteral (c : Char) : List Token → List Token
  | .literal t :: ts => .literal (c :: t) :: ts
  | ts => .literal [c] :: ts

/-- The tokens of a text. -/
def tokenize : Text → List Token
  | [] => []
  | c :: t =>
    match _h : cutPlaceholder? (c :: t) with
    | some (body, rest) => .placeholder body :: tokenize rest
    | none => joinLiteral c (tokenize t)
  termination_by t => t.length
  decreasing_by
    · exact length_lt_of_cutPlaceholder? _h
    · simp

/-- The text a list of tokens writes. -/
def sourceOf (ts : List Token) : Text := ts.flatMap Token.source

@[simp] theorem sourceOf_nil : sourceOf [] = [] := rfl

@[simp] theorem sourceOf_cons (t : Token) (ts : List Token) :
    sourceOf (t :: ts) = t.source ++ sourceOf ts := rfl

@[simp] theorem sourceOf_append (ts us : List Token) :
    sourceOf (ts ++ us) = sourceOf ts ++ sourceOf us := by
  simp [sourceOf]

theorem source_joinLiteral (c : Char) (ts : List Token) :
    sourceOf (joinLiteral c ts) = c :: sourceOf ts := by
  unfold joinLiteral
  split <;> simp [Token.source]

/-- **The tokens of a text, written one after the other, are that text.** -/
theorem source_tokenize (t : Text) : sourceOf (tokenize t) = t := by
  fun_induction tokenize t with
  | case1 => rfl
  | case2 c t body rest h ih =>
    rw [sourceOf_cons, ih, (eq_of_cutPlaceholder? h).1]
    rfl
  | case3 c t h ih => rw [source_joinLiteral, ih]

/-! ## 4. Positions -/

/-- A range of bytes of a text. -/
structure Span where
  start : Nat
  stop : Nat
  deriving DecidableEq, Repr

/-- The tokens with the bytes each covers, the first beginning at `pos`. -/
def spansFrom (pos : Nat) : List Token → List (Token × Span)
  | [] => []
  | t :: ts => (t, ⟨pos, pos + t.byteSize⟩) :: spansFrom (pos + t.byteSize) ts

/-- The tokens of a text with the bytes each covers. -/
def locate (t : Text) : List (Token × Span) := spansFrom 0 (tokenize t)

theorem spansFrom_fst (pos : Nat) (ts : List Token) : (spansFrom pos ts).map (·.1) = ts := by
  induction ts generalizing pos with
  | nil => rfl
  | cons t ts ih => simp [spansFrom, ih]

end RecordExport
