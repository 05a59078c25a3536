import RecordExport.Template.Block
import RecordExport.Text.Letter
/-!
# Checking a template

A template can be checked without rendering it. Three things are reported:

* a start marker that no end marker closes, and an end marker that closes none. Markers pair within
  their class: the first of the given families that claims the marker, or, if none does, the markers
  with the same stem. In each class an end marker closes the latest start marker still open;
* two opening braces in literal text that read as a placeholder cut short: a name begins behind them
  on the same line, and the line holds no closing braces. Nested tables of a target language look
  alike, but no name follows their braces.

The issues are listed by their position in the text.
-/

namespace RecordExport

/-! ## 1. Issues -/

/-- Something wrong with a template, and where. -/
inductive Issue where
  | unmatchedStart (name : Text) (span : Span)
  | unmatchedEnd (name : Text) (span : Span)
  | unterminated (span : Span)
  deriving DecidableEq, Repr

namespace Issue

/-- Where the issue stands. -/
def span : Issue → Span
  | .unmatchedStart _ s | .unmatchedEnd _ s | .unterminated s => s

/-- The issue in words. -/
def message : Issue → String
  | .unmatchedStart n _ => "block start '" ++ String.ofList n ++ "' has no matching end"
  | .unmatchedEnd n _ => "block end '" ++ String.ofList n ++ "' has no matching start"
  | .unterminated _ => "placeholder opened but never closed on the same line"

end Issue

/-! ## 2. Pairing -/

/-- A token in its text. -/
abbrev Located := Token × Span

/-- Pair the markers of one class: the start markers still open, the latest first, and the issues of
    end markers that close nothing. -/
def pairMarkers (isStart isEnd : Token → Bool) : (open_ : List Located) → List Located → List Issue
  | open_, [] => open_.reverse.map fun t => .unmatchedStart t.1.name t.2
  | open_, t :: ts =>
    if isStart t.1 then pairMarkers isStart isEnd (t :: open_) ts
    else if isEnd t.1 then
      match open_ with
      | [] => .unmatchedEnd t.1.name t.2 :: pairMarkers isStart isEnd [] ts
      | _ :: open_ => pairMarkers isStart isEnd open_ ts
    else pairMarkers isStart isEnd open_ ts

/-- The family claims the token, as a start or as an end. -/
def BlockFamily.claims (f : BlockFamily) (t : Token) : Bool := f.isOpening t || f.isClosing t

/-- The issues of the declared families, and the tokens that none of them claims. Each family gets
    what the families before it left. -/
def pairFamilies : List BlockFamily → List Located → List Issue × List Located
  | [], ts => ([], ts)
  | f :: fs, ts =>
    let others := pairFamilies fs (ts.filter fun t => !f.claims t.1)
    (pairMarkers f.isOpening f.isClosing [] ts ++ others.1, others.2)

/-- The stems of the block markers among tokens, each once. -/
def stems (ts : List Located) : List Text :=
  ((ts.filter fun t => t.1.shape = .blockStart || t.1.shape = .blockEnd).map (·.1.stem)).eraseDups

/-- The issues of markers that pair by their stem. -/
def pairStems (ts : List Located) : List Issue :=
  (stems ts).flatMap fun s =>
    pairMarkers (fun t => t.shape = .blockStart && t.stem = s)
      (fun t => t.shape = .blockEnd && t.stem = s) [] ts

/-! ## 3. Placeholders cut short -/

/-- The text up to the first line end of either kind. -/
def untilLineEnd (t : Text) : Text := t.takeWhile fun c => c ≠ '\r' && c ≠ '\n'

/-- The text behind two opening braces reads as a placeholder cut short. -/
def opensPlaceholder (rest : Text) : Bool :=
  let line := untilLineEnd rest
  let named := match Text.trimStart line with
    | c :: _ => isLetter c || c = '_'
    | [] => false
  named && !Text.hasPart ['}', '}'] line

/-- The issues of a literal that begins at `pos`. Two braces are looked at together and then left
    behind. -/
def literalIssues : (pos : Nat) → Text → List Issue
  | pos, '{' :: '{' :: t =>
    let others := literalIssues (pos + 2) t
    if opensPlaceholder t then .unterminated ⟨pos, pos + 2⟩ :: others else others
  | pos, c :: t => literalIssues (pos + c.utf8Size) t
  | _, [] => []

/-- The issues of the literal tokens. -/
def literalTokenIssues (ts : List Located) : List Issue :=
  ts.flatMap fun t => match t.1 with
    | .literal l => literalIssues t.2.start l
    | .placeholder _ => []

/-! ## 4. The report -/

/-- Issues by position. -/
def byPosition (issues : List Issue) : List Issue :=
  issues.mergeSort fun a b => a.span.start ≤ b.span.start

/-- The issues of a template, given the families of markers that share an end marker. -/
def validate (families : List BlockFamily) (t : Text) : List Issue :=
  let ts := locate t
  let claimed := pairFamilies families ts
  byPosition (claimed.1 ++ pairStems claimed.2 ++ literalTokenIssues ts)

/-- What is said of a template. -/
structure ValidationReport where
  valid : Bool
  issues : List Issue
  deriving DecidableEq, Repr

/-- Check a template: it is valid if it has no issues. -/
def validationReport (families : List BlockFamily) (t : Text) : ValidationReport :=
  let issues := validate families t
  ⟨issues.isEmpty, issues⟩

end RecordExport
