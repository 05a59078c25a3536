import RecordExport.Text.Blank
/-!
# Decimal numbers as double-precision numbers

Two field values are the same number when both round to the same finite double-precision number.
The number nearest to a decimal is found in exact arithmetic: scale the fraction so that its whole
part has 53 bits, or fewer at the lower end of the range, and round the quotient, a half going to
the even neighbour.
-/

namespace RecordExport

/-- A decimal number without sign: digits read as one number, and the power of ten they count. -/
structure Decimal where
  digits : Nat
  scale : Int
  deriving DecidableEq, Repr

/-- A double-precision number without sign: `mantissa * 2 ^ exponent`. -/
structure Binary where
  mantissa : Nat
  exponent : Int
  deriving DecidableEq, Repr

/-! ## 1. Rounding -/

/-- A quotient rounded to the nearest whole number, a half to the even one. -/
def roundQuotient (num den : Nat) : Nat :=
  let whole := num / den
  let rest := 2 * (num % den)
  if rest < den then whole
  else if den < rest then whole + 1
  else whole + whole % 2

/-- The exponent of the power of two a fraction lies at or above, both parts being positive. -/
def floorLog (num den : Nat) : Int :=
  let guess : Int := num.log2 - den.log2
  let below :=
    if guess ≥ 0 then decide (num < den * Nat.pow 2 guess.toNat)
    else decide (num * Nat.pow 2 (-guess).toNat < den)
  if below then guess - 1 else guess

/-- The double-precision number nearest to a fraction, unless that is beyond the finite ones. -/
def nearestTo (num den : Nat) : Option Binary :=
  if num = 0 then some ⟨0, -1074⟩
  else
    let exponent := max (floorLog num den - 52) (-1074)
    let mantissa :=
      if exponent ≥ 0 then roundQuotient num (den * Nat.pow 2 exponent.toNat)
      else roundQuotient (num * Nat.pow 2 (-exponent).toNat) den
    let full := mantissa = Nat.pow 2 53
    let exponent := if full then exponent + 1 else exponent
    let mantissa := if full then Nat.pow 2 52 else mantissa
    if exponent > 971 then none else some ⟨mantissa, exponent⟩

/-- The double-precision number nearest to a decimal, unless that is beyond the finite ones. -/
def Decimal.nearest? (d : Decimal) : Option Binary :=
  let size : Int := (Nat.toDigits 10 d.digits).length + d.scale
  if d.digits = 0 ∨ size < -330 then some ⟨0, -1074⟩
  else if size > 310 then none
  else if d.scale ≥ 0 then nearestTo (d.digits * Nat.pow 10 d.scale.toNat) 1
  else nearestTo d.digits (Nat.pow 10 (-d.scale).toNat)

/-- The decimal rounds to a finite double-precision number. -/
def Decimal.isFinite (d : Decimal) : Bool := d.nearest?.isSome

/-- The double-precision number nearest to a product, unless that is beyond the finite ones. -/
def Binary.times? (a b : Binary) : Option Binary :=
  let exponent := a.exponent + b.exponent
  if exponent ≥ 0 then nearestTo (a.mantissa * b.mantissa * Nat.pow 2 exponent.toNat) 1
  else nearestTo (a.mantissa * b.mantissa) (Nat.pow 2 (-exponent).toNat)

/-- The decimal with only those leading digits that make a 64-bit number; each of the others counts
    as a power of ten. -/
def Decimal.toWord (d : Decimal) : Decimal :=
  let size := (Nat.toDigits 10 d.digits).length
  let dropped :=
    if d.digits < Nat.pow 2 64 then 0
    else if d.digits / Nat.pow 10 (size - 20) < Nat.pow 2 64 then size - 20
    else size - 19
  ⟨d.digits / Nat.pow 10 dropped, d.scale + dropped⟩

/-! ## 2. Reading -/

/-- The number a run of decimal digits writes. -/
def digitsValue (ds : Text) : Nat := ds.foldl (fun n d => n * 10 + (d.toNat - 48)) 0

/-- A sign, if one stands in front, and the text behind it. -/
def cutSign : Text → Bool × Text
  | '-' :: t => (true, t)
  | '+' :: t => (false, t)
  | t => (false, t)

/-- The exponent that makes up the rest of a number; no text is the exponent zero. -/
def exponent? : Text → Option Int
  | [] => some 0
  | c :: t =>
    if c = 'e' ∨ c = 'E' then
      match cutSign t with
      | (negative, d :: ds) =>
        if (d :: ds).all Char.isDigit then
          some (if negative then -(digitsValue (d :: ds) : Int) else digitsValue (d :: ds))
        else none
      | (_, []) => none
    else none

/-- A text as a decimal: whether it is negative, and its magnitude. There must be a digit before or
    behind the point; an exponent may follow. -/
def decimal? (t : Text) : Option (Bool × Decimal) := do
  let (negative, t) := cutSign t
  let whole := t.takeWhile Char.isDigit
  let rest := t.dropWhile Char.isDigit
  let (behind, rest) := match rest with
    | '.' :: r => (r.takeWhile Char.isDigit, r.dropWhile Char.isDigit)
    | r => ([], r)
  if whole.isEmpty && behind.isEmpty then none
  else
    let e ← exponent? rest
    some (negative, ⟨digitsValue (whole ++ behind), e - behind.length⟩)

/-- The finite double-precision number a text stands for, with its sign; zero has none. -/
def finiteNumber? (t : Text) : Option (Bool × Binary) := do
  let (negative, d) ← decimal? t
  let b ← d.nearest?
  some (negative && b.mantissa ≠ 0, b)

/-! ## 3. Comparing values -/

/-- Two values are equal: as texts without white space at the ends, or as finite numbers. -/
def sameValue (a b : Text) : Bool :=
  let a := Text.trim a
  let b := Text.trim b
  if a = b then true
  else
    match finiteNumber? a, finiteNumber? b with
    | some x, some y => x = y
    | _, _ => false

end RecordExport
