import WebBundle.Json.Value
import WebBundle.Text.Cursor

/-!
JSON numbers. Integers of at most 64 bits are kept; any other number becomes a double by one rounding of
its leading digits and one multiplication or division by a power of ten, so it is not always the nearest
double.
-/

namespace WebBundle.Json

open WebBundle.Text

/-- A number as read so far: leading digits that fit into 64 bits, and a power of ten. -/
structure Scaled where
  significand : Nat
  exponent : Int
  deriving DecidableEq, Repr

def isDigit (c : Char) : Bool := '0' ≤ c && c ≤ '9'

def digitValue (c : Char) : Nat := c.toNat - 48

/-- Whether one more digit still fits into 64 bits. -/
def fits (significand : Nat) (digit : Nat) : Bool := significand * 10 + digit < Nat.pow 2 64

/-- Reads the digits before the point. Digits that no longer fit raise the exponent only. -/
def readWhole (digits : List Char) : Scaled × Bool :=
  digits.foldl
    (fun (s, long) c =>
      if !long && fits s.significand (digitValue c) then
        (⟨s.significand * 10 + digitValue c, 0⟩, false)
      else (⟨s.significand, s.exponent + 1⟩, true))
    (⟨0, 0⟩, false)

/-- Reads the digits behind the point. From the first that does not fit on they are dropped. -/
def readFraction (start : Scaled) (digits : List Char) : Scaled :=
  (digits.foldl
    (fun (s, full) c =>
      if !full && fits s.significand (digitValue c) then
        (⟨s.significand * 10 + digitValue c, s.exponent - 1⟩, false)
      else (s, true))
    (start, false)).1

def powerOfTen (n : Nat) : Float := Float.ofScientific 1 false n

/-- Scales by a power of ten, in steps of 308 as long as a negative power is out of range. Nothing is
returned for a result beyond the doubles. -/
def scale : (fuel : Nat) → Float → Int → Option Float
  | 0, _, _ => none
  | fuel + 1, f, exponent =>
    if exponent.natAbs ≤ 308 then
      if 0 ≤ exponent then
        let product := f * powerOfTen exponent.natAbs
        if product.isInf then none else some product
      else some (f / powerOfTen exponent.natAbs)
    else if f == 0.0 then some f
    else if 0 ≤ exponent then none
    else scale fuel (f / powerOfTen 308) (exponent + 308)

/-- The double of a scaled number. The third division by 10^308 can only divide zero. -/
def Scaled.toFloat? (s : Scaled) : Option Float :=
  scale 4 s.significand.toUInt64.toFloat s.exponent

/-- The double as a value, negated on demand. -/
def ofFloat (negative : Bool) (f : Float) : Json :=
  .float (if negative then (-f).toBits else f.toBits)

/-- The largest exponent that is read as a number of its own. -/
def exponentLimit : Nat := Nat.pow 2 31 - 1

/-- The value of a number whose exponent part is present. -/
def withExponent (negative : Bool) (s : Scaled) (down : Bool) (digits : List Char) : Option Json :=
  let e := digits.foldl (fun e c => min (exponentLimit + 1) (e * 10 + digitValue c)) 0
  if exponentLimit < e then
    if s.significand ≠ 0 && !down then none else some (ofFloat negative 0.0)
  else
    let exponent : Int := if down then s.exponent - e else s.exponent + e
    (Scaled.toFloat? ⟨s.significand, exponent⟩).map (ofFloat negative)

/-- The value of a number without point and exponent. -/
def wholeNumber (negative : Bool) (s : Scaled) (long : Bool) : Option Json :=
  if long then s.toFloat?.map (ofFloat negative)
  else if !negative then some (.integer s.significand)
  else if s.significand ≠ 0 && s.significand ≤ Nat.pow 2 63 then some (.integer (-(s.significand : Int)))
  else some (ofFloat true s.significand.toUInt64.toFloat)

/-- The exponent part: its sign and digits, and the place behind it. Nothing is returned for a mark
without digits. -/
def exponentPart (c : Cursor) : Option ((Bool × List Char) × Cursor) := do
  let c ← c.one fun x => x == 'e' || x == 'E'
  let down := c.rest.head? == some '-'
  let c := c.optional fun x => x == '-' || x == '+'
  let behind ← c.some1 isDigit
  return ((down, c.run isDigit), behind)

/-- The number at a place, without a value if it is beyond the doubles. -/
def number (c : Cursor) : Option (Option Json × Cursor) := do
  let negative := c.rest.head? == some '-'
  let c := c.optional (· == '-')
  let digits := c.run isDigit
  let behind ← c.some1 isDigit
  if digits.head? = some '0' && digits.length > 1 then none
  else
    let (whole, long) := readWhole digits
    let (scaled, point, behind) ←
      match behind.one (· == '.') with
      | none => some (whole, false, behind)
      | some c => (c.some1 isDigit).map fun done => (readFraction whole (c.run isDigit), true, done)
    match behind.one fun x => x == 'e' || x == 'E' with
    | some _ =>
      let ((down, digits), done) ← exponentPart behind
      return (withExponent negative scaled down digits, done)
    | none =>
      let value :=
        if point then scaled.toFloat?.map (ofFloat negative) else wholeNumber negative whole long
      return (value, behind)

end WebBundle.Json
