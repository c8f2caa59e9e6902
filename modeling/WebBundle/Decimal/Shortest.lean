/-!
The shortest decimal that reads back as a given binary fraction. A finite double is m · 2^q; the reals
that round to it form an interval, closed if and only if m is even. Of the decimals with the fewest
digits in that interval the nearest is taken.
-/

namespace WebBundle.Decimal

/-- A positive number 0.d₁d₂… · 10^(exponent + 1), that is d₁.d₂… · 10^exponent. -/
structure Digits where
  digits : List Nat
  exponent : Int
  deriving DecidableEq, Repr

/-- A positive finite double as m · 2^q, with the distance to its lower neighbour halved if `m` is the
least of its binade. -/
structure Binary where
  mantissa : Nat
  power : Int
  lowerIsCloser : Bool
  deriving DecidableEq, Repr

/-- The magnitude of the finite double with the given bits. -/
def Binary.ofBits (bits : UInt64) : Binary :=
  let n := bits.toNat
  let fraction : Nat := n % Nat.pow 2 52
  let exponent : Nat := n / Nat.pow 2 52 % Nat.pow 2 11
  if exponent = 0 then ⟨fraction, -1074, false⟩
  else ⟨Nat.pow 2 52 + fraction, (exponent : Int) - 1075, fraction == 0 && exponent > 1⟩

/-- The value as a fraction of natural numbers. -/
def Binary.fraction (b : Binary) : Nat × Nat :=
  if 0 ≤ b.power then (b.mantissa * Nat.pow 2 b.power.toNat, 1)
  else (b.mantissa, Nat.pow 2 (-b.power).toNat)

/-- Whether the decimal `d · 10^e` rounds to the double. Both sides are compared in quarters of the last
binary place. -/
def Binary.admits (b : Binary) (d : Nat) (e : Int) : Bool :=
  let scale := if 0 ≤ e then 4 * d * Nat.pow 10 e.toNat else 4 * d
  let unit := if 0 ≤ e then 1 else Nat.pow 10 (-e).toNat
  let value := if 0 ≤ b.power then scale else scale * Nat.pow 2 (-b.power).toNat
  let place := if 0 ≤ b.power then unit * Nat.pow 2 b.power.toNat else unit
  let low := (4 * b.mantissa - if b.lowerIsCloser then 1 else 2) * place
  let high := (4 * b.mantissa + 2) * place
  if b.mantissa % 2 = 0 then low ≤ value && value ≤ high else low < value && value < high

/-- The decimal digits of a number, the last one first. -/
def digitsReversed : (fuel n : Nat) → List Nat
  | 0, _ => []
  | fuel + 1, n => if n < 10 then [n] else n % 10 :: digitsReversed fuel (n / 10)

def digitsOf (n : Nat) : List Nat := (digitsReversed (n + 1) n).reverse

/-- The first number of decimal digits, from some number on, in which a number can be written. -/
def digitCountFrom (n : Nat) : (fuel count : Nat) → Nat
  | 0, count => count
  | fuel + 1, count => if n < Nat.pow 10 count then count else digitCountFrom n fuel (count + 1)

/-- The number of decimal digits. A number has at least as many as three tenths of its binary digits. -/
def digitCount (n : Nat) : Nat := digitCountFrom n (n.log2 + 1) (max 1 (n.log2 * 30102 / 100000))

/-- The exponent of the leading decimal digit. -/
def leadingExponent (b : Binary) : Int :=
  let (num, den) := b.fraction
  (digitCount (num * Nat.pow 10 400 / den) : Int) - 401

/-- The nearest admissible decimal among the two neighbours of the value on the grid of `count` digits. -/
def nearestOn (b : Binary) (leading : Int) (count : Nat) : Option (Nat × Int) :=
  let (num, den) := b.fraction
  let e : Int := leading - (count : Int) + 1
  let num' := if 0 ≤ e then num else num * Nat.pow 10 (-e).toNat
  let den' := if 0 ≤ e then den * Nat.pow 10 e.toNat else den
  let below := num' / den'
  let above := below + 1
  let belowFits := below > 0 && b.admits below e
  let aboveFits := b.admits above e
  -- twice the distance from the lower neighbour, compared with one step of the grid
  let twice := 2 * (num' % den')
  if belowFits && aboveFits then
    some (if twice < den' || (twice = den' && below % 2 = 0) then below else above, e)
  else if belowFits then some (below, e)
  else if aboveFits then some (above, e)
  else none

/-- Tries ever finer grids. -/
def shortestFrom (b : Binary) (leading : Int) : (count fuel : Nat) → Nat × Int
  | count, 0 => (nearestOn b leading count).getD (0, 0)
  | count, fuel + 1 =>
    match nearestOn b leading count with
    | some find => find
    | none => shortestFrom b leading (count + 1) fuel

/-- Removes zeros at the end, which change nothing but the count of digits. -/
def dropZeros (d : Digits) : Digits :=
  ⟨(d.digits.reverse.dropWhile (· == 0)).reverse, d.exponent⟩

/-- The shortest digits that read back as the double with the given bits, zero excepted. -/
def shortest (bits : UInt64) : Digits :=
  let b := Binary.ofBits bits
  let find := shortestFrom b (leadingExponent b) 1 17
  let digits := digitsOf find.1
  dropZeros ⟨digits, find.2 + (digits.length : Int) - 1⟩

/-- The character of a decimal digit. -/
def digitChar (n : Nat) : Char := Char.ofNat (48 + n)

/-- Which exponents are written positionally. -/
structure Format where
  lowest : Int
  highest : Int

/-- Digits in positional notation, with at least one digit on each side of the point. -/
def positional (d : Digits) : List Char :=
  let chars := d.digits.map digitChar
  if d.exponent < 0 then
    '0' :: '.' :: (List.replicate (-d.exponent - 1).toNat '0' ++ chars)
  else
    let whole := d.exponent.toNat + 1
    if chars.length ≤ whole then
      chars ++ List.replicate (whole - chars.length) '0' ++ ['.', '0']
    else chars.take whole ++ '.' :: chars.drop whole

/-- Digits in scientific notation, the exponent with its sign. -/
def scientific (d : Digits) : List Char :=
  let head := match d.digits.map digitChar with
    | [] => []
    | [c] => [c]
    | c :: rest => c :: '.' :: rest
  let sign := if d.exponent < 0 then '-' else '+'
  head ++ 'e' :: sign :: (digitsOf d.exponent.natAbs).map digitChar

/-- The text of a finite double. -/
def Format.text (f : Format) (bits : UInt64) : List Char :=
  let sign := if bits.toNat < Nat.pow 2 63 then [] else ['-']
  if bits.toNat % Nat.pow 2 63 = 0 then sign ++ ['0', '.', '0']
  else
    let d := shortest bits
    sign ++ if f.lowest ≤ d.exponent && d.exponent ≤ f.highest then positional d else scientific d

end WebBundle.Decimal
