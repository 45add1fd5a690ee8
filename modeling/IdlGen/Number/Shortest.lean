import IdlGen.Number.Binary64

/-!
The fewest decimal digits that read back as a number. For one digit, two digits and
so on, the two decimals around the number are tested against the interval that
rounds to it; the first count with a hit wins, and of two hits the nearer, on a tie
the even one.
-/
namespace IdlGen.Binary64

/-- The numbers that round to a given one, as integers over one denominator. -/
structure Neighbourhood where
  low : Nat
  value : Nat
  high : Nat
  denominator : Nat
  closed : Bool

/-- The neighbourhood of `mantissa * 2 ^ exponent`. Its ends belong to it if the mantissa is even. -/
def neighbourhood (mantissa : Nat) (exponent : Int) : Neighbourhood :=
  let below := if mantissa = Nat.pow 2 52 ∧ minExponent < exponent then 1 else 2
  let scale := Nat.pow 2 (exponent - 2).toNat
  { low := (4 * mantissa - below) * scale
    value := 4 * mantissa * scale
    high := (4 * mantissa + 2) * scale
    denominator := Nat.pow 2 (2 - exponent).toNat
    closed := mantissa % 2 = 0 }

def Neighbourhood.holds (n : Neighbourhood) (numerator scale : Nat) : Bool :=
  if n.closed then decide (n.low * scale ≤ numerator) && decide (numerator ≤ n.high * scale)
  else decide (n.low * scale < numerator) && decide (numerator < n.high * scale)

def leadingExponent (numerator denominator : Nat) : Int :=
  let estimate : Int := Int.ofNat (decimalLength numerator) - Int.ofNat (decimalLength denominator)
  let below :=
    if 0 ≤ estimate then decide (numerator < denominator * Nat.pow 10 estimate.toNat)
    else decide (numerator * Nat.pow 10 (-estimate).toNat < denominator)
  if below then estimate - 1 else estimate

def decimalOf? (n : Neighbourhood) (leading : Int) (count : Nat) : Option (Nat × Int) :=
  let exponent := leading - Int.ofNat count + 1
  let unit := n.denominator * Nat.pow 10 exponent.toNat
  let scale := Nat.pow 10 (-exponent).toNat
  let down := n.value * scale / unit
  let rest := n.value * scale % unit
  let holdsDown := n.holds (down * unit) scale
  let holdsUp := n.holds ((down + 1) * unit) scale
  let nearerUp := decide (unit < 2 * rest) || (2 * rest == unit && down % 2 == 1)
  if holdsUp && (nearerUp || !holdsDown) then some (down + 1, exponent)
  else if holdsDown then some (down, exponent)
  else none

def shortestFrom (n : Neighbourhood) (leading : Int) (count : Nat) : Nat → Nat × Int
  | 0 => (n.value / n.denominator, 0)
  | fuel + 1 => (decimalOf? n leading count).getD (shortestFrom n leading (count + 1) fuel)

/-- Digits and decimal exponent of `mantissa * 2 ^ exponent`; seventeen digits always suffice. -/
def shortest (mantissa : Nat) (exponent : Int) : Nat × Int :=
  let n := neighbourhood mantissa exponent
  shortestFrom n (leadingExponent n.value n.denominator) 1 17

end IdlGen.Binary64
