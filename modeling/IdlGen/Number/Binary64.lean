/-!
Double-precision numbers as exact data. A finite number is an integer mantissa times a
power of two in normal form, so equality of values is equality of data, apart from
the two zeros. Reading a ratio rounds it to the nearest number, a half to the even one.
-/
namespace IdlGen

/-- A double-precision number; `finite s m e` is `m * 2 ^ e` with the sign `s`. -/
inductive Binary64 where
  | nan
  | infinity (negative : Bool)
  | finite (negative : Bool) (mantissa : Nat) (exponent : Int)
deriving DecidableEq, Repr, Inhabited

namespace Binary64

def minExponent : Int := -1074

def maxExponent : Int := 971

/-- The quotient rounded to the nearest integer, a half to the even neighbour. -/
def roundDiv (numerator denominator : Nat) : Nat :=
  let quotient := numerator / denominator
  let twice := 2 * (numerator % denominator)
  if twice < denominator then quotient
  else if denominator < twice then quotient + 1
  else if quotient % 2 = 0 then quotient else quotient + 1

def scaled (numerator denominator : Nat) (exponent : Int) : Nat × Nat :=
  if 0 ≤ exponent then (numerator, denominator * Nat.pow 2 exponent.toNat)
  else (numerator * Nat.pow 2 (-exponent).toNat, denominator)

/-- The exponent at which the ratio has a 53-bit mantissa, or the smallest exponent. -/
def exponentOf (numerator denominator : Nat) : Int :=
  let estimate : Int := Int.ofNat numerator.log2 - Int.ofNat denominator.log2 - 52
  let (n, d) := scaled numerator denominator estimate
  max minExponent (if n / d < Nat.pow 2 52 then estimate - 1 else estimate)

/-- The number nearest to a ratio, or nothing if that is beyond the finite numbers. -/
def ofRatio? (negative : Bool) (numerator denominator : Nat) : Option Binary64 :=
  if numerator = 0 then some (finite negative 0 minExponent)
  else
    let exponent := exponentOf numerator denominator
    let (n, d) := scaled numerator denominator exponent
    let mantissa := roundDiv n d
    let (mantissa, exponent) :=
      if mantissa = Nat.pow 2 53 then (Nat.pow 2 52, exponent + 1) else (mantissa, exponent)
    if maxExponent < exponent then none else some (finite negative mantissa exponent)

def ofInt? (n : Int) : Option Binary64 := ofRatio? (decide (n < 0)) n.natAbs 1

def decimalLength (n : Nat) : Nat := (Nat.toDigits 10 n).length

def ofDecimal (negative : Bool) (digits : Nat) (exponent : Int) : Binary64 :=
  let magnitude := Int.ofNat (decimalLength digits) + exponent
  if digits = 0 || decide (magnitude < -400) then finite negative 0 minExponent
  else if 400 < magnitude then infinity negative
  else
    let ratio :=
      if 0 ≤ exponent then ofRatio? negative (digits * Nat.pow 10 exponent.toNat) 1
      else ofRatio? negative digits (Nat.pow 10 (-exponent).toNat)
    ratio.getD (infinity negative)

def isFinite : Binary64 → Bool
  | finite .. => true
  | _ => false

def truncate? : Binary64 → Option Int
  | finite negative mantissa exponent =>
    let magnitude :=
      if 0 ≤ exponent then mantissa * Nat.pow 2 exponent.toNat
      else mantissa / Nat.pow 2 (-exponent).toNat
    some (if negative then -Int.ofNat magnitude else Int.ofNat magnitude)
  | _ => none

def equalsInt (x : Binary64) (n : Int) : Bool :=
  match x with
  | finite negative mantissa exponent =>
    (mantissa = 0 && n = 0) ||
      (negative == decide (n < 0) &&
        if 0 ≤ exponent then mantissa * Nat.pow 2 exponent.toNat == n.natAbs
        else mantissa == n.natAbs * Nat.pow 2 (-exponent).toNat)
  | _ => false

/-- Numeric equality: the zeros are equal, and an undefined number equals nothing. -/
def equals : Binary64 → Binary64 → Bool
  | nan, _ => false
  | finite s m e, finite s' m' e' => (m = 0 && m' = 0) || (s == s' && m == m' && e == e')
  | infinity s, infinity s' => s == s'
  | _, _ => false

def isZero : Binary64 → Bool
  | finite _ m _ => m == 0
  | _ => false

def negate : Binary64 → Binary64
  | nan => nan
  | infinity negative => infinity (!negative)
  | finite negative mantissa exponent => finite (!negative) mantissa exponent

end Binary64
end IdlGen
