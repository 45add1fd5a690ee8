import IdlGen.Number.Shortest
import IdlGen.Text.Digit
import IdlGen.Text.Split

/-!
Numbers as text: how integers and double-precision numbers are written, and how an
integer is read from text that people write.
-/
namespace IdlGen

def integerText (n : Int) : String :=
  if n < 0 then "-" ++ String.ofList (Nat.toDigits 10 n.natAbs)
  else String.ofList (Nat.toDigits 10 n.natAbs)

namespace Binary64

/-- Decimals with the point at most this far right of the first digit are written positionally. -/
def maxPositional : Int := 16

/-- Decimals with the point at most this far left of the first digit are written positionally. -/
def minPositional : Int := -4

def exponentText (exponent : Int) : List Char :=
  let digits := Nat.toDigits 10 exponent.natAbs
  (if exponent < 0 then '-' else '+') :: (if digits.length < 2 then '0' :: digits else digits)

def dropTrailingZeros (digits : List Char) : List Char :=
  (digits.reverse.dropWhile (· == '0')).reverse

def decimalText (digits : List Char) (point : Int) : List Char :=
  if decide (minPositional < point) && decide (point ≤ maxPositional) then
    if point ≤ 0 then '0' :: '.' :: (List.replicate (-point).toNat '0' ++ digits)
    else if Int.ofNat digits.length ≤ point then
      digits ++ List.replicate (point - Int.ofNat digits.length).toNat '0' ++ ['.', '0']
    else digits.take point.toNat ++ '.' :: digits.drop point.toNat
  else
    let fraction := digits.drop 1
    digits.take 1 ++ (if fraction.isEmpty then [] else '.' :: fraction) ++
      'e' :: exponentText (point - 1)

/-- The shortest text that reads back as the number, always with a point or an exponent. -/
def text : Binary64 → String
  | nan => "nan"
  | infinity negative => if negative then "-inf" else "inf"
  | finite negative mantissa exponent =>
    let sign := if negative then "-" else ""
    if mantissa = 0 then sign ++ "0.0"
    else
      let (digits, power) := shortest mantissa exponent
      let written := Nat.toDigits 10 digits
      sign ++ String.ofList
        (decimalText (dropTrailingZeros written) (Int.ofNat written.length + power))

end Binary64

/-! ## Reading integers -/

def readDigits? (value : Nat) : List Char → Option Nat
  | [] => some value
  | '_' :: c :: rest => (Text.digitValue? c).bind fun d => readDigits? (10 * value + d) rest
  | c :: rest => (Text.digitValue? c).bind fun d => readDigits? (10 * value + d) rest

def readNatural? : List Char → Option Nat
  | [] => none
  | c :: rest => (Text.digitValue? c).bind fun d => readDigits? d rest

def maxIntegerDigits : Nat := 4300

def readInteger? (s : String) : Option Int :=
  let trimmed := ((s.toList.dropWhile Text.isBlank).reverse.dropWhile Text.isBlank).reverse
  if maxIntegerDigits < trimmed.countP Text.isDecimalDigit then none
  else match trimmed with
    | '-' :: rest => (readNatural? rest).map fun n => -Int.ofNat n
    | '+' :: rest => (readNatural? rest).map Int.ofNat
    | rest => (readNatural? rest).map Int.ofNat

end IdlGen
