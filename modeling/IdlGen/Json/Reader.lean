import IdlGen.Fault
import IdlGen.Value.Equality

/-!
Reading JSON text into a value. The order of object keys is kept, a repeated key keeps
its first place and takes the last value, integers have any size, and a number
with a point or an exponent is a double-precision number. `NaN`, `Infinity` and
`-Infinity` are numbers too.
-/
namespace IdlGen.Json

def skipBlanks (chars : List Char) : List Char :=
  chars.dropWhile fun c => c == ' ' || c == '\t' || c == '\n' || c == '\r'

def readWord (word : String) (value : Value) (chars : List Char) :
    Except Fault (Value × List Char) :=
  if word.toList.isPrefixOf chars then .ok (value, chars.drop word.toList.length)
  else .error .malformedText

/-! ## Texts -/

def codeUnit? (a b c d : Char) : Option Nat := do
  let high := (← Text.hexValue? a) * 16 + (← Text.hexValue? b)
  let low := (← Text.hexValue? c) * 16 + (← Text.hexValue? d)
  return high * 256 + low

def isHighHalf (code : Nat) : Bool := decide (0xD800 ≤ code) && decide (code < 0xDC00)

def isLowHalf (code : Nat) : Bool := decide (0xDC00 ≤ code) && decide (code < 0xE000)

def unitChar (code : Nat) : Char :=
  if isHighHalf code || isLowHalf code then Char.ofNat 0xFFFD else Char.ofNat code

def pairChar (high low : Nat) : Char :=
  Char.ofNat (0x10000 + (high - 0xD800) * 0x400 + (low - 0xDC00))

def escapeChar? (c : Char) : Option Char :=
  if c = '"' ∨ c = '\\' ∨ c = '/' then some c
  else if c = 'b' then some (Char.ofNat 8)
  else if c = 'f' then some (Char.ofNat 12)
  else if c = 'n' then some '\n'
  else if c = 'r' then some '\r'
  else if c = 't' then some '\t'
  else none

def consChar (c : Char) :
    Except Fault (List Char × List Char) → Except Fault (List Char × List Char)
  | .ok (chars, rest) => .ok (c :: chars, rest)
  | .error fault => .error fault

def readText : List Char → Except Fault (List Char × List Char)
  | [] => .error .malformedText
  | '"' :: rest => .ok ([], rest)
  | '\\' :: 'u' :: a :: b :: c :: d :: '\\' :: 'u' :: e :: f :: g :: h :: rest =>
    match codeUnit? a b c d with
    | none => .error .malformedText
    | some high =>
      if isHighHalf high then
        match codeUnit? e f g h with
        | none => .error .malformedText
        | some low =>
          if isLowHalf low then consChar (pairChar high low) (readText rest)
          else consChar (unitChar high) (readText ('\\' :: 'u' :: e :: f :: g :: h :: rest))
      else consChar (unitChar high) (readText ('\\' :: 'u' :: e :: f :: g :: h :: rest))
  | '\\' :: 'u' :: a :: b :: c :: d :: rest =>
    match codeUnit? a b c d with
    | none => .error .malformedText
    | some code => consChar (unitChar code) (readText rest)
  | '\\' :: c :: rest =>
    match escapeChar? c with
    | none => .error .malformedText
    | some escaped => consChar escaped (readText rest)
  | c :: rest => if c.toNat < 0x20 then .error .malformedText else consChar c (readText rest)

/-! ## Numbers -/

def isDigit (c : Char) : Bool := decide ('0' ≤ c) && decide (c ≤ '9')

def digitsValue (digits : List Char) : Nat :=
  digits.foldl (fun value c => 10 * value + (c.toNat - '0'.toNat)) 0

def readFraction : List Char → List Char × List Char
  | '.' :: c :: rest =>
    if isDigit c then ((c :: rest).takeWhile isDigit, (c :: rest).dropWhile isDigit)
    else ([], '.' :: c :: rest)
  | chars => ([], chars)

def readExponent? : List Char → Option (Int × List Char)
  | mark :: rest =>
    if mark = 'e' ∨ mark = 'E' then
      let (negative, digits) := match rest with
        | '-' :: rest => (true, rest)
        | '+' :: rest => (false, rest)
        | rest => (false, rest)
      let written := digits.takeWhile isDigit
      if written.isEmpty then none
      else
        let value := Int.ofNat (digitsValue written)
        some (if negative then -value else value, digits.dropWhile isDigit)
    else none
  | [] => none

/-- A number after its sign: digits without a needless zero, a fraction and an exponent. -/
def readNumber (negative : Bool) (chars : List Char) : Except Fault (Value × List Char) :=
  let digits := match chars with
    | '0' :: _ => ['0']
    | _ => chars.takeWhile isDigit
  if digits.isEmpty then .error .malformedText
  else
    let (fraction, afterFraction) := readFraction (chars.drop digits.length)
    let exponent := readExponent? afterFraction
    if fraction.isEmpty && exponent.isNone then
      if maxIntegerDigits < digits.length then .error .hugeInteger
      else
        let value := Int.ofNat (digitsValue digits)
        .ok (.int (if negative then -value else value), afterFraction)
    else
      let (power, rest) := exponent.getD (0, afterFraction)
      .ok (.float (Binary64.ofDecimal negative (digitsValue (digits ++ fraction))
        (power - Int.ofNat fraction.length)), rest)

/-! ## Values -/

mutual

/-- One value at the start of the text. Every call uses up fuel. -/
def readValue : Nat → List Char → Except Fault (Value × List Char)
  | 0, _ => .error .malformedText
  | fuel + 1, chars =>
    match chars with
    | '"' :: rest => do
      let (text, rest) ← readText rest
      return (.text (String.ofList text), rest)
    | '\x7b' :: rest =>
      match skipBlanks rest with
      | '\x7d' :: rest => .ok (.dict [], rest)
      | rest => do
        let (entries, rest) ← readEntries fuel rest
        return (.dict (Value.distinctEntries entries), rest)
    | '[' :: rest =>
      match skipBlanks rest with
      | ']' :: rest => .ok (.list [], rest)
      | rest => do
        let (items, rest) ← readItems fuel rest
        return (.list items, rest)
    | 'n' :: _ => readWord "null" .null chars
    | 't' :: _ => readWord "true" (.bool true) chars
    | 'f' :: _ => readWord "false" (.bool false) chars
    | 'N' :: _ => readWord "NaN" (.float .nan) chars
    | 'I' :: _ => readWord "Infinity" (.float (.infinity false)) chars
    | '-' :: 'I' :: _ => readWord "-Infinity" (.float (.infinity true)) chars
    | '-' :: rest => readNumber true rest
    | rest => readNumber false rest

def readItems : Nat → List Char → Except Fault (List Value × List Char)
  | 0, _ => .error .malformedText
  | fuel + 1, chars => do
    let (item, rest) ← readValue fuel chars
    match skipBlanks rest with
    | ']' :: rest => return ([item], rest)
    | ',' :: rest => do
      let (items, rest) ← readItems fuel (skipBlanks rest)
      return (item :: items, rest)
    | _ => throw .malformedText

def readEntries : Nat → List Char → Except Fault (List (Value × Value) × List Char)
  | 0, _ => .error .malformedText
  | fuel + 1, chars =>
    match chars with
    | '"' :: rest => do
      let (key, rest) ← readText rest
      match skipBlanks rest with
      | ':' :: rest => do
        let (value, rest) ← readValue fuel (skipBlanks rest)
        let entry := (Value.text (String.ofList key), value)
        match skipBlanks rest with
        | '\x7d' :: rest => return ([entry], rest)
        | ',' :: rest => do
          let (entries, rest) ← readEntries fuel (skipBlanks rest)
          return (entry :: entries, rest)
        | _ => throw .malformedText
      | _ => throw .malformedText
    | _ => .error .malformedText

end

/-- The value that a whole text denotes. Each character is met by at most two calls, so the
    fuel is never used up. -/
def parse (source : String) : Except Fault Value := do
  let chars := source.toList
  let (value, rest) ← readValue (2 * chars.length + 2) (skipBlanks chars)
  if (skipBlanks rest).isEmpty then return value else throw .malformedText

end IdlGen.Json
