import IdlGen.Text.Printable

/-!
Quoted texts and byte strings, as literals of the generated code. A literal stands in
single quotes, or in double quotes if that saves escapes; what has no visible
form is written as an escape of fixed width.
-/
namespace IdlGen.Text

def hexDigits (width n : Nat) : List Char :=
  let digits := Nat.toDigits 16 n
  List.replicate (width - digits.length) '0' ++ digits

def quoteFor (chars : List Char) : Char :=
  if chars.contains '\'' && !chars.contains '"' then '"' else '\''

def namedEscape? (c : Char) : Option (List Char) :=
  if c = '\\' then some ['\\', '\\']
  else if c = '\n' then some ['\\', 'n']
  else if c = '\r' then some ['\\', 'r']
  else if c = '\t' then some ['\\', 't']
  else none

/-- The numeric escape of a code point, of the smallest width that holds it. -/
def numericEscape (code : Nat) : List Char :=
  if code < 0x100 then '\\' :: 'x' :: hexDigits 2 code
  else if code < 0x10000 then '\\' :: 'u' :: hexDigits 4 code
  else '\\' :: 'U' :: hexDigits 8 code

def quoteChar (quote c : Char) : List Char :=
  if c = quote then ['\\', c]
  else match namedEscape? c with
    | some escape => escape
    | none => if isPrintable c then [c] else numericEscape c.toNat

def quoted (s : String) : String :=
  let quote := quoteFor s.toList
  String.ofList (quote :: (s.toList.flatMap (quoteChar quote) ++ [quote]))

def quoteByte (quote : Char) (byte : UInt8) : List Char :=
  let c := Char.ofNat byte.toNat
  if c = quote then ['\\', c]
  else match namedEscape? c with
    | some escape => escape
    | none =>
      if 0x20 ≤ byte.toNat ∧ byte.toNat < 0x7F then [c] else '\\' :: 'x' :: hexDigits 2 byte.toNat

def quotedBytes (data : List UInt8) : String :=
  let quote := quoteFor (data.map fun byte => Char.ofNat byte.toNat)
  String.ofList ('b' :: quote :: (data.flatMap (quoteByte quote) ++ [quote]))

end IdlGen.Text
