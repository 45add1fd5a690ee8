import IdlGen.Name
import IdlGen.Text.Identifier
import IdlGen.Text.Normal

/-!
Tokens of the text of a module. Lines end with a token of their own, except inside brackets;
deeper and less deep lines are marked. Identifiers have their normal form. Where the
text stops being readable, a last token says why.
-/
namespace IdlGen.Code

inductive Token where
  | name (id : String)
  | word (reserved : String)
  | number (value : Value)
  | text (s : String)
  | bytes (data : List UInt8)
  | pattern
  | symbol (s : String)
  | newline
  | indent
  | dedent
  | finish
  | fault (cause : SourceFault)
deriving Repr, Inhabited

namespace Token

/-! ## Words -/

/-- Whether a character can stand in a word. What words are identifiers is decided later. -/
def isWordChar (c : Char) : Bool := c.isAlphanum || c == '_' || decide (0x80 ≤ c.toNat)

def isIdentifier (s : String) : Bool :=
  match s.toList with
  | [] => false
  | c :: rest => Text.startsIdentifier c && rest.all Text.continuesIdentifier

def ofWord (s : String) : Option Token :=
  if Name.isReserved s then some (.word s)
  else if isIdentifier s then some (.name (Text.normalForm s))
  else none

/-! ## Numbers -/

def digitsOf (isDigit : Char → Bool) : List Char → Option (List Char × List Char)
  | [] => some ([], [])
  | '_' :: rest =>
    match rest with
    | [] => none
    | d :: after =>
      if isDigit d then (digitsOf isDigit after).map fun (ds, rest) => (d :: ds, rest) else none
  | c :: rest =>
    if isDigit c then (digitsOf isDigit rest).map fun (ds, rest) => (c :: ds, rest)
    else some ([], c :: rest)

def digitsIn (base : Nat) (digits : List Char) : Nat :=
  digits.foldl (fun n c => base * n + (Text.hexValue? c).getD 0) 0

def wordsAfterNumbers : List String := ["and", "else", "for", "if", "in", "is", "not", "or"]

def endsNumber (rest : List Char) : Bool :=
  !(rest.head?.any isWordChar) || wordsAfterNumbers.any fun w => w.toList.isPrefixOf rest

def radix? (c : Char) : Option Nat :=
  match c.toLower with
  | 'x' => some 16
  | 'o' => some 8
  | 'b' => some 2
  | _ => none

def exponentOf (rest : List Char) : Option (Int × List Char) :=
  let (sign, digits) : Int × List Char := match rest with
    | '+' :: rest => (1, rest)
    | '-' :: rest => (-1, rest)
    | rest => (1, rest)
  match digits with
  | c :: _ =>
    if c.isDigit then
      (digitsOf Char.isDigit digits).map fun (ds, rest) => (sign * digitsIn 10 ds, rest)
    else none
  | [] => none

def floatOf (whole fraction : List Char) (exponent : Int) : Value :=
  .float (Binary64.ofDecimal false (digitsIn 10 (whole ++ fraction)) (exponent - fraction.length))

def fractionOf (rest : List Char) : Option (Option (List Char) × List Char) :=
  match rest with
  | '.' :: rest =>
    if rest.head?.any Char.isDigit then
      (digitsOf Char.isDigit rest).map fun (ds, rest) => (some ds, rest)
    else some (some [], rest)
  | rest => some (none, rest)

/-- Whether digits may be written without a fraction: a leading zero stands alone. -/
def isWholeNumber (digits : List Char) : Bool :=
  (digits.head? != some '0' || digits.all (· == '0')) &&
    decide (digits.length ≤ maxIntegerDigits)

def decimalOf (cs : List Char) : Option (Value × List Char) := do
  let (whole, rest) ← digitsOf Char.isDigit cs
  let (fraction?, rest) ← fractionOf rest
  let marked := rest.head?.any fun c => c == 'e' || c == 'E'
  match (if marked then exponentOf (rest.drop 1) else none) with
  | some (exponent, rest) => return (floatOf whole (fraction?.getD []) exponent, rest)
  | none =>
    match fraction? with
    | some fraction => return (floatOf whole fraction 0, rest)
    | none => if isWholeNumber whole then return (.int (digitsIn 10 whole), rest) else none

def numberOf (cs : List Char) : Option (Value × List Char) := do
  let (value, rest) ← match cs with
    | '0' :: letter :: digits =>
      match radix? letter with
      | some base => do
        let (ds, rest) ← digitsOf (fun c => (Text.hexValue? c).any fun d => decide (d < base)) digits
        if ds.isEmpty then none else pure (.int (digitsIn base ds), rest)
      | none => decimalOf cs
    | _ => decimalOf cs
  if endsNumber rest then return (value, rest) else none

/-! ## Texts -/

/-- What stands before the closing quote, escapes as they are written, and the rest. Only a
    tripled quote may be lines away. -/
def bodyOf (quote : Char) (tripled : Bool) : List Char → Option (List Char × List Char)
  | [] => none
  | '\\' :: rest =>
    match rest with
    | [] => none
    | c :: rest => (bodyOf quote tripled rest).map fun (body, rest) => ('\\' :: c :: body, rest)
  | c :: rest =>
    if !tripled && c == '\n' then none
    else if c == quote && (!tripled || [quote, quote].isPrefixOf rest) then
      some ([], if tripled then rest.drop 2 else rest)
    else (bodyOf quote tripled rest).map fun (body, rest) => (c :: body, rest)

def namedEscapes : List (Char × Char) :=
  [('\\', '\\'), ('\'', '\''), ('"', '"'), ('a', '\x07'), ('b', '\x08'), ('f', '\x0c'), ('n', '\n'),
    ('r', '\r'), ('t', '\t'), ('v', '\x0b')]

def escapeWidth? (wide : Bool) (c : Char) : Option Nat :=
  match c with
  | 'x' => some 2
  | 'u' => if wide then some 4 else none
  | 'U' => if wide then some 8 else none
  | _ => none

def isOctal (c : Char) : Bool := decide ('0' ≤ c) && decide (c ≤ '7')

/-- The code point of an escape after its backslash, and the rest. An unknown escape stands for
    itself; a known one may be malformed. -/
def escapeOf (wide : Bool) (cs : List Char) : Option (List Nat × List Char) :=
  match cs with
  | [] => none
  | '\n' :: rest => some ([], rest)
  | c :: rest =>
    match namedEscapes.lookup c, escapeWidth? wide c with
    | some image, _ => some ([image.toNat], rest)
    | none, some width =>
      let digits := rest.take width
      if digits.length = width ∧ digits.all fun d => (Text.hexValue? d).isSome then
        let code := digitsIn 16 digits
        if code < 0x110000 then some ([code], rest.drop width) else none
      else none
    | none, none =>
      if isOctal c then
        let digits := (cs.take 3).takeWhile isOctal
        some ([digitsIn 8 digits], cs.drop digits.length)
      else if wide && c == 'N' then none
      else some (['\\'.toNat, c.toNat], rest)

def codesWithin (wide : Bool) : Nat → List Char → Option (List Nat)
  | 0, _ => some []
  | _ + 1, [] => some []
  | fuel + 1, '\\' :: rest => do
    let (codes, rest) ← escapeOf wide rest
    return codes ++ (← codesWithin wide fuel rest)
  | fuel + 1, c :: rest => do return c.toNat :: (← codesWithin wide fuel rest)

/-- The code points of a body; in a raw one a backslash is a character like others. -/
def codesOf (raw wide : Bool) (body : List Char) : Option (List Nat) :=
  if raw then some (body.map Char.toNat) else codesWithin wide body.length body

def markers : List String := ["b", "u", "r", "f", "br", "rb", "fr", "rf"]

def ofBody (marker : String) (body : List Char) : Option Token :=
  let has (c : Char) : Bool := marker.toList.contains c
  if has 'b' then
    if body.all fun c => decide (c.toNat < 0x80) then
      (codesOf (has 'r') false body).map fun codes => .bytes (codes.map Nat.toUInt8)
    else none
  else if has 'f' then some .pattern
  else (codesOf (has 'r') true body).map fun codes => .text (String.ofList (codes.map Char.ofNat))

def quotedOf (marker : String) (quote : Char) (rest : List Char) : Option (Token × List Char) := do
  let tripled := [quote, quote].isPrefixOf rest
  let (body, rest) ← bodyOf quote tripled (if tripled then rest.drop 2 else rest)
  return (← ofBody marker body, rest)

/-! ## Single tokens -/

def longSymbols : List String :=
  ["**=", "//=", ">>=", "<<=", "...", "!=", "%=", "&=", "**", "*=", "+=", "-=", "->", "//", "/=",
    ":=", "<<", "<=", "==", ">=", ">>", "@=", "^=", "|="]

def shortSymbols : List Char :=
  ['%', '&', '(', ')', '*', '+', ',', '-', '.', '/', ':', ';', '<', '=', '>', '@', '[', ']', '^',
    '\x7b', '|', '\x7d', '~']

def symbolOf (cs : List Char) : Option (Token × List Char) :=
  match longSymbols.find? fun s => s.toList.isPrefixOf cs with
  | some s => some (.symbol s, cs.drop s.length)
  | none =>
    match cs with
    | c :: rest => if shortSymbols.contains c then some (.symbol c.toString, rest) else none
    | [] => none

def isQuote (c : Char) : Bool := c == '"' || c == '\''

def wordOf (cs : List Char) : Option (Token × List Char) :=
  let word := String.ofList (cs.takeWhile isWordChar)
  let marker := String.ofList (word.toList.map Char.toLower)
  match cs.dropWhile isWordChar with
  | c :: rest =>
    if isQuote c && markers.contains marker then quotedOf marker c rest
    else (ofWord word).map fun token => (token, c :: rest)
  | [] => (ofWord word).map fun token => (token, [])

def next? (cs : List Char) : Option (Token × List Char) :=
  match cs with
  | [] => none
  | c :: rest =>
    if c.isDigit || (c == '.' && rest.head?.any Char.isDigit) then
      (numberOf cs).map fun (value, rest) => (.number value, rest)
    else if isWordChar c then wordOf cs
    else if isQuote c then quotedOf "" c rest
    else symbolOf cs

/-! ## Lines and brackets -/

/-- The depth of a line with wide tabs and with narrow ones, and the text after its blanks. -/
def depthOf (wide narrow : Nat) : List Char → Nat × Nat × List Char
  | ' ' :: rest => depthOf (wide + 1) (narrow + 1) rest
  | '\t' :: rest => depthOf ((wide / 8 + 1) * 8) (narrow + 1) rest
  | '\x0c' :: rest => depthOf 0 0 rest
  | rest => (wide, narrow, rest)

structure Nesting where
  levels : List (Nat × Nat) := []
  brackets : List Char := []
  fresh : Bool := true

namespace Nesting

def depth (n : Nesting) : Nat × Nat := n.levels.headD (0, 0)

def enter (n : Nesting) (wide narrow : Nat) : Except SourceFault (List Token × List (Nat × Nat)) :=
  if n.depth.1 = wide then
    if n.depth.2 = narrow then .ok ([], n.levels) else .error .mixedBlanks
  else if n.depth.1 < wide then
    if n.depth.2 < narrow then .ok ([.indent], (wide, narrow) :: n.levels)
    else .error .mixedBlanks
  else
    let kept := n.levels.dropWhile fun level => decide (wide < level.1)
    let outer := kept.headD (0, 0)
    if outer.1 ≠ wide then .error .indentation
    else if outer.2 ≠ narrow then .error .mixedBlanks
    else .ok (List.replicate (n.levels.length - kept.length) .dedent, kept)

def close (n : Nesting) : List Token := n.levels.map (fun _ => Token.dedent) ++ [.finish]

def after (n : Nesting) (token : Token) : Option (List Char) :=
  match token with
  | .symbol "(" => some (')' :: n.brackets)
  | .symbol "[" => some (']' :: n.brackets)
  | .symbol "\x7b" => some ('\x7d' :: n.brackets)
  | .symbol s =>
    if s = ")" || s = "]" || s = "\x7d" then
      match n.brackets with
      | open_ :: rest => if s = open_.toString then some rest else none
      | [] => none
    else some n.brackets
  | _ => some n.brackets

end Nesting

def isSeparator (c : Char) : Bool := c == ' ' || c == '\t' || c == '\x0c'

def scanWithin : Nat → Nesting → List Char → List Token
  | 0, _, _ => [.fault .malformed]
  | fuel + 1, n, cs =>
    if n.fresh then
      let (wide, narrow, rest) := depthOf 0 0 cs
      match rest with
      | [] => n.close
      | '\n' :: rest => scanWithin fuel n rest
      | '#' :: rest => scanWithin fuel n (rest.dropWhile (· != '\n'))
      | rest =>
        match n.enter wide narrow with
        | .error cause => [.fault cause]
        | .ok (marks, levels) =>
          marks ++ scanWithin fuel { n with levels, fresh := false } rest
    else
      match cs with
      | [] => if n.brackets.isEmpty then .newline :: n.close else [.fault .malformed]
      | '\n' :: rest =>
        if n.brackets.isEmpty then .newline :: scanWithin fuel { n with fresh := true } rest
        else scanWithin fuel n rest
      | '#' :: rest => scanWithin fuel n (rest.dropWhile (· != '\n'))
      | '\\' :: rest =>
        match rest with
        | '\n' :: rest => scanWithin fuel n rest
        | _ => [.fault .malformed]
      | c :: rest =>
        if isSeparator c then scanWithin fuel n rest
        else match next? cs with
          | none => [.fault .malformed]
          | some (token, rest) =>
            match n.after token with
            | some brackets => token :: scanWithin fuel { n with brackets } rest
            | none => [.fault .malformed]

/-- A text in which every line ends with a line feed alone. -/
def lineFeeds : List Char → List Char
  | [] => []
  | '\r' :: '\n' :: rest => '\n' :: lineFeeds rest
  | '\r' :: rest => '\n' :: lineFeeds rest
  | c :: rest => c :: lineFeeds rest

/-- The tokens of a text. Every step but the last uses up a character or begins a line. -/
def scan (text : String) : List Token :=
  if text.toList.contains '\x00' then [.fault .malformed]
  else
    let chars := lineFeeds text.toList
    scanWithin (2 * chars.length + 2) {} chars

end Token
end IdlGen.Code
