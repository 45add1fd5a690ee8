import IdlGen.Text.Split

/-!
Patterns of file names. A star stands for any text, a question mark for any character,
and brackets for one character of a set: single characters and ranges, or all others
after an exclamation mark. A bracket that is never closed stands for itself.
-/
namespace IdlGen.Pattern

/-! ## Sets of characters -/

structure CharSet where
  negated : Bool := false
  ranges : List (Char × Char) := []
deriving DecidableEq, Repr, Inhabited

def CharSet.has (set : CharSet) (c : Char) : Bool :=
  (set.ranges.any fun range => range.1 ≤ c && c ≤ range.2) != set.negated

/-- The chunks of the text of a set between the hyphens that make ranges. A hyphen makes a
    range unless it is one of the next `kept` characters, and the two characters after it
    belong to the next chunk. -/
def chunks (kept : Nat) : List Char → List (List Char)
  | [] => [[]]
  | c :: rest =>
    if c = '-' && kept = 0 then [] :: chunks 2 rest
    else match chunks (kept - 1) rest with
      | [] => [[c]]
      | chunk :: others => (c :: chunk) :: others

def closeChunks : List (List Char) → List (List Char)
  | [] => []
  | [chunk, []] => [chunk ++ ['-']]
  | chunk :: others => chunk :: closeChunks others

def dropEmpty : List (List Char) → List (List Char)
  | [] => []
  | chunk :: others =>
    match dropEmpty others with
    | [] => [chunk]
    | next :: rest =>
      match chunk.getLast?, next.head? with
      | some low, some high =>
        if high < low then (chunk.dropLast ++ next.tail) :: rest else chunk :: next :: rest
      | _, _ => chunk :: next :: rest

/-- The ranges of the chunks: the last character of each chunk starts a range that the first
    character of the next one ends. A chunk that has no last character gives its hyphen. -/
def rangesOf (start : Option Char) : List (List Char) → List (Char × Char)
  | [] => []
  | [chunk] =>
    match start, chunk with
    | some low, high :: rest => (low, high) :: rest.map fun c => (c, c)
    | _, chunk => chunk.map fun c => (c, c)
  | chunk :: others =>
    let (head, chunk) := match start, chunk with
      | some low, high :: rest => ([(low, high)], rest)
      | _, chunk => ([], chunk)
    match chunk.getLast? with
    | some low => head ++ chunk.dropLast.map (fun c => (c, c)) ++ rangesOf (some low) others
    | none => head ++ ('-', '-') :: rangesOf none others

/-- The set that a text in brackets describes. The exclamation mark counts as the start of
    the text while the ranges are found, and negates the set if it is still the start. -/
def CharSet.ofText (text : List Char) : CharSet :=
  let found := if text.contains '-' then
      dropEmpty (closeChunks (chunks (if text.head? = some '!' then 2 else 1) text))
    else [text]
  match found with
  | ('!' :: chunk) :: others => { negated := true, ranges := rangesOf none (chunk :: others) }
  | found => { ranges := rangesOf none found }

/-! ## Patterns -/

inductive Piece where
  | anyText
  | anyChar
  | oneOf (set : CharSet)
  | char (c : Char)
deriving DecidableEq, Repr, Inhabited

/-- The text in brackets, which starts here, and what follows the bracket that closes it. A
    bracket at the start, or after an exclamation mark there, does not close. -/
def bracketed? (text : List Char) : Option (List Char × List Char) :=
  let (mark, rest) := match text with
    | '!' :: rest => (['!'], rest)
    | rest => ([], rest)
  let (first, rest) := match rest with
    | ']' :: rest => ([']'], rest)
    | rest => ([], rest)
  match Text.cutFirst ']' rest with
  | (_, none) => none
  | (inside, some after) => some (mark ++ first ++ inside, after)

def piecesWithin : Nat → List Char → List Piece
  | 0, _ => []
  | _ + 1, [] => []
  | n + 1, '*' :: rest => .anyText :: piecesWithin n rest
  | n + 1, '?' :: rest => .anyChar :: piecesWithin n rest
  | n + 1, '[' :: rest =>
    match bracketed? rest with
    | none => .char '[' :: piecesWithin n rest
    | some (inside, after) => .oneOf (CharSet.ofText inside) :: piecesWithin n after
  | n + 1, c :: rest => .char c :: piecesWithin n rest

def pieces (pattern : String) : List Piece :=
  piecesWithin pattern.toList.length pattern.toList

def anyEnd (test : List Char → Bool) : List Char → Bool
  | [] => test []
  | c :: rest => test (c :: rest) || anyEnd test rest

def fits : List Piece → List Char → Bool
  | [], text => text.isEmpty
  | .anyText :: rest, text => anyEnd (fits rest) text
  | _ :: _, [] => false
  | .anyChar :: rest, _ :: text => fits rest text
  | .oneOf set :: rest, c :: text => set.has c && fits rest text
  | .char wanted :: rest, c :: text => wanted == c && fits rest text

def accepts (pattern name : String) : Bool := fits (pieces pattern) name.toList

def isPattern (text : String) : Bool :=
  text.toList.any fun c => c == '*' || c == '?' || c == '['

end IdlGen.Pattern
