import IdlGen.Text.CaseTable
import IdlGen.Text.Printable

/-!
Lower, upper and title case of whole texts. ASCII letters have a rule of their own;
all other characters go through the case tables. A mapping may give several
characters, and a capital sigma at the end of a word becomes the final sigma.
-/
namespace IdlGen.Text

/-- A character outside ASCII goes through the ranges, an ASCII one through `ascii`. -/
def mapSimple (ascii : Char → Char) (ranges : List CaseRange) (c : Char) : Char :=
  if c.toNat < 0x80 then ascii c
  else match mapCodePoint ranges c.toNat with
    | some code => Char.ofNat code
    | none => c

def sequenceOf (sequences : List (Nat × List Nat)) (c : Char) : Option (List Char) :=
  if c.toNat < 0x80 then none
  else (sequences.lookup c.toNat).map fun codes => codes.map Char.ofNat

/-- Lower case without regard to the neighbours. A dotted capital I keeps its dot as a mark. -/
def lowerChar (c : Char) : List Char :=
  if c.toNat = 0x130 then ['i', Char.ofNat 0x307] else [mapSimple Char.toLower lowerRanges c]

def upperChar (c : Char) : List Char :=
  (sequenceOf upperSequences c).getD [mapSimple Char.toUpper upperRanges c]

def titleChar (c : Char) : List Char :=
  (sequenceOf titleSequences c).getD (upperChar c)

/-! ## The final sigma -/

def isCaseIgnorable (c : Char) : Bool := inRuns ignorableRuns c.toNat

def reachesCased (chars : List Char) : Bool :=
  match chars.dropWhile isCaseIgnorable with
  | [] => false
  | c :: _ => inRuns casedRuns c.toNat

/-- Lower case of one character between the characters before it (nearest first) and after it. -/
def lowerBetween (before : List Char) (c : Char) (after : List Char) : List Char :=
  if c.toNat = 0x3A3 then
    [Char.ofNat (if reachesCased before && !reachesCased after then 0x3C2 else 0x3C3)]
  else lowerChar c

/-- Lower case of a text that continues the characters `before` (nearest first). -/
def lowerFrom (before : List Char) : List Char → List Char
  | [] => []
  | c :: rest => lowerBetween before c rest ++ lowerFrom (c :: before) rest

/-! ## Whole texts -/

def lower (chars : List Char) : List Char := lowerFrom [] chars

def upperFirst : List Char → List Char
  | [] => []
  | c :: rest => upperChar c ++ rest

def capitalize : List Char → List Char
  | [] => []
  | c :: rest => titleChar c ++ lowerFrom [c] rest

end IdlGen.Text
