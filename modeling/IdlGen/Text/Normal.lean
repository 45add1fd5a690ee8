import IdlGen.Text.NormalTable
import IdlGen.Text.Printable
import IdlGen.Text.Split

/-!
The normal form of identifiers. Characters that only look different, such as wide letters and
ligatures, are replaced by what they stand for; marks on one base are put in order; a base
and a mark that make one character are written as that character. Two spellings of an
identifier name the same thing if their normal forms are equal.
-/
namespace IdlGen.Text

/-! ## Characters and what they stand for -/

def standIn (c : Char) : List Char :=
  let image? := standInBlocks.findSome? fun block =>
    if block.1 ≤ c.toNat then block.2.toList[c.toNat - block.1]? else none
  let images? := standInTexts.findSome? fun block =>
    if block.1 ≤ c.toNat then (splitAt ' ' block.2.toList)[c.toNat - block.1]? else none
  match image?, images? with
  | some image, _ => [image]
  | none, some images => images
  | none, none => [c]

def combiningClass (c : Char) : Nat :=
  ((combiningRuns.find? fun runs => inRuns runs.2 c.toNat).map (·.1)).getD 0

/-! ## Hangul syllables -/

/-- The first syllable, and the characters before the first leading consonant, vowel and
    trailing consonant. -/
def firstSyllable : Nat := 0xAC00
def firstLeading : Nat := 0x1100
def firstVowel : Nat := 0x1161
def beforeTrailing : Nat := 0x11A7

/-- The parts of a syllable: without its trailing consonant, and that consonant; or the leading
    consonant and the vowel. -/
def syllableParts? (c : Char) : Option (Char × Char) :=
  if c.toNat < firstSyllable || firstSyllable + 11172 ≤ c.toNat then none
  else
    let index := c.toNat - firstSyllable
    if index % 28 = 0 then
      some (Char.ofNat (firstLeading + index / 588), Char.ofNat (firstVowel + index % 588 / 28))
    else some (Char.ofNat (c.toNat - index % 28), Char.ofNat (beforeTrailing + index % 28))

def syllable? (base mark : Char) : Option Char :=
  let leading := base.toNat - firstLeading
  let vowel := mark.toNat - firstVowel
  let index := base.toNat - firstSyllable
  let trailing := mark.toNat - beforeTrailing
  if firstLeading ≤ base.toNat ∧ leading < 19 ∧ firstVowel ≤ mark.toNat ∧ vowel < 21 then
    some (Char.ofNat (firstSyllable + (leading * 21 + vowel) * 28))
  else if firstSyllable ≤ base.toNat ∧ index < 11172 ∧ index % 28 = 0 ∧
      beforeTrailing < mark.toNat ∧ trailing < 28 then
    some (Char.ofNat (base.toNat + trailing))
  else none

/-! ## Parts and wholes -/

/-- A text of bases, each followed by what it makes, as pairs. -/
def alternating : List Char → List (Char × Char)
  | base :: whole :: rest => (base, whole) :: alternating rest
  | _ => []

def combined? (base mark : Char) : Option Char :=
  syllable? base mark <|> compositions.findSome? fun entry =>
    if entry.1 = mark.toNat then (alternating entry.2.toList).lookup base else none

def parts? (c : Char) : Option (Char × Char) :=
  syllableParts? c <|> compositions.findSome? fun entry =>
    ((alternating entry.2.toList).find? fun pair => pair.2 == c).map fun pair =>
      (pair.1, Char.ofNat entry.1)

def takenApart : Nat → Char → List Char
  | 0, c => [c]
  | fuel + 1, c =>
    match parts? c with
    | some (base, mark) => takenApart fuel base ++ [mark]
    | none => [c]

def maxMarks : Nat := 4

/-! ## Order and composition of marks -/

/-- Adds a character to a reversed text, before the marks of a higher class. -/
def settle (c : Char) : List Char → List Char
  | [] => [c]
  | d :: rest =>
    if combiningClass c ≠ 0 ∧ combiningClass c < combiningClass d then d :: settle c rest
    else c :: d :: rest

def ordered (text : List Char) : List Char :=
  (text.foldl (fun settled c => settle c settled) []).reverse

/-- A text that is being composed; all parts but the base are reversed. -/
structure Composing where
  done : List Char := []
  base : Option Char := none
  marks : List Char := []

namespace Composing

def text (s : Composing) : List Char := s.marks ++ s.base.toList ++ s.done

/-- Whether a mark of the same or a higher class stands between the base and a character. -/
def blocks (s : Composing) (c : Char) : Bool :=
  match s.marks with
  | [] => false
  | last :: _ => decide (combiningClass c ≤ combiningClass last)

def add (s : Composing) (c : Char) : Composing :=
  let whole? := if s.blocks c then none else s.base.bind fun base => combined? base c
  match whole? with
  | some whole => { s with base := some whole }
  | none =>
    if combiningClass c = 0 then { done := s.text, base := some c }
    else { s with marks := c :: s.marks }

end Composing

def composed (text : List Char) : List Char :=
  (text.foldl Composing.add {}).text.reverse

def normalForm (s : String) : String :=
  if s.toList.all fun c => decide (c.toNat < 0x80) then s
  else String.ofList (composed (ordered
    ((s.toList.flatMap standIn).flatMap (takenApart maxMarks))))

end IdlGen.Text
