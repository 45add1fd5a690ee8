/-!
Cutting a text at a separator and joining the pieces again.
-/
namespace IdlGen.Text

/-- The pieces between the separators; there is always at least one. -/
def splitAt (sep : Char) : List Char → List (List Char)
  | [] => [[]]
  | c :: rest =>
    if c = sep then [] :: splitAt sep rest
    else match splitAt sep rest with
      | [] => [[c]]
      | piece :: pieces => (c :: piece) :: pieces

def cutFirst (sep : Char) : List Char → List Char × Option (List Char)
  | [] => ([], none)
  | c :: rest =>
    if c = sep then ([], some rest)
    else ((c :: (cutFirst sep rest).1), (cutFirst sep rest).2)

def cutLast (sep : Char) (chars : List Char) : Option (List Char) × List Char :=
  let (last, before) := cutFirst sep chars.reverse
  (before.map List.reverse, last.reverse)

def split (sep : Char) (s : String) : List String := (splitAt sep s.toList).map String.ofList

/-- The texts before and after the first separator; the second is empty if there is none. -/
def partition (sep : Char) (s : String) : String × String :=
  let (before, after) := cutFirst sep s.toList
  (String.ofList before, String.ofList (after.getD []))

/-- The texts before and after the last separator; the first is empty if there is none. -/
def partitionLast (sep : Char) (s : String) : String × String :=
  let (before, after) := cutLast sep s.toList
  (String.ofList (before.getD []), String.ofList after)

def join (sep : String) (pieces : List String) : String := sep.intercalate pieces

def replaceChar (old new : Char) (s : String) : String :=
  String.ofList (s.toList.map fun c => if c = old then new else c)

def dropEnding? (ending s : String) : Option String :=
  if ending.toList.isSuffixOf s.toList then
    some (String.ofList (s.toList.take (s.toList.length - ending.toList.length)))
  else none

def hasEnding (ending s : String) : Bool := ending.toList.isSuffixOf s.toList

def hasStart (start s : String) : Bool := start.toList.isPrefixOf s.toList

end IdlGen.Text
