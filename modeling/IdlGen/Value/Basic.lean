import IdlGen.Number.Binary64

/-!
Values: what a schema document holds, what a literal of a schema denotes, and what the
generated code computes. Sets and dictionaries keep the order in which they were
written.
-/
namespace IdlGen

/-- What the instances of a record class say about their origin. -/
inductive Label where
  /-- They carry the output name of their class, by which its companion is found. -/
  | output
  /-- They carry no output name and are known by their class. -/
  | plain
  /-- An attribute stands where the output name would be. -/
  | hidden
deriving DecidableEq, Repr, Inhabited

/-- A generated record class, known by the output name that its instances carry. -/
structure RecordClass where
  name : String
  /-- Exceptions compare by value like other records but cannot be set elements or keys. -/
  hashable : Bool := true
  label : Label := .output
deriving DecidableEq, Repr, Inhabited

def RecordClass.shownName? (cls : RecordClass) : Option String :=
  match cls.label with
  | .output | .plain => some cls.name
  | .hidden => none

inductive Value where
  | null
  | bool (b : Bool)
  | int (n : Int)
  | float (x : Binary64)
  | text (s : String)
  | bytes (data : List UInt8)
  /-- A reference to a constant (`module.NAME`) or to an enum member (`module.Enum.NAME`). -/
  | ref (name : String)
  | list (items : List Value)
  | tuple (items : List Value)
  | set (items : List Value)
  | frozenset (items : List Value)
  | dict (entries : List (Value × Value))
  /-- A member of the enum class with the output name `owner`. -/
  | member (owner name : String) (value : Int)
  | record (cls : RecordClass) (fields : List (String × Value))
  /-- A class, function or module of the generated code, which is no data. -/
  | object (name : String)
deriving Repr, Inhabited

namespace Value

def truthy : Value → Bool
  | null => false
  | bool b => b
  | int n => n != 0
  | float x => !x.isZero
  | text s => s != ""
  | bytes data => !data.isEmpty
  | ref _ => true
  | list items => !items.isEmpty
  | tuple items => !items.isEmpty
  | set items => !items.isEmpty
  | frozenset items => !items.isEmpty
  | dict entries => !entries.isEmpty
  | member _ _ n => n != 0
  | record .. => true
  | object _ => true

def isNull : Value → Bool
  | null => true
  | _ => false

def isFalse : Value → Bool
  | bool b => !b
  | _ => false

def isAbsent (v : Value) : Bool := v.isNull || v.isFalse

def field? (entries : List (Value × Value)) (key : String) : Option Value :=
  (entries.find? fun entry => match entry.1 with
    | text s => s == key
    | _ => false).map (·.2)

mutual

def height : Value → Nat
  | list items => heightList items + 1
  | tuple items => heightList items + 1
  | set items => heightList items + 1
  | frozenset items => heightList items + 1
  | dict entries => heightEntries entries + 1
  | record _ fields => heightFields fields + 1
  | _ => 0

def heightList : List Value → Nat
  | [] => 0
  | v :: rest => max (height v) (heightList rest)

def heightEntries : List (Value × Value) → Nat
  | [] => 0
  | (k, v) :: rest => max (max (height k) (height v)) (heightEntries rest)

def heightFields : List (String × Value) → Nat
  | [] => 0
  | (_, v) :: rest => max (height v) (heightFields rest)

end

mutual

def isData : Value → Bool
  | object _ => false
  | list items => isDataList items
  | tuple items => isDataList items
  | set items => isDataList items
  | frozenset items => isDataList items
  | dict entries => isDataEntries entries
  | record _ fields => isDataFields fields
  | _ => true

def isDataList : List Value → Bool
  | [] => true
  | v :: rest => isData v && isDataList rest

def isDataEntries : List (Value × Value) → Bool
  | [] => true
  | (k, v) :: rest => isData k && isData v && isDataEntries rest

def isDataFields : List (String × Value) → Bool
  | [] => true
  | (_, v) :: rest => isData v && isDataFields rest

end

end Value
end IdlGen
