import IdlGen.Value.Basic

/-!
Equality of values as the generated code sees it. Numbers are equal by their value,
whatever their kind: `1`, `1.0`, `true` and an enum member of value one are equal. Sets
are equal to frozensets with the same elements. Only hashable values may be set
elements or keys, and there equal values count once.
-/
namespace IdlGen.Value

inductive Number where
  | int (n : Int)
  | float (x : Binary64)

def number? : Value → Option Number
  | bool b => some (.int (if b then 1 else 0))
  | int n => some (.int n)
  | member _ _ n => some (.int n)
  | float x => some (.float x)
  | _ => none

def Number.equal : Number → Number → Bool
  | .int m, .int n => m == n
  | .int m, .float y => y.equalsInt m
  | .float x, .int n => x.equalsInt n
  | .float x, .float y => x.equals y

def equalNumbers (v w : Value) : Bool :=
  match number? v, number? w with
  | some m, some n => m.equal n
  | _, _ => false

mutual

def equal : Value → Value → Bool
  | null, w => w.isNull
  | text s, w => match w with
    | text t => s == t
    | _ => false
  | bytes s, w => match w with
    | bytes t => s == t
    | _ => false
  | ref s, w => match w with
    | ref t => s == t
    | _ => false
  | list xs, w => match w with
    | list ys => equalLists xs ys
    | _ => false
  | tuple xs, w => match w with
    | tuple ys => equalLists xs ys
    | _ => false
  | set xs, w => match w with
    | set ys => xs.length == ys.length && within xs ys
    | frozenset ys => xs.length == ys.length && within xs ys
    | _ => false
  | frozenset xs, w => match w with
    | set ys => xs.length == ys.length && within xs ys
    | frozenset ys => xs.length == ys.length && within xs ys
    | _ => false
  | dict xs, w => match w with
    | dict ys => xs.length == ys.length && entriesWithin xs ys
    | _ => false
  | record c xs, w => match w with
    | record d ys => c == d && equalFields xs ys
    | _ => false
  | object s, w => match w with
    | object t => s == t
    | _ => false
  | v, w => equalNumbers v w

def equalLists : List Value → List Value → Bool
  | [], ys => ys.isEmpty
  | x :: xs, ys => match ys with
    | [] => false
    | y :: ys => equal x y && equalLists xs ys

def within : List Value → List Value → Bool
  | [], _ => true
  | x :: xs, ys => ys.any (fun y => equal x y) && within xs ys

def entriesWithin : List (Value × Value) → List (Value × Value) → Bool
  | [], _ => true
  | (k, v) :: xs, ys => ys.any (fun y => equal k y.1 && equal v y.2) && entriesWithin xs ys

def equalFields : List (String × Value) → List (String × Value) → Bool
  | [], ys => ys.isEmpty
  | (name, x) :: xs, ys => match ys with
    | [] => false
    | (other, y) :: ys => name == other && equal x y && equalFields xs ys

end

mutual

def hashable : Value → Bool
  | list _ => false
  | set _ => false
  | dict _ => false
  | tuple items => hashableList items
  | frozenset items => hashableList items
  | record cls fields => cls.hashable && hashableFields fields
  | _ => true

def hashableList : List Value → Bool
  | [] => true
  | v :: rest => hashable v && hashableList rest

def hashableFields : List (String × Value) → Bool
  | [] => true
  | (_, v) :: rest => hashable v && hashableFields rest

end

/-- The items without those that equal an earlier one. -/
def distinct (items : List Value) : List Value :=
  items.foldl (fun kept v => if kept.any (fun k => equal k v) then kept else kept ++ [v]) []

def putEntry (entries : List (Value × Value)) (key value : Value) : List (Value × Value) :=
  if entries.any (fun entry => equal entry.1 key) then
    entries.map fun entry => if equal entry.1 key then (entry.1, value) else entry
  else entries ++ [(key, value)]

/-- The entries of a dictionary written in order: a repeated key keeps its first place and
    takes the last value. -/
def distinctEntries (entries : List (Value × Value)) : List (Value × Value) :=
  entries.foldl (fun kept entry => putEntry kept entry.1 entry.2) []

/-- Whether two values name the same thing in a document, where an undefined number is
    itself. -/
def same (v w : Value) : Bool :=
  equal v w || match v, w with
    | float .nan, float .nan => true
    | _, _ => false

end IdlGen.Value
