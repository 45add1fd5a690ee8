/-!
Tables that keep their keys in the order in which they were first written. Writing to a
key again keeps its place and replaces its value.
-/
namespace IdlGen

abbrev Table (α : Type) := List (String × α)

namespace Table

variable {α : Type}

def get? (table : Table α) (key : String) : Option α := table.lookup key

def has (table : Table α) (key : String) : Bool := (table.get? key).isSome

def put (table : Table α) (key : String) (value : α) : Table α :=
  match table with
  | [] => [(key, value)]
  | (k, v) :: rest => if k = key then (k, value) :: rest else (k, v) :: put rest key value

def values (table : Table α) : List α := table.map (·.2)

end Table

def firstOccurrences {α : Type} [BEq α] (items : List α) : List α :=
  items.foldl (fun kept item => if kept.contains item then kept else kept ++ [item]) []

end IdlGen
