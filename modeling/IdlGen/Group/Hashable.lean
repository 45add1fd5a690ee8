import IdlGen.Group.Basic

/-!
Which types have values that can be set elements or map keys. There lists are tuples, and
sets and maps are frozen; the fields of a record keep plain containers, so a record
with a container in a field is not hashable. Exceptions never are.
-/
namespace IdlGen.Group

def records (g : Group) : List Record :=
  g.schemas.flatMap fun entry =>
    entry.2.structs.values ++ entry.2.unions.values ++ entry.2.exceptions.values

def recordCount (g : Group) : Nat := g.records.length

def aliasNodes (g : Group) : Nat := g.aliases.foldl (fun nodes t => nodes + t.type.size) 0

def andThen (first : Except Fault Bool) (second : Except Fault Bool) : Except Fault Bool := do
  if ← first then second else return false

def allYes {α : Type} (ask : α → Except Fault Bool) : List α → Except Fault Bool
  | [] => .ok true
  | a :: rest => andThen (ask a) (allYes ask rest)

/-- Whether values of a type are hashable, with the records in `seen` taken to be. Every level
    of the search uses up fuel. -/
def hashableWithin (g : Group) : Nat → List String → Bool → FieldType → Except Fault Bool
  | 0, _, _, _ => .error .endlessType
  | fuel + 1, seen, frozen, type => do
    match ← g.resolveType type with
    | .primitive _ => return true
    | .enum _ => return true
    | .list element =>
      if frozen then g.hashableWithin fuel seen frozen element else return false
    | .set element =>
      if frozen then g.hashableWithin fuel seen frozen element else return false
    | .map key value =>
      if frozen then
        andThen (g.hashableWithin fuel seen frozen key) (g.hashableWithin fuel seen frozen value)
      else return false
    | .record r =>
      if r.kind = .exception then return false
      else if seen.contains r.name then return true
      else allYes (fun field => g.hashableWithin fuel (r.name :: seen) false field.type) r.fields
    | .constant _ => return false
    | .service _ => return false

/-- Levels that suffice for a search that ends: containers are entered only above the first
    record, each at most once per node, and each record once. -/
def hashableFuel (g : Group) (type : FieldType) : Nat :=
  type.size + g.aliasNodes + g.recordCount + 2

/-- Whether values of a type can be set elements or map keys. An alias that holds itself
    inside a container has no end. -/
def isHashable (g : Group) (type : FieldType) (frozen : Bool) : Except Fault Bool :=
  g.hashableWithin (g.hashableFuel type) [] frozen type

end IdlGen.Group
