import IdlGen.Output.Draft

/-!
Outputs for records, enums and constants.
-/
namespace IdlGen.Emit

def record (g : Group) (path : Value) (kind name : String) (r : Record) : Except Fault Output :=
  Drafting.run (.start g name kind .types path) do
    Drafting.addImport "from dataclasses import dataclass"
    Drafting.addImport "from typing import ClassVar"
    Drafting.add (.record name kind (Name.last r.name) (← Drafting.attributes r.fields))

def enumeration (g : Group) (path : Value) (name : String) (e : Enum) : Except Fault Output :=
  Drafting.run (.start g name "enum" .types path) do
    Drafting.addImport "import enum"
    Drafting.add (.enumeration name (Name.last e.name) e.values)

def constantEntry (c : Constant) : Drafting ConstantEntry := do
  let hint ← Drafting.annotate c.type false
  let value ← Drafting.ofExcept ((← get).group.literalExpr c.value (some c.type) false)
  return { name := Name.sanitize (Name.last c.name), hint, value := ← Drafting.uses value }

def constants (g : Group) (path : Value) (name : String) (cs : List Constant) :
    Except Fault Output :=
  Drafting.run (.start g name "constant" .constants path) do
    Drafting.add (.constants (← cs.mapM constantEntry))

end IdlGen.Emit
