import IdlGen.Table
import IdlGen.Value.Basic

/-!
Schemas: the declarations of one interface file. Declarations are known by qualified names
`module.Local`. The parts of a schema that its document may write as anything (module,
path, target namespace, includes, field and function names) are values.
-/
namespace IdlGen

/-! ## Types -/

inductive Primitive where
  | bool
  | byte
  | i8
  | i16
  | i32
  | i64
  | double
  | string
  | binary
  /-- A name that is no primitive of the interface language. -/
  | other (name : String)
deriving DecidableEq, Repr, Inhabited

namespace Primitive

def table : Table Primitive :=
  [("bool", bool), ("byte", byte), ("i8", i8), ("i16", i16), ("i32", i32), ("i64", i64),
    ("double", double), ("string", string), ("binary", binary)]

def ofName? (name : String) : Option Primitive := table.get? name

def name : Primitive → String
  | bool => "bool"
  | byte => "byte"
  | i8 => "i8"
  | i16 => "i16"
  | i32 => "i32"
  | i64 => "i64"
  | double => "double"
  | string => "string"
  | binary => "binary"
  | other name => name

def range? : Primitive → Option (Int × Int)
  | byte => some (-0x80, 0x7f)
  | i8 => some (-0x80, 0x7f)
  | i16 => some (-0x8000, 0x7fff)
  | i32 => some (-0x80000000, 0x7fffffff)
  | i64 => some (-0x8000000000000000, 0x7fffffffffffffff)
  | _ => none

end Primitive

inductive FieldType where
  | primitive (p : Primitive)
  | list (element : FieldType)
  | set (element : FieldType)
  | map (key value : FieldType)
  | ref (name : String)
deriving DecidableEq, Repr, Inhabited

def FieldType.size : FieldType → Nat
  | .primitive _ => 1
  | .list element => element.size + 1
  | .set element => element.size + 1
  | .map key value => key.size + value.size + 1
  | .ref _ => 1

/-! ## Declarations -/

structure Field where
  id : Value := .int 0
  name : Value
  type : FieldType
  required : Bool := false
  /-- The declared default; null if there is none. -/
  default : Value := .null
deriving Repr, Inhabited

inductive RecordKind where
  | struct
  | union
  | exception
deriving DecidableEq, Repr, Inhabited

def RecordKind.word : RecordKind → String
  | struct => "struct"
  | union => "union"
  | exception => "exception"

structure Record where
  kind : RecordKind
  name : String
  fields : List Field
deriving Repr, Inhabited

structure Enum where
  name : String
  values : List (String × Int)
deriving Repr, Inhabited

structure Constant where
  name : String
  type : FieldType
  value : Value
deriving Repr, Inhabited

structure Typedef where
  name : String
  type : FieldType
deriving Repr, Inhabited

structure Method where
  name : Value
  params : List Field
  returns : Option FieldType
  throws : List Field
  oneway : Bool
deriving Repr, Inhabited

structure Service where
  name : String
  methods : List Method
  extends? : Option String
deriving Repr, Inhabited

inductive Entity where
  | record (r : Record)
  | enum (e : Enum)
  | constant (c : Constant)
  | typedef (t : Typedef)
  | service (s : Service)
deriving Repr, Inhabited

namespace Entity

def name : Entity → String
  | record r => r.name
  | enum e => e.name
  | constant c => c.name
  | typedef t => t.name
  | service s => s.name

def kindWord : Entity → String
  | record r => r.kind.word
  | enum _ => "enum"
  | constant _ => "constant"
  | typedef _ => "typedef"
  | service _ => "service"

end Entity

/-! ## Schemas -/

structure Schema where
  module : Value
  path : Value := .null
  /-- The namespace that the outputs go to; null for none. -/
  scope : Value := .null
  includes : List Value := []
  typedefs : Table Typedef := []
  structs : Table Record := []
  unions : Table Record := []
  exceptions : Table Record := []
  enums : Table Enum := []
  constants : Table Constant := []
  services : Table Service := []
deriving Repr, Inhabited

/-- The declaration of a local name. Of several, an alias wins over a struct, and so on in the
    order in which the schema lists its kinds. -/
def Schema.find? (s : Schema) (localName : String) : Option Entity :=
  (s.typedefs.get? localName).map .typedef <|>
  (s.structs.get? localName).map .record <|>
  (s.unions.get? localName).map .record <|>
  (s.exceptions.get? localName).map .record <|>
  (s.enums.get? localName).map .enum <|>
  (s.constants.get? localName).map .constant <|>
  (s.services.get? localName).map .service

end IdlGen
