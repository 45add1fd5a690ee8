import IdlGen.TypeHint

/-!
Top-level declarations of generated modules, kept as data until a module is written:
classes, enums, constants, tables and functions. `Declaration.text` writes one for
the module `home`.
-/
namespace IdlGen

structure Attribute where
  name : String
  hint : TypeHint
deriving DecidableEq, Repr, Inhabited

structure ConstantEntry where
  name : String
  hint : TypeHint
  value : Expr
deriving Repr, Inhabited

structure MethodRow where
  name : String
  stem : String
  responds : Bool
deriving DecidableEq, Repr, Inhabited

structure HandlerMethod where
  name : String
  params : List Attribute
  returns : Option TypeHint
deriving DecidableEq, Repr, Inhabited

inductive Declaration where
  /-- Source text as it is given. -/
  | source (text : String)
  /-- The class of a struct, union or exception, or of a record of another kind. -/
  | record (output kind declared : String) (attributes : List Attribute)
  | enumeration (output declared : String) (members : List (String × Int))
  | constants (entries : List ConstantEntry)
  | arguments (stem : String) (attributes : List Attribute)
  | response (stem : String) (attributes : List Attribute)
  | functionTable (rows : List MethodRow) (parent : Option String)
  | handler (output declared : String) (parent : Option Ref) (methods : List HandlerMethod)
  | generator (type : TypeHint) (subject : String) (strategy : Expr)
  | defaults (type : TypeHint) (param : String) (result : Expr)
deriving Repr, Inhabited

namespace Declaration

def indented (line : String) : String := "    " ++ line

def docLine (text : String) : String := indented ("\"\"\"" ++ text ++ "\"\"\"")

def attributeLine (home : String) (a : Attribute) : String :=
  indented (a.name ++ ": " ++ a.hint.text home ++ " | None = None")

def afterBlank (lines : List String) : List String := if lines.isEmpty then [] else "" :: lines

def recordHead (output kind : String) : List String :=
  if kind = "exception" then
    ["@dataclass", "class " ++ Name.className output ++ "(Exception):"]
  else ["@dataclass(frozen=True)", "class " ++ Name.className output ++ ":"]

def recordDoc (kind declared : String) : String :=
  "Thrift " ++ kind ++ " `" ++ declared ++ "`." ++
    if kind = "union" then " At most one field is set." else ""

def constantLine (home : String) (c : ConstantEntry) : String :=
  c.name ++ ": " ++ c.hint.text home ++ " = " ++ c.value.lower (some home) 0

def rowLine (row : MethodRow) : String :=
  indented ("\"" ++ row.name ++ "\": (" ++ row.stem ++ "Args, " ++
    (if row.responds then row.stem ++ "Response" else "None") ++ "),")

def handlerLine (home : String) (m : HandlerMethod) : String :=
  let params := "self" :: m.params.map fun p => p.name ++ ": " ++ p.hint.text home ++ " | None"
  let returns := (m.returns.map (TypeHint.text home)).getD "None"
  indented ("def " ++ m.name ++ "(" ++ Text.join ", " params ++ ") -> " ++ returns ++ ": ...")

def contextType (home : String) : String := (Ref.support "GenerationContext").lower (some home)

def strategyType (home : String) : String := (Ref.strategy "SearchStrategy").lower (some home)

def lines (home : String) : Declaration → List String
  | source text => [text]
  | record output kind declared attributes =>
    recordHead output kind ++
      [docLine (recordDoc kind declared), "",
        indented ("THRIFT_NAME: ClassVar[str] = \"" ++ output ++ "\"")] ++
      afterBlank (attributes.map (attributeLine home))
  | enumeration output declared members =>
    ["class " ++ Name.className output ++ "(enum.IntEnum):",
      docLine ("Thrift enum `" ++ declared ++ "`.")] ++
    afterBlank (members.map fun m => indented (Name.sanitize m.1 ++ " = " ++ integerText m.2))
  | constants entries => entries.map (constantLine home)
  | arguments stem attributes =>
    ["@dataclass(frozen=True)", "class " ++ stem ++ "Args:",
      docLine ("Arguments of `" ++ stem ++ "`.")] ++
    afterBlank (attributes.map (attributeLine home))
  | response stem attributes =>
    ["@dataclass(frozen=True)", "class " ++ stem ++ "Response:",
      docLine ("Result of `" ++ stem ++ "`: the return value or one of the declared exceptions."),
      ""] ++
    attributes.map (attributeLine home)
  | functionTable rows parent =>
    ["FUNCTIONS: dict[str, tuple[type, type | None]] = \x7b"] ++ rows.map rowLine ++ ["\x7d"] ++
    (parent.map fun output => "EXTENDS = \"" ++ output ++ "\"").toList
  | handler output declared parent methods =>
    let bases := (parent.map (Ref.lower (some home))).toList ++ ["Protocol"]
    ["class " ++ Name.className output ++ "(" ++ Text.join ", " bases ++ "):",
      docLine ("Handler of service `" ++ declared ++ "`.")] ++
    methods.flatMap fun m => ["", handlerLine home m]
  | generator type subject strategy =>
    ["def get_generator(context: " ++ contextType home ++ ") -> " ++ strategyType home ++ "[" ++
        type.text home ++ "]:",
      docLine ("Returns a strategy that draws random " ++ subject ++ "."),
      indented ("return " ++ strategy.lower (some home) 1)]
  | defaults type param result =>
    ["def apply_defaults(" ++ param ++ ": " ++ type.text home ++ ", context: " ++
        contextType home ++ ") -> " ++ type.text home ++ ":",
      docLine ("Returns `" ++ param ++ "` with declared defaults applied to every absent field."),
      indented ("return " ++ result.lower (some home) 1)]

def text (home : String) (d : Declaration) : String := Text.join "\n" (d.lines home)

end Declaration
end IdlGen
