import IdlGen.Code.Check
import IdlGen.Code.Parser
import IdlGen.Output.Basic

/-!
The statements of generated modules. If all names of an output are plain, the statements
follow from its declarations; otherwise the text of the module is read, with whatever
its names turn it into.
-/
namespace IdlGen

open Code

/-! ## Plain names and texts -/

def isPlainName (s : String) : Bool :=
  match s.toList with
  | [] => false
  | c :: rest =>
    (c.isAlpha || c == '_') && (rest.all fun c => c.isAlphanum || c == '_') && !Name.isReserved s

def isPlainPath (s : String) : Bool := (Text.split '.' s).all isPlainName

/-- Whether a text stands for itself between tripled quotes. -/
def isPlainRemark (s : String) : Bool :=
  s.toList.all fun c => c != '"' && c != '\\' && c != '\r' && c != '\x00'

def isPlainText (s : String) : Bool := isPlainRemark s && !s.toList.contains '\n'

/-! ## Expressions -/

def Ref.term (home : String) (r : Ref) : Term :=
  match Text.split '.' (r.lower (some home)) with
  | [] => .name ""
  | first :: rest => Term.dotted first rest

/-- A scalar as a term. Numbers that are not finite are written as conversions. -/
def Value.scalarTerm : Value → Term
  | .float x =>
    if x.isFinite then .literal (.float x)
    else .call (.name "float") [.literal (.text x.text)] []
  | v => .literal v

namespace Expr

mutual

def term (home : String) : Expr → Term
  | blank => .name ""
  | name id => .name id
  | ref r => r.term home
  | attr value a => .attr (term home value) a
  | literal v => v.scalarTerm
  | list items => .list (termAll home items)
  | tuple items => .tuple (termAll home items)
  | set items =>
    if items.isEmpty then .call (.name "set") [] [] else .set (termAll home items)
  | dict entries => .dict (termEntries home entries)
  | call func args kwargs =>
    .call (term home func) (termAll home args) (termKeywords home kwargs)
  | letAll constructor bindings =>
    .call ((Ref.strategy "builds").term home) [term home constructor] (termKeywords home bindings)
  | rebuild target fields =>
    .call (Ref.replace.term home) [term home target] (termKeywords home fields)

def termAll (home : String) : List Expr → List Term
  | [] => []
  | e :: rest => term home e :: termAll home rest

def termEntries (home : String) : List (Expr × Expr) → List (Term × Term)
  | [] => []
  | (k, v) :: rest => (term home k, term home v) :: termEntries home rest

def termKeywords (home : String) : List (String × Expr) → List (String × Term)
  | [] => []
  | (key, e) :: rest => (key, term home e) :: termKeywords home rest

end

def isScalar : Value → Bool
  | .null | .bool _ | .int _ | .float _ | .text _ | .bytes _ => true
  | _ => false

def isPlainNode (home : String) : Expr → Bool
  | blank => false
  | name id => isPlainName id
  | ref r => isPlainPath (r.lower (some home))
  | attr _ a => isPlainName a
  | literal v => isScalar v
  | call _ _ kwargs => kwargs.all fun arg => isPlainName arg.1
  | letAll _ bindings => bindings.all fun binding => isPlainName binding.1
  | rebuild _ fields => fields.all fun field => isPlainName field.1
  | _ => true

def isPlain (home : String) (e : Expr) : Bool := e.nodes.all (isPlainNode home)

end Expr

/-! ## Annotations -/

/-- The name that an annotation begins with in the module `home`, unless an attribute is taken
    of it. -/
def TypeHint.leading? (home : String) : TypeHint → Option String
  | .builtin w => some w
  | .cls r =>
    match Text.split '.' (r.lower (some home)) with
    | [only] => some only
    | _ => none
  | .list _ => some "list"
  | .tuple _ => some "tuple"
  | .set _ => some "set"
  | .frozenset _ => some "frozenset"
  | .dict _ _ => some "dict"
  | .pair _ _ => some "tuple"

def TypeHint.isPlain (home : String) : TypeHint → Bool
  | .builtin w => isPlainName w
  | .cls r => isPlainPath (r.lower (some home))
  | .list e => e.isPlain home
  | .tuple e => e.isPlain home
  | .set e => e.isPlain home
  | .frozenset e => e.isPlain home
  | .dict k v => k.isPlain home && v.isPlain home
  | .pair k v => k.isPlain home && v.isPlain home

/-! ## Declarations -/

namespace Declaration

def remark (text : String) : Statement := .expression (.literal (.text text))

def attributeStatement (home : String) (a : Attribute) : Statement :=
  .annotate (.name a.name) true (a.hint.leading? home) (some (.literal .null))

def frozenRecord : Term := .call (.name "dataclass") [] [("frozen", .literal (.bool true))]

def rowEntry (row : MethodRow) : Term × Term :=
  (.literal (.text row.name), .tuple [.name (row.stem ++ "Args"),
    if row.responds then .name (row.stem ++ "Response") else .literal .null])

def handlerStatement (m : HandlerMethod) : Statement :=
  .function m.name [] (⟨"self", none⟩ :: m.params.map fun p => ⟨p.name, none⟩)
    [.expression (.literal (.object "Ellipsis"))]

def statements (home : String) : Declaration → List Statement
  | source _ => []
  | record output kind declared attributes =>
    let decorator := if kind = "exception" then .name "dataclass" else frozenRecord
    let bases := if kind = "exception" then [.name "Exception"] else []
    [.classDef (Name.className output) [decorator] bases
      (remark (recordDoc kind declared) ::
        .annotate (.name "THRIFT_NAME") true (some "ClassVar") (some (.literal (.text output))) ::
        attributes.map (attributeStatement home))]
  | enumeration output declared members =>
    [.classDef (Name.className output) [] [.attr (.name "enum") "IntEnum"]
      (remark ("Thrift enum `" ++ declared ++ "`.") ::
        members.map fun m => .assign [.name (Name.sanitize m.1)] (.literal (.int m.2)))]
  | constants entries =>
    entries.map fun c =>
      .annotate (.name c.name) true (c.hint.leading? home) (some (c.value.term home))
  | arguments stem attributes =>
    [.classDef (stem ++ "Args") [frozenRecord] []
      (remark ("Arguments of `" ++ stem ++ "`.") :: attributes.map (attributeStatement home))]
  | response stem attributes =>
    [.classDef (stem ++ "Response") [frozenRecord] []
      (remark ("Result of `" ++ stem ++
          "`: the return value or one of the declared exceptions.") ::
        attributes.map (attributeStatement home))]
  | functionTable rows parent =>
    .annotate (.name "FUNCTIONS") true (some "dict") (some (.dict (rows.map rowEntry))) ::
      (parent.map fun output => .assign [.name "EXTENDS"] (.literal (.text output))).toList
  | handler output declared parent methods =>
    [.classDef (Name.className output) [] ((parent.map (Ref.term home)).toList ++ [.name "Protocol"])
      (remark ("Handler of service `" ++ declared ++ "`.") :: methods.map handlerStatement)]
  | generator _ subject strategy =>
    [.function "get_generator" [] [⟨"context", none⟩]
      [remark ("Returns a strategy that draws random " ++ subject ++ "."),
        .result (some (strategy.term home))]]
  | defaults _ param result =>
    [.function "apply_defaults" [] [⟨param, none⟩, ⟨"context", none⟩]
      [remark ("Returns `" ++ param ++ "` with declared defaults applied to every absent field."),
        .result (some (result.term home))]]

def arePlainAttributes (home : String) (attributes : List Attribute) : Bool :=
  attributes.all fun a => isPlainName a.name && a.hint.isPlain home

def isPlainMethod (home : String) (m : HandlerMethod) : Bool :=
  isPlainName m.name && arePlainAttributes home m.params &&
    m.returns.all fun hint => hint.isPlain home

def isPlain (home : String) : Declaration → Bool
  | source _ => false
  | record output _ declared attributes =>
    isPlainName (Name.className output) && isPlainText output && isPlainRemark declared &&
      arePlainAttributes home attributes
  | enumeration output declared members =>
    isPlainName (Name.className output) && isPlainRemark declared &&
      members.all fun m => isPlainName (Name.sanitize m.1)
  | constants entries =>
    entries.all fun c => isPlainName c.name && c.hint.isPlain home && c.value.isPlain home
  | arguments stem attributes =>
    isPlainName (stem ++ "Args") && arePlainAttributes home attributes
  | response stem attributes =>
    isPlainName (stem ++ "Response") && arePlainAttributes home attributes
  | functionTable rows parent =>
    (rows.all fun row => isPlainText row.name && isPlainName (row.stem ++ "Args")) &&
      parent.all isPlainText
  | handler output declared parent methods =>
    isPlainName (Name.className output) && isPlainRemark declared &&
      (parent.all fun r => isPlainPath (r.lower (some home))) &&
      methods.all (isPlainMethod home)
  | generator type subject strategy =>
    type.isPlain home && isPlainRemark subject && strategy.isPlain home
  | defaults type param result =>
    isPlainName param && type.isPlain home && result.isPlain home

end Declaration

/-! ## Modules -/

namespace Output

def importStatement? (line : String) : Option Statement :=
  match Text.split ' ' line with
  | ["import", path] => if isPlainPath path then some (.importModule path none) else none
  | ["from", path, "import", name] =>
    if isPlainPath path && isPlainName name then some (.importFrom path name none) else none
  | ["from", path, "import", name, "as", short] =>
    if isPlainPath path && isPlainName name && isPlainName short then
      some (.importFrom path name (some short))
    else none
  | _ => none

def plainStatements? (o : Output) : Option (List Statement) := do
  let imports ← o.runtimeImports.mapM importStatement?
  let guarded ← o.guardedImports.mapM importStatement?
  if isPlainRemark o.docstring && o.body.all (Declaration.isPlain o.home) then
    return Declaration.remark o.docstring :: .importFrom futureModule "annotations" none ::
      (imports ++ (if guarded.isEmpty then [] else [.branch (.name "TYPE_CHECKING") guarded []]) ++
        o.body.flatMap (Declaration.statements o.home))
  else none

def statements (o : Output) : Except SourceFault (List Statement) := do
  let body ← match o.plainStatements? with
    | some body => pure body
    | none => Parser.module o.render
  if mayRun body then return body else throw .malformed

end Output
end IdlGen
