import IdlGen.Text.Case
import IdlGen.Path
import IdlGen.Fault

/-!
Names of declarations, outputs and modules. A declaration is known by its qualified
name `module.Local`; what is generated for it has an output name such as `MyApp.Point`,
a module path `my_app.point` and a file `my_app/point.py`.
-/
namespace IdlGen.Name

/-! ## Reserved words -/

def reserved : List String :=
  ["False", "None", "True", "and", "as", "assert", "async", "await", "break", "class", "continue",
    "def", "del", "elif", "else", "except", "finally", "for", "from", "global", "if", "import",
    "in", "is", "lambda", "nonlocal", "not", "or", "pass", "raise", "return", "try", "while",
    "with", "yield"]

def isReserved (name : String) : Bool := reserved.contains name

def sanitize (name : String) : String := if isReserved name then name ++ "_" else name

/-- The attribute name of a field. A name that is not a text cannot be reserved. -/
def attributeName : Value → String
  | .text s => sanitize s
  | v => v.display

/-! ## Case styles -/

def camelize (name : String) : String :=
  String.ofList ((Text.splitAt '_' name.toList).flatMap Text.upperFirst)

def isCapital (c : Char) : Bool := decide ('A' ≤ c) && decide (c ≤ 'Z')

def isSmall (c : Char) : Bool := decide ('a' ≤ c) && decide (c ≤ 'z')

/-- Whether a new word starts at `current`: a capital after a small letter or a digit, or the
    last capital of a run before a small letter. -/
def startsWord (previous current : Char) (next : Option Char) : Bool :=
  isCapital current &&
    (isSmall previous || Text.isDecimalDigit previous || (isCapital previous && next.any isSmall))

def separateWords : List Char → List Char
  | [] => []
  | [c] => [c]
  | previous :: current :: rest =>
    if startsWord previous current rest.head? then
      previous :: '_' :: separateWords (current :: rest)
    else previous :: separateWords (current :: rest)

def underscore (name : String) : String :=
  String.ofList (Text.lower ((separateWords name.toList).map fun c => if c = '-' then '_' else c))

def capitalize (name : String) : String := String.ofList (Text.capitalize name.toList)

/-! ## Qualified names -/

def split (name : String) : Except Fault (String × String) :=
  let (module, rest) := Text.partition '.' name
  if rest = "" then .error (.unqualified name) else .ok (module, rest)

def last (name : String) : String := (Text.partitionLast '.' name).2

/-! ## Outputs -/

def className (output : String) : String := last output

def modulePath (output : String) : String :=
  Text.join "." ((Text.split '.' output).map underscore)

def sourceEnding : String := ".py"

def targetPath (output : String) : String :=
  Path.joinAll (Text.split '.' (modulePath output)) ++ sourceEnding

def companion (output : String) : String := output ++ "TestData"

def documentEnding : String := ".json"

def schemaEnding : String := ".thrift"

def ofFileName (fileName : String) : String :=
  Text.replaceChar '-' '_' ((Text.dropEnding? schemaEnding fileName).getD fileName)

end IdlGen.Name
