import IdlGen.Output.Declaration

/-!
Outputs: self-contained blocks of generated code, each to be written as one module.
-/
namespace IdlGen

/-- What an output declares. Only constants can be merged into another output. -/
inductive OutputKind where
  | types
  | constants
deriving DecidableEq, Repr, Inhabited

structure Output where
  /-- The name that the output is written under, such as `MyApp.Point`. -/
  name : String
  kind : OutputKind := .types
  /-- The word for what generated it, such as `struct`. -/
  generator : String := "struct"
  docstring : String := ""
  imports : List String := []
  /-- Imports that only annotations need. -/
  typeImports : List String := []
  body : List Declaration := []
deriving Repr, Inhabited

abbrev Named := String × Output

namespace Output

def home (o : Output) : String := Name.modulePath o.name

def isConstant (o : Output) : Bool := o.kind == .constants

def bodyTexts (o : Output) : List String := o.body.map (Declaration.text o.home)

def futureImport : String := "from __future__ import annotations"

def typeCheckingImport : String := "from typing import TYPE_CHECKING"

def guardedImports (o : Output) : List String :=
  let plain := (firstOccurrences o.imports).filter (· != futureImport)
  (firstOccurrences o.typeImports).filter fun line => !plain.contains line

def runtimeImports (o : Output) : List String :=
  let plain := (firstOccurrences o.imports).filter (· != futureImport)
  if !o.guardedImports.isEmpty && !plain.contains typeCheckingImport then
    plain ++ [typeCheckingImport]
  else plain

def dropLineEnds (text : String) : String :=
  String.ofList (text.toList.reverse.dropWhile (· == '\n')).reverse

def lines (o : Output) : List String :=
  ["\"\"\"" ++ o.docstring ++ "\"\"\"", "", futureImport, ""] ++ o.runtimeImports ++
  (if o.guardedImports.isEmpty then []
   else ["", "if TYPE_CHECKING:"] ++ o.guardedImports.map Declaration.indented) ++
  o.bodyTexts.flatMap fun text => ["", "", dropLineEnds text]

def render (o : Output) : String := Text.join "\n" o.lines ++ "\n"

end Output
end IdlGen
