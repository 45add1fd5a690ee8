import IdlGen.Output.Draft

/-!
Outputs for services: the classes of the arguments and results of their functions, with a
table of them, and the protocol that a handler follows.
-/
namespace IdlGen.Emit

/-- The fields of the result of a function: its value and its exceptions. A oneway function has
    no result. -/
def responseFields? (m : Method) : Option (List Field) :=
  if m.oneway then none
  else
    let success : Option Field := m.returns.map fun type => { name := .text "success", type }
    some (success.toList ++ m.throws)

def methodRow (m : Method) : Drafting MethodRow := do
  match m.name with
  | .text name =>
    let stem := Name.camelize name
    Drafting.add (.arguments stem (← Drafting.attributes m.params))
    match responseFields? m with
    | none => return { name, stem, responds := false }
    | some fields =>
      Drafting.add (.response stem (← Drafting.attributes fields))
      return { name, stem, responds := true }
  | v => throw (.notText v)

def service (g : Group) (path : Value) (s : Service) : Except Fault Output := do
  let name ← g.outputName s.name
  Drafting.run (.start g name "service" .types path) do
    Drafting.addImport "from dataclasses import dataclass"
    let rows ← s.methods.mapM methodRow
    let parent ← Drafting.ofExcept (s.extends?.mapM g.outputName)
    Drafting.add (.functionTable rows parent)

def handlerOutput (g : Group) (service : String) : Except Fault String := do
  return (← g.outputName service) ++ "Handler"

def handlerRef (g : Group) (service : String) : Except Fault Ref := do
  let output ← handlerOutput g service
  return { module := Name.modulePath output, attr := Name.className output }

def resultHint (m : Method) : Drafting (Option TypeHint) :=
  match m.oneway, m.returns with
  | false, some type => some <$> Drafting.annotate type false
  | _, _ => pure none

def handlerMethod (m : Method) : Drafting HandlerMethod := do
  let params ← Drafting.attributes m.params
  let returns ← resultHint m
  if !m.name.hashable then throw (.unhashable m.name)
  return { name := Name.attributeName m.name, params, returns }

def handler (g : Group) (path : Value) (s : Service) : Except Fault Output := do
  let name ← handlerOutput g s.name
  Drafting.run (.start g name "behaviour" .types path) do
    Drafting.addImport "from typing import Protocol"
    let parent ← Drafting.ofExcept (s.extends?.mapM (handlerRef g))
    if let some r := parent then
      let _ ← Drafting.uses (.ref r)
    Drafting.add (.handler name (Name.last s.name) parent (← s.methods.mapM handlerMethod))

end IdlGen.Emit
