import IdlGen.Value.Printer

/-!
Why a step of reading, generating, writing or running fails. Every fault is a cause;
`Fault.message?` is the one place where a cause becomes a sentence. Faults about the
shape of a document become part of an `invalidSchema` fault where a schema is read.
-/
namespace IdlGen

inductive SourceFault where
  | malformed
  /-- A line is indented further, or less far, than the lines around it allow. -/
  | indentation
  /-- Blanks and tabs are mixed so that the depth of a line depends on the width of a tab. -/
  | mixedBlanks
deriving DecidableEq, Repr, Inhabited

inductive Fault where
  -- Schema documents
  | noModuleName (path : String)
  | invalidType (type : Value) (module : Value)
  | fieldLacks (module : Value) (key : String)
  | repeatedFields (names : List Value) (module : Value)
  | invalidSchema (subject : String) (cause : Fault)
  | unreadable (path : String) (cause : Fault)
  | notADocument (path : String)
  | repeatedModule (module : Value)
  -- Shapes of values
  | notText (value : Value)
  | notAnObject (value : Value)
  | notIterable (value : Value)
  | notKeyed (value : Value)
  | unhashable (value : Value)
  | notNumeric (value : Value)
  | badNumber (value : Value)
  | infiniteNumber (value : Value)
  | badPair (length : Nat)
  | missingKey (key : Value)
  -- Names
  | unqualified (name : String)
  | unresolved (name : String)
  | aliasCycle (name : String)
  | unresolvedValue (name : String)
  | noCurrentModule
  | noGroup (module : Value)
  -- Generation
  | unknownPrimitive (name : String)
  | notGenerable (name : String)
  | endlessType
  | wrongEntity (name : String)
  | tooLarge (number : Int)
  | noSource
  | collision (name first second : String)
  | outputCount (expected given : Nat)
  -- Files
  | fileMissing (path : String)
  | isDirectory (path : String)
  | notDirectory (path : String)
  | fileExists (path : String)
  | malformedText
  | hugeInteger
  -- Running generated code
  | malformedSource (cause : SourceFault)
  | missingModule (path : String)
  | missingExport (name : String)
  | emptyPath
  | relativePath (path : String)
  | unboundName (name : String)
  | missingAttribute (name : String)
  | unexpectedArgument (name : String)
  | badClass (name : String)
  | mutableDefault (name : String)
  | repeatedMember (name : String)
  | reservedMember (name : String)
  | notCallable (name : String)
  | notAMember (value : Value)
  | notData (value : Value)
deriving Repr, Inhabited

namespace Fault

def isShape : Fault → Bool
  | notIterable _ | notKeyed _ | unhashable _ | notNumeric _ | badNumber _ | badPair _
  | missingKey _ => true
  | _ => false

def isSchema : Fault → Bool
  | noModuleName _ | invalidType .. | fieldLacks .. | repeatedFields .. | invalidSchema ..
  | unreadable .. | notADocument _ | repeatedModule _ => true
  | _ => false

def isCollision : Fault → Bool
  | collision .. => true
  | _ => false

/-- The key that a fault misses, as it stands at the end of a sentence. -/
def missing? : Fault → Option String
  | missingKey key => some key.literal
  | _ => none

def withCause (sentence : String) (cause : Fault) : String :=
  match cause.missing? with
  | some key => sentence ++ ": " ++ key
  | none => sentence

/-- The sentence for a cause; the causes without one show only their kind. -/
def message? : Fault → Option String
  | noModuleName path => some s!"Schema '{path}' has no module name."
  | invalidType type module =>
    some s!"Invalid type {type.literal} in module '{module.display}'."
  | fieldLacks module key => some s!"Field in module '{module.display}' is missing '{key}'."
  | repeatedFields names module =>
    some s!"Duplicate field names {(Value.list names).literal} in module '{module.display}'."
  | invalidSchema subject cause => some (withCause s!"Invalid schema '{subject}'" cause)
  | unreadable path cause => some (withCause s!"Cannot read schema '{path}'" cause)
  | notADocument path => some s!"Schema '{path}' must contain a JSON object."
  | repeatedModule module => some s!"Module '{module.display}' is defined more than once."
  | unqualified name => some s!"Name '{name}' is not qualified with a module."
  | unresolved name => some s!"Cannot resolve '{name}' in file group."
  | aliasCycle name => some s!"Typedef cycle through '{name}'."
  | unresolvedValue name => some s!"Cannot resolve value '{name}' in file group."
  | noCurrentModule =>
    some "The constants module can only be resolved with a current module."
  | noGroup module => some s!"Schema '{module.display}' has no file group attached."
  | unknownPrimitive name => some s!"Unknown primitive type '{name}'."
  | notGenerable name => some s!"Type TypeRef(name={Text.quoted name}) cannot be generated."
  | collision name first second =>
    some (s!"Name collision: '{name}' is generated by both a {first} and a {second}. " ++
      "Rename one of the declarations.")
  | outputCount expected given => some s!"Expected {expected} output directories, got {given}."
  | _ => none

end Fault
end IdlGen
