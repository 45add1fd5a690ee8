import IdlGen.Text.Digit
import IdlGen.Text.Split

/-!
The options of the command line. Arguments are first told apart into options and plain words,
all of them; then each option takes the plain words after it. Short options can be
joined in one argument, long ones shortened, and a value can be attached.
-/
namespace IdlGen.Command

structure Options where
  paths : List String := ["**/*.json"]
  excludes : List String := []
  outputDirectory : String := ""
  /-- The directory of the companions; if empty, that of the main modules. -/
  companionDirectory : String := ""
  recursive : Bool := false
  format : Bool := true
  verbose : Bool := false
deriving DecidableEq, Repr, Inhabited

inductive Stop where
  | help
  | misuse
deriving DecidableEq, Repr, Inhabited

def Stop.code : Stop → Nat
  | help => 0
  | misuse => 2

/-! ## Options -/

inductive OptionKey where
  | help
  | paths
  | excludes
  | output
  | companions
  | recursive
  | noFormat
  | verbose
deriving DecidableEq, Repr, Inhabited

inductive Arity where
  | zero
  | one
  | many
deriving DecidableEq, Repr, Inhabited

namespace OptionKey

def long : List (String × OptionKey) :=
  [("--help", help), ("--paths", paths), ("--excludes", excludes), ("--output-dir", output),
   ("--test-data-dir", companions), ("--recursive", recursive), ("--no-format", noFormat),
   ("--verbose", verbose)]

def short : List (Char × OptionKey) :=
  [('h', help), ('p', paths), ('e', excludes), ('o', output), ('t', companions),
   ('r', recursive), ('v', verbose)]

def arity : OptionKey → Arity
  | paths | excludes => .many
  | output | companions => .one
  | help | recursive | noFormat | verbose => .zero

def ofLetter? (letter : Char) : Option OptionKey := short.lookup letter

def ofName (name : String) : List OptionKey :=
  match long.lookup name with
  | some key => [key]
  | none => (long.filter fun entry => Text.hasStart name entry.1).map (·.2)

end OptionKey

/-! ## Words -/

inductive Attached where
  | nothing
  | value (text : String)
  | letters (text : List Char)
deriving DecidableEq, Repr, Inhabited

inductive Word where
  | plain (text : String)
  | divider
  | unknown
  | named (key : OptionKey) (attached : Attached)
deriving DecidableEq, Repr, Inhabited

/-- Whether the characters after a minus are those of a number: digits, or digits after a point
    that may have digits before it. A newline at the end does not count. -/
def isNumber (text : List Char) : Bool :=
  let text := if text.getLast? = some '\n' then text.dropLast else text
  match Text.cutFirst '.' text with
  | (digits, none) => !digits.isEmpty && digits.all Text.isDecimalDigit
  | (before, some after) =>
    before.all Text.isDecimalDigit && !after.isEmpty && after.all Text.isDecimalDigit

/-- A word that starts with a minus but is no option: one with a blank is plain. -/
def noOption (text : String) : Word :=
  if text.toList.contains ' ' then .plain text else .unknown

def wordOf (text : String) : Except Stop Word :=
  match text.toList with
  | '-' :: '-' :: _ =>
    let (name, value) := Text.cutFirst '=' text.toList
    match OptionKey.ofName (String.ofList name) with
    | [] => .ok (noOption text)
    | [key] => .ok (.named key (match value with
      | none => .nothing
      | some value => .value (String.ofList value)))
    | _ => .error .misuse
  | '-' :: letter :: rest =>
    match OptionKey.ofLetter? letter, rest with
    | some key, [] => .ok (.named key .nothing)
    | some key, '=' :: value => .ok (.named key (.value (String.ofList value)))
    | some key, rest => .ok (.named key (.letters rest))
    | none, rest => .ok (if isNumber (letter :: rest) then .plain text else noOption text)
  | _ => .ok (.plain text)

def wordsOf : List String → Except Stop (List Word)
  | [] => .ok []
  | "--" :: rest => .ok (.divider :: rest.map .plain)
  | text :: rest => do
    let word ← wordOf text
    return word :: (← wordsOf rest)

/-! ## Reading -/

structure Run where
  head : Word
  arguments : List String := []

def runsOf : List Word → List String × List Run
  | [] => ([], [])
  | .plain text :: rest => (text :: (runsOf rest).1, (runsOf rest).2)
  | head :: rest => ([], { head, arguments := (runsOf rest).1 } :: (runsOf rest).2)

structure Taken where
  key : OptionKey
  values : List String := []

structure Settings where
  taken : List Taken
  leftover : Bool := false

def takeWords (key : OptionKey) (arguments : List String) : Except Stop Settings :=
  match key.arity, arguments with
  | .zero, arguments => .ok { taken := [{ key }], leftover := !arguments.isEmpty }
  | _, [] => .error .misuse
  | .one, value :: rest => .ok { taken := [{ key, values := [value] }], leftover := !rest.isEmpty }
  | .many, values => .ok { taken := [{ key, values }] }

def takeValue (key : OptionKey) (value : String) (arguments : List String) :
    Except Stop Settings :=
  if key.arity = .zero then .error .misuse
  else .ok { taken := [{ key, values := [value] }], leftover := !arguments.isEmpty }

def takeLetters (arguments : List String) (key : OptionKey) : List Char → Except Stop Settings
  | [] => takeWords key arguments
  | c :: rest =>
    if key.arity ≠ .zero then takeValue key (String.ofList (c :: rest)) arguments
    else if c = '-' then .error .misuse
    else match OptionKey.ofLetter? c, rest with
      | none, _ => .ok { taken := [{ key }], leftover := true }
      | some next, '=' :: value => do
        let settings ← takeValue next (String.ofList value) arguments
        return { settings with taken := { key } :: settings.taken }
      | some next, rest => do
        let settings ← takeLetters arguments next rest
        return { settings with taken := { key } :: settings.taken }

def Run.settings (run : Run) : Except Stop Settings :=
  match run.head with
  | .named key .nothing => takeWords key run.arguments
  | .named key (.value value) => takeValue key value run.arguments
  | .named key (.letters letters) => takeLetters run.arguments key letters
  | .plain _ | .divider | .unknown => .ok { taken := [], leftover := true }

def Options.set (options : Options) (taken : Taken) : Except Stop Options :=
  match taken.key with
  | .help => .error .help
  | .paths => .ok { options with paths := taken.values }
  | .excludes => .ok { options with excludes := taken.values }
  | .output => .ok { options with outputDirectory := taken.values.headD "" }
  | .companions => .ok { options with companionDirectory := taken.values.headD "" }
  | .recursive => .ok { options with recursive := true }
  | .noFormat => .ok { options with format := false }
  | .verbose => .ok { options with verbose := true }

def addRun (state : Options × Bool) (run : Run) : Except Stop (Options × Bool) := do
  let settings ← run.settings
  let options ← settings.taken.foldlM Options.set state.1
  return (options, state.2 || settings.leftover)

def Options.ofArguments (arguments : List String) : Except Stop Options := do
  let (first, runs) := runsOf (← wordsOf arguments)
  let (options, leftover) ← runs.foldlM addRun ({}, !first.isEmpty)
  if leftover then throw .misuse
  return options

end IdlGen.Command
