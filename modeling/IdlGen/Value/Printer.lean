import IdlGen.Number.Notation
import IdlGen.Text.Quoted
import IdlGen.Value.Basic

/-!
Values as text: the literal that denotes a value in the generated code and in messages,
and the plain text of a value inside a sentence.
-/
namespace IdlGen.Value

def boolWord (b : Bool) : String := if b then "True" else "False"

def bracketed (left right : String) (items : List String) : String :=
  left ++ ", ".intercalate items ++ right

def tupleText : List String → String
  | [item] => "(" ++ item ++ ",)"
  | items => bracketed "(" ")" items

def lastPart (name : String) : String := (Text.partitionLast '.' name).2

mutual

def literal : Value → String
  | null => "None"
  | bool b => boolWord b
  | int n => integerText n
  | float x => x.text
  | text s => Text.quoted s
  | bytes data => Text.quotedBytes data
  | ref name => "ValueRef(name=" ++ Text.quoted name ++ ")"
  | list items => bracketed "[" "]" (literals items)
  | tuple items => tupleText (literals items)
  | set items => if items.isEmpty then "set()" else bracketed "\x7b" "\x7d" (literals items)
  | frozenset items =>
    if items.isEmpty then "frozenset()" else bracketed "frozenset(\x7b" "\x7d)" (literals items)
  | dict entries => bracketed "\x7b" "\x7d" (entryLiterals entries)
  | member owner name n => "<" ++ lastPart owner ++ "." ++ name ++ ": " ++ integerText n ++ ">"
  | record cls fields => bracketed (lastPart cls.name ++ "(") ")" (fieldLiterals fields)
  | object name => "<" ++ name ++ ">"

def literals : List Value → List String
  | [] => []
  | v :: rest => literal v :: literals rest

def entryLiterals : List (Value × Value) → List String
  | [] => []
  | (k, v) :: rest => (literal k ++ ": " ++ literal v) :: entryLiterals rest

def fieldLiterals : List (String × Value) → List String
  | [] => []
  | (name, v) :: rest => (name ++ "=" ++ literal v) :: fieldLiterals rest

end

/-- A value inside a sentence: a text as it stands, an enum member as its number, and anything
    else as its literal. -/
def display : Value → String
  | text s => s
  | member _ _ n => integerText n
  | v => literal v

end IdlGen.Value
