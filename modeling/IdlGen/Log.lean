/-!
Lines of the log. A line has a level and names the part of the program that wrote it.
-/
namespace IdlGen

inductive LogLevel where
  | debug
  | info
  | warning
  | error
deriving DecidableEq, Repr, Inhabited

def LogLevel.word : LogLevel → String
  | debug => "DEBUG"
  | info => "INFO"
  | warning => "WARNING"
  | error => "ERROR"

structure LogLine where
  level : LogLevel
  part : String
  message : String
deriving DecidableEq, Repr, Inhabited

def LogLine.text (line : LogLine) : String :=
  line.level.word ++ ":thrift_generator." ++ line.part ++ ":" ++ line.message

end IdlGen
