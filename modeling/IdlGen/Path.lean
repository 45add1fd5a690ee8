import IdlGen.Text.Split

/-!
File paths as texts: a slash separates the components, and a path that starts with a
slash is absolute.
-/
namespace IdlGen.Path

def isAbsolute (path : String) : Bool := Text.hasStart "/" path

/-- A path below another. An absolute path stands for itself. -/
def join (base path : String) : String :=
  if isAbsolute path then path
  else if base = "" || Text.hasEnding "/" base then base ++ path
  else base ++ "/" ++ path

def joinAll : List String → String
  | [] => ""
  | first :: rest => rest.foldl join first

/-- The directory and the last component. The directory loses the slashes at its end unless
    it has nothing else. -/
def splitLast (path : String) : String × String :=
  match Text.cutLast '/' path.toList with
  | (none, last) => ("", String.ofList last)
  | (some before, last) =>
    let kept := (before.reverse.dropWhile (· == '/')).reverse
    (String.ofList (if kept.isEmpty then before ++ ['/'] else kept), String.ofList last)

def directory (path : String) : String := (splitLast path).1

def fileName (path : String) : String := (splitLast path).2

def withoutEnding (fileName : String) : String :=
  let chars := fileName.toList
  let dots := chars.takeWhile (· == '.')
  match Text.cutLast '.' (chars.dropWhile (· == '.')) with
  | (some before, _) => String.ofList (dots ++ before)
  | (none, _) => fileName

/-- One component after the ones kept so far (last first): `.` and empty components vanish, and
    `..` removes a component. -/
def normalStep (absolute : Bool) (kept : List String) (component : String) : List String :=
  if component = "" || component = "." then kept
  else if component = ".." then
    match kept with
    | [] => if absolute then [] else [".."]
    | last :: before => if last = ".." then ".." :: kept else before
  else component :: kept

/-- The slashes at the start of a normal path: two stay two, any other number becomes one. -/
def rootSlashes (path : String) : String :=
  match path.toList.takeWhile (· == '/') with
  | [] => ""
  | [_, _] => "//"
  | _ => "/"

def normalize (path : String) : String :=
  let kept := (Text.split '/' path).foldl (normalStep (isAbsolute path)) []
  let normal := rootSlashes path ++ Text.join "/" kept.reverse
  if normal = "" then "." else normal

def absolute (working path : String) : String := normalize (join working path)

end IdlGen.Path
