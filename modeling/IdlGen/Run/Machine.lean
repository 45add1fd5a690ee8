import IdlGen.Run.Object

/-!
The state of a running program: modules with the names they have bound, and which of them
are loaded under which path. Modules are numbered; a module that failed to load keeps
its number, but its path is free again. The libraries that generated modules use are loaded
from the start.
-/
namespace IdlGen.Run

structure Module where
  path : String
  isPackage : Bool
  names : Table Object := []
  annotated : List String := []
deriving Inhabited

/-! ## Libraries -/

def strategiesPath : String := "hypothesis.strategies"

def supportNames : List String :=
  ["optional", "list_of", "set_of", "tuple_of", "frozenset_of", "unique_list_of", "dict_of",
    "frozen_items_of", "pairs_of", "nested", "default_if_absent", "union_default",
    "apply_defaults"]

def supportExtras : Table Object :=
  [("enum", .module 2), ("st", .module 0), ("dataclass", .native .dataclass),
    ("replace", .native .replace), ("THRIFT_NAME_ATTRIBUTE", .value (.text "THRIFT_NAME"))] ++
  ["GenerationContext", "companion_module", "fields", "importlib", "logging", "helper", "logger",
    "Callable", "ModuleType", "Any", "TypeVar", "T", "K", "V"].map fun name => (name, .other name)

/-- The libraries that generated modules import, with what they export. Those that others name
    come first. -/
def usedLibraries : List Module :=
  [{ path := strategiesPath, isPackage := false },
    { path := "thrift_generator.runtime", isPackage := false
      names := (supportNames.map fun name => (name, .support name)) ++ supportExtras },
    { path := "enum", isPackage := false
      names := [("IntEnum", .native .intEnum), ("Enum", .native .enumBase),
        ("Flag", .native .enumBase), ("IntFlag", .native .enumBase),
        ("StrEnum", .native .enumBase), ("ReprEnum", .native .enumBase)] },
    { path := "hypothesis", isPackage := true, names := [("strategies", .module 0)] },
    { path := "thrift_generator", isPackage := true, names := [("runtime", .module 1)] },
    { path := "__future__", isPackage := false, names := [("annotations", .other "annotations")] },
    { path := "dataclasses", isPackage := false
      names := [("dataclass", .native .dataclass), ("replace", .native .replace)] },
    { path := "typing", isPackage := false
      names := [("ClassVar", .native .classVar), ("Protocol", .native .protocol),
        ("TYPE_CHECKING", .value (.bool false))] }]

def otherLibraries : List String :=
  ["abc", "argparse", "ast", "atexit", "bisect", "builtins", "codecs", "contextlib", "copy",
    "copyreg", "dis", "errno", "fnmatch", "functools", "genericpath", "gettext", "glob",
    "inspect", "io", "itertools", "keyword", "linecache", "locale", "marshal", "math", "ntpath",
    "opcode", "operator", "os", "pathlib", "posix", "posixpath", "random", "reprlib", "select",
    "selectors", "shutil", "signal", "site", "stat", "string", "subprocess", "sys", "tempfile",
    "textwrap", "threading", "time", "token", "tokenize", "traceback", "types", "warnings",
    "weakref", "zipimport", "zlib"]

def otherPackages : List String :=
  ["collections", "encodings", "importlib", "json", "logging", "re", "urllib"]

def libraries : List Module :=
  usedLibraries ++ (otherLibraries.map fun path => { path, isPackage := false }) ++
    otherPackages.map fun path => { path, isPackage := true }

def laterLibraries : List String :=
  ["aifc", "antigravity", "array", "asynchat", "asyncore", "audioop", "base64", "bdb", "binascii",
    "bz2", "cProfile", "calendar", "cgi", "cgitb", "chunk", "cmath", "cmd", "code", "codeop",
    "colorsys", "compileall", "configparser", "contextvars", "crypt", "csv", "datetime", "decimal",
    "difflib", "distutils", "doctest", "faulthandler", "fcntl", "filecmp", "fileinput", "fractions",
    "ftplib", "gc", "getopt", "getpass", "graphlib", "grp", "gzip", "hashlib", "heapq", "hmac",
    "imaplib", "imghdr", "imp", "ipaddress", "lzma", "mailbox", "mailcap", "mimetypes", "mmap",
    "modulefinder", "netrc", "nntplib", "nturl2path", "numbers", "optparse", "ossaudiodev", "pdb",
    "pickle", "pickletools", "pipes", "pkgutil", "platform", "plistlib", "poplib", "pprint",
    "profile", "pstats", "pty", "pwd", "py_compile", "pyclbr", "pydoc", "pyexpat", "queue",
    "quopri", "readline", "resource", "rlcompleter", "runpy", "sched", "secrets", "shelve", "shlex",
    "smtpd", "smtplib", "sndhdr", "socket", "socketserver", "spwd", "sre_compile", "sre_constants",
    "sre_parse", "ssl", "statistics", "stringprep", "struct", "sunau", "symtable", "sysconfig",
    "syslog", "tabnanny", "tarfile", "telnetlib", "termios", "this", "timeit", "trace",
    "tracemalloc", "tty", "turtle", "unicodedata", "uu", "uuid", "wave", "webbrowser", "xdrlib",
    "zipapp", "zipfile"]

def laterPackages : List String :=
  ["asyncio", "concurrent", "ctypes", "curses", "dbm", "email", "ensurepip", "html", "http",
    "idlelib", "lib2to3", "multiprocessing", "pydoc_data", "sqlite3", "tkinter", "tomllib",
    "turtledemo", "unittest", "venv", "wsgiref", "xml", "xmlrpc", "zoneinfo"]

def laterLibrary? (path : String) : Option Module :=
  if laterLibraries.contains path then some { path, isPackage := false }
  else if laterPackages.contains path then some { path, isPackage := true }
  else none

/-! ## Machines -/

structure Machine where
  modules : List Module := libraries
  loaded : Table Nat := libraries.zipIdx.map fun entry => (entry.1.path, entry.2)

/-- A step of a running program. What it changed before a failure stays changed. -/
abbrev Running := ExceptT Fault (StateM Machine)

namespace Running

def of {α : Type} (outcome : Except Fault α) : Running α :=
  match outcome with
  | .ok a => pure a
  | .error fault => throw fault

def moduleAt (id : Nat) : Running Module := do return (← get).modules.getD id default

def changeModule (id : Nat) (change : Module → Module) : Running Unit :=
  modify fun m => { m with modules := m.modules.modify id change }

def bindName (id : Nat) (name : String) (o : Object) : Running Unit :=
  changeModule id fun m => { m with names := m.names.put name o }

def noteAnnotation (id : Nat) (name : String) : Running Unit :=
  changeModule id fun m =>
    { m with annotated := if m.annotated.contains name then m.annotated else m.annotated ++ [name] }

def loaded? (path : String) : Running (Option Nat) := do return (← get).loaded.get? path

def addModule (m : Module) : Running Nat := do
  let id := (← get).modules.length
  modify fun machine =>
    { modules := machine.modules ++ [m], loaded := machine.loaded.put m.path id }
  return id

def unload (path : String) : Running Unit :=
  modify fun m => { m with loaded := m.loaded.filter fun entry => entry.1 != path }

end Running
end IdlGen.Run
