import GlobPattern.Ast
import GlobPattern.Toml.Document

/-!
# Configuration files

Options can be set in the table `options` of a TOML file. A file that does not exist sets nothing,
and neither does one without such a table.

* `Path`, `Path.ofString`, `Path.text`, `Path.child`: a path is a sequence of parts with slashes
  between them; empty parts and `.` do not count; `Path.Start`: it begins at the directory at hand,
  at the root, or at a root spelt with two slashes, which the system may tell from the root; three
  slashes and more are the root again;
* `Config.path`: the file that is consulted; `Config.PathError`, `Config.Reader`: what finds its
  content, or why the system does not look for it;
* `Config.ConfigError`: why a file is refused;
* `Config.ofBytes`, `Config.load`: the tables of a file; `Config.options`: what they set.
-/

namespace GlobPattern

/-! ## Paths -/

/-- Where a path begins. -/
inductive Path.Start where
  | here
  | root
  | doubleRoot
  deriving DecidableEq, Repr, Inhabited

/-- A path from the root or from the directory at hand. -/
structure Path where
  start : Path.Start
  parts : List String
  deriving DecidableEq, Repr, Inhabited

namespace Path

/-- The beginning that a number of leading slashes spells. -/
def Start.ofSlashes : Nat → Start
  | 0 => here
  | 2 => doubleRoot
  | _ => root

/-- The slashes that spell a beginning. -/
def Start.text : Start → String
  | here => ""
  | root => "/"
  | doubleRoot => "//"

/-- The path that a text spells. -/
def ofString (s : String) : Path where
  start := .ofSlashes (s.toList.takeWhile (· == '/')).length
  parts := (s.splitOn "/").filter fun part => part ≠ "" ∧ part ≠ "."

/-- The shortest spelling of a path. -/
def text (p : Path) : String := p.start.text ++ "/".intercalate p.parts

/-- The path of what has the name in the directory under a path. -/
def child (p : Path) (name : String) : Path := { p with parts := p.parts ++ [name] }

end Path

end GlobPattern

namespace GlobPattern.Config

/-! ## Files -/

/-- The number under which the system reports why it does not follow a path. -/
structure PathError where
  code : Nat
  deriving DecidableEq, Repr

/-- Why a configuration file is refused. -/
inductive ConfigError where
  | path (e : PathError)
  | notText
  | malformed
  | tooManyDigits (count : Nat)
  | tooDeep
  deriving DecidableEq, Repr

/-- The wording of a refusal. -/
def ConfigError.message : ConfigError → String
  | path e => toString e.code
  | notText => "config file is not UTF-8 text"
  | malformed => "invalid config file: <toml>"
  | tooManyDigits count =>
    "Exceeds the limit (" ++ toString Toml.maxDigits ++
      " digits) for integer string conversion: value has " ++ toString count ++
      " digits; use sys.set_int_max_str_digits() to increase the limit"
  | tooDeep => "maximum recursion depth exceeded"

/-- The name under which a configuration file is looked for. -/
def fileName : String := "globlex.toml"

/-- The file that is consulted: the one that is given, unless its name is empty, or the one in a
directory. -/
def path (given? : Option String) (directory : String) : String :=
  match given?.filter (· ≠ "") with
  | some p => p
  | none => ((Path.ofString directory).child fileName).text

/-- What finds the content of the file under a path, if there is one. -/
abbrev Reader := String → Except PathError (Option ByteArray)

/-- The tables of a file. -/
def ofBytes (stack : Toml.Stack) (content : ByteArray) : Except ConfigError Toml.Entries :=
  match String.fromUTF8? content with
  | none => .error .notText
  | some text =>
    match Toml.document stack text.toList with
    | .ok entries => .ok entries
    | .error .malformed => .error .malformed
    | .error (.tooManyDigits count) => .error (.tooManyDigits count)
    | .error .tooDeep => .error .tooDeep

/-- The tables of the file that `read` finds under a path. -/
def load (stack : Toml.Stack) (read : Reader) (path : String) :
    Except ConfigError Toml.Entries :=
  match read path with
  | .error e => .error (.path e)
  | .ok none => .ok []
  | .ok (some content) => ofBytes stack content

/-- The options that a file sets. -/
def options (entries : Toml.Entries) : Options :=
  match entries.table? "options" with
  | some table => Options.ofFlags table.flag?
  | none => {}

end GlobPattern.Config
