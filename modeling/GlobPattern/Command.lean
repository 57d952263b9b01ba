import GlobPattern.CommandLine
import GlobPattern.Config
import GlobPattern.Dump
import GlobPattern.Lexer

/-!
# The command

The command reads its patterns one after the other and prints their dumps, or all of them as one
JSON list. An option of the command line wins over the configuration file. The first pattern that
the rule set fails on ends the command before anything is printed.

* `Command.Settings`, `Command.resolve`: what a command line and a configuration file ask for;
* `Command.Outcome`: an exit code with what is printed; `Command.Crash`: what no message of the
  command covers;
* `Command.tokenizeAll`, `Command.render`, `Command.execute`, `Command.run`.
-/

namespace GlobPattern.Command

/-! ## Texts -/

/-- How the command is used. -/
def usage : String :=
  "usage: globlex [-h] [--strict-open] [--nonegate] [--noglobstar]\n" ++
  "               [--config FILE] [--json]\n" ++
  "               PATTERN [PATTERN ...]\n"

/-- What the command does and what its arguments mean. -/
def help : String :=
  usage ++ "\n" ++
  "Tokenize glob patterns and print the node sequence\n" ++
  "\n" ++
  "positional arguments:\n" ++
  "  PATTERN        Glob pattern to tokenize\n" ++
  "\n" ++
  "options:\n" ++
  "  -h, --help     show this help message and exit\n" ++
  "  --strict-open  Match a leading ./ literally\n" ++
  "  --nonegate     Treat a leading ! as literal text\n" ++
  "  --noglobstar   Treat ** as a plain star\n" ++
  "  --config FILE  Config file (default: auto-discover globlex.toml)\n" ++
  "  --json         Print nodes as JSON\n"

/-- What is printed about a command line that is refused. -/
def refusal (e : UsageError) : String := usage ++ "globlex: error: " ++ e.message ++ "\n"

/-! ## Settings -/

/-- What the command is to do. -/
structure Settings where
  patterns : List String
  options : Options
  asJson : Bool
  deriving DecidableEq, Repr

/-- The options of a configuration file with those that the command line turns on. -/
def mergeOptions (config : Options) (a : Arguments) : Options where
  strictOpen := a.strictOpen || config.strictOpen
  noNegate := a.noNegate || config.noNegate
  noGlobstar := a.noGlobstar || config.noGlobstar

/-- What the arguments ask for, together with the configuration file, which is looked for in
`directory` unless they name it. -/
def resolve (stack : Toml.Stack) (read : Config.Reader) (directory : String) (a : Arguments) :
    Except Config.ConfigError Settings :=
  (Config.load stack read (Config.path a.config? directory)).map fun entries =>
    ⟨a.patterns, mergeOptions (Config.options entries) a, a.asJson⟩

/-! ## Outcomes -/

/-- An exit code with what is printed on the two streams. -/
structure Outcome where
  exitCode : Nat
  stdout : String
  stderr : String
  deriving DecidableEq, Repr

/-- What ends the command without an exit code. -/
inductive Crash where
  | config (e : Config.ConfigError)
  | failure (e : Failure)
  deriving DecidableEq, Repr

/-- Read patterns in order, up to the first failure. -/
def tokenizeAll (extend : RuleSet.Extension) (options : Options) :
    List String → Except Failure (List Ast)
  | [] => .ok []
  | pattern :: rest =>
    match tokenize extend options pattern.toList with
    | .error e => .error e
    | .ok ast => (tokenizeAll extend options rest).map (ast :: ·)

/-- What is printed about the patterns. -/
def render (asJson : Bool) (asts : List Ast) : String :=
  if asJson then (Json.arr (asts.map Ast.toJson)).text ++ "\n"
  else String.join (asts.map Ast.dump)

/-- Carry out settings. -/
def execute (extend : RuleSet.Extension) (s : Settings) : Except Crash Outcome :=
  match tokenizeAll extend s.options s.patterns with
  | .ok asts => .ok ⟨0, render s.asJson asts, ""⟩
  | .error (.lex e) => .ok ⟨1, "", e.text ++ "\n"⟩
  | .error e => .error (.failure e)

/-- Carry out a command line, where `read` finds the content of a file and `stack` is what there is
room for in reading it. -/
def run (stack : Toml.Stack) (read : Config.Reader) (extend : RuleSet.Extension)
    (argv : List String) : Except Crash Outcome :=
  match Arguments.parse argv with
  | .error .help => .ok ⟨0, help, ""⟩
  | .error (.refused e) => .ok ⟨2, "", refusal e⟩
  | .ok a =>
    match resolve stack read "." a with
    | .error .malformed =>
      .ok ⟨2, "", "error: " ++ Config.ConfigError.malformed.message ++ "\n"⟩
    | .error e => .error (.config e)
    | .ok s => execute extend s

end GlobPattern.Command
