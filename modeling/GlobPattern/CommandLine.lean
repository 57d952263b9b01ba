import GlobPattern.Text.Character

/-!
# The command line

The command takes one or more patterns and a few options. An argument that begins with a hyphen
names an option, in full or by a beginning that only one long option has, and may carry a value
behind an equals sign. A lone hyphen, a negative number and an argument with a blank are operands
all the same, and so is everything behind the first `--`.

The first unbroken run of operands are the patterns; operands that come after it are not
recognised.

* `Switch`: the options; `Word`, `Word.ofArgument`: what an argument is;
* `Arguments`: what a command line says; `UsageError`, `Stop`: why it says nothing;
* `Progress`, `Progress.consume`: the words in order; `Arguments.ofWords`, `Arguments.parse`.
-/

namespace GlobPattern

/-- The options of the command. -/
inductive Switch where
  | help
  | strictOpen
  | noNegate
  | noGlobstar
  | config
  | json
  deriving DecidableEq, Repr

namespace Switch

/-- The spellings of the options, in the order in which they are listed. -/
def spellings : List (String × Switch) :=
  [("-h", help), ("--help", help), ("--strict-open", strictOpen), ("--nonegate", noNegate),
    ("--noglobstar", noGlobstar), ("--config", config), ("--json", json)]

/-- The option of a spelling. -/
def ofSpelling? (s : List Char) : Option Switch := spellings.lookup (String.ofList s)

/-- How a message names an option. -/
def label (s : Switch) : String :=
  "/".intercalate ((spellings.filter (·.2 == s)).map (·.1))

end Switch

/-- Why a command line is refused. -/
inductive UsageError where
  | ambiguous (argument : String) (candidates : List String)
  | missingValue (s : Switch)
  | unexpectedValue (s : Switch) (value : List Char)
  | missingPattern
  | unrecognized (arguments : List String)
  deriving DecidableEq, Repr

/-- The wording of a refusal. -/
def UsageError.message : UsageError → String
  | ambiguous argument candidates =>
    "ambiguous option: " ++ argument ++ " could match " ++ ", ".intercalate candidates
  | missingValue s => "argument " ++ s.label ++ ": expected one argument"
  | unexpectedValue s value =>
    "argument " ++ s.label ++ ": ignored explicit argument " ++
      String.ofList (Text.quoted value)
  | missingPattern => "the following arguments are required: PATTERN"
  | unrecognized arguments => "unrecognized arguments: " ++ " ".intercalate arguments

/-! ## Words -/

/-- What an argument is: an operand, the divider `--`, an option that may carry a value, the short
help option with what is attached to it, or an option that does not exist. -/
inductive Word where
  | operand (s : String)
  | divider
  | switch (s : Switch) (value? : Option (List Char))
  | cluster (attached : List Char)
  | unknown (s : String)
  deriving DecidableEq, Repr

namespace Word

/-- A number: digits, or a point with digits behind it. -/
def isNumber (s : List Char) : Bool :=
  let rest := s.dropWhile Text.isDecimalDigit
  (!s.isEmpty && rest.isEmpty) ||
    (rest.head? == some '.' && 2 ≤ rest.length && (rest.drop 1).all Text.isDecimalDigit)

/-- A hyphen with a number behind it, and perhaps a line feed. -/
def isNegativeNumber : List Char → Bool
  | '-' :: s => isNumber s || (s.getLast? == some '\n' && isNumber s.dropLast)
  | _ => false

/-- The name of an option and the value behind an equals sign. -/
def splitValue (s : List Char) : List Char × Option (List Char) :=
  match s.dropWhile (· != '=') with
  | [] => (s, none)
  | _ :: value => (s.takeWhile (· != '='), some value)

/-- The long options that `name` begins. -/
def candidates (name : List Char) : List (String × Switch) :=
  Switch.spellings.filter fun (spelling, _) => name.isPrefixOf spelling.toList

/-- An argument that begins with a hyphen but spells no option. -/
def ofRest (argument : String) : Word :=
  if isNegativeNumber argument.toList || ' ' ∈ argument.toList then .operand argument
  else .unknown argument

/-- What an argument other than the divider is. -/
def ofArgument (argument : String) : Except UsageError Word :=
  let s := argument.toList
  let (name, value?) := splitValue s
  if s.head? ≠ some '-' then .ok (.operand argument)
  else
    match Switch.ofSpelling? s, s with
    | some sw, _ => .ok (.switch sw none)
    | none, '-' :: '-' :: _ =>
      match Switch.ofSpelling? name, candidates name with
      | some sw, _ => .ok (.switch sw value?)
      | none, [] => .ok (ofRest argument)
      | none, [(_, sw)] => .ok (.switch sw value?)
      | none, several => .error (.ambiguous argument (several.map (·.1)))
    | none, '-' :: 'h' :: '=' :: attached => .ok (.cluster attached)
    | none, '-' :: 'h' :: attached => .ok (.cluster attached)
    | none, ['-'] => .ok (.operand argument)
    | none, _ => .ok (ofRest argument)

/-- What the arguments are; behind the divider all are operands. -/
def ofArguments : List String → Except UsageError (List Word)
  | [] => .ok []
  | argument :: rest =>
    if argument = "--" then .ok (.divider :: rest.map .operand)
    else
      match ofArgument argument with
      | .error e => .error e
      | .ok w => (ofArguments rest).map (w :: ·)

end Word

/-! ## Arguments -/

/-- What a command line says. -/
structure Arguments where
  patterns : List String := []
  strictOpen : Bool := false
  noNegate : Bool := false
  noGlobstar : Bool := false
  config? : Option String := none
  asJson : Bool := false
  deriving DecidableEq, Repr, Inhabited

/-- Why a command line is not carried out: help is asked for, or it is refused. -/
inductive Stop where
  | help
  | refused (e : UsageError)
  deriving DecidableEq, Repr

/-- How far the patterns are: not begun, being taken, or complete. -/
inductive Phase where
  | before
  | taking
  | complete
  deriving DecidableEq, Repr, Inhabited

/-- The arguments said so far, and those that are not recognised. -/
structure Progress where
  arguments : Arguments := {}
  phase : Phase := .before
  extras : List String := []
  deriving DecidableEq, Repr, Inhabited

namespace Progress

/-- An argument that is not recognised. -/
def extra (p : Progress) (s : String) : Progress := { p with extras := p.extras ++ [s] }

/-- The run of patterns ends, if it has begun. -/
def interrupt (p : Progress) : Progress :=
  { p with phase := if p.phase = .taking then .complete else p.phase }

/-- An operand is a pattern, until the run of patterns is complete. -/
def operand (p : Progress) (s : String) : Progress :=
  if p.phase = .complete then p.extra s
  else { p with
    arguments := { p.arguments with patterns := p.arguments.patterns ++ [s] }, phase := .taking }

/-- Set an option without a value. -/
def enable (p : Progress) (s : Switch) : Progress :=
  let a := p.arguments
  { p.interrupt with
    arguments := match s with
      | .strictOpen => { a with strictOpen := true }
      | .noNegate => { a with noNegate := true }
      | .noGlobstar => { a with noGlobstar := true }
      | .json => { a with asJson := true }
      | .help | .config => a }

/-- Name the configuration file, or none; the last word counts. -/
def setConfig (p : Progress) (path? : Option String) : Progress :=
  { p.interrupt with arguments := { p.arguments with config? := path? } }

/-- The file that a value behind an equals sign names. A divider there names none. -/
def configFile? (value : List Char) : Option String :=
  if value = ['-', '-'] then none else some (String.ofList value)

/-- The short help option with more attached: further `h` repeat it, anything else is refused. -/
def ofCluster (attached : List Char) : Stop :=
  let rest := attached.dropWhile (· == 'h')
  if rest = [] ∧ attached ≠ [] then .help else .refused (.unexpectedValue .help rest)

/-- Take the words in order. A divider that no pattern follows or precedes is not recognised. -/
def consume : List Word → Progress → Except Stop Progress
  | [], p => .ok p
  | .operand s :: rest, p => consume rest (p.operand s)
  | .divider :: rest, p =>
    if p.phase = .complete ∨ p.phase = .before ∧ rest = [] then consume rest (p.extra "--")
    else consume rest p
  | .unknown s :: rest, p => consume rest (p.interrupt.extra s)
  | .cluster attached :: _, _ => .error (ofCluster attached)
  | .switch .config (some value) :: rest, p => consume rest (p.setConfig (configFile? value))
  | .switch .config none :: .operand path :: rest, p => consume rest (p.setConfig (some path))
  | .switch .config none :: _, _ => .error (.refused (.missingValue .config))
  | .switch s (some value) :: _, _ => .error (.refused (.unexpectedValue s value))
  | .switch .help none :: _, _ => .error .help
  | .switch s none :: rest, p => consume rest (p.enable s)

end Progress

namespace Arguments

/-- What the words of a command line say. -/
def ofWords (words : List Word) : Except Stop Arguments :=
  match Progress.consume words {} with
  | .error stop => .error stop
  | .ok p =>
    if p.arguments.patterns = [] then .error (.refused .missingPattern)
    else if p.extras ≠ [] then .error (.refused (.unrecognized p.extras))
    else .ok p.arguments

/-- What a command line says. -/
def parse (argv : List String) : Except Stop Arguments :=
  match Word.ofArguments argv with
  | .error e => .error (.refused e)
  | .ok words => ofWords words

end Arguments

end GlobPattern
