import GlobPattern.Lexer

/-!
# Diagnostics

What there is to say about one pattern: that a rule set fails on it, or which of its constructs
silently degrade to literal text. A quote that nothing closes, a class that nothing closes, and a
run of `!` behind the start of the pattern do.

* `Severity`, `Finding`, `Finding.severity`, `Finding.message`;
* `Node.finding?`: what is to be said about a node;
* `Place`, `Diagnostic`: a finding with the places between which it is;
* `Diagnostic.tell`: what becomes of diagnostics where some places cannot be told;
  `Place.outOfRange?`: those with a number beyond a bound;
* `CheckError`, `Diagnostic.check`: the diagnostics of a pattern, or why there are none.
-/

namespace GlobPattern

/-- How grave a finding is. -/
inductive Severity where
  | error
  | warning
  | information
  deriving DecidableEq, Repr

/-- The number that stands for a severity. -/
def Severity.code : Severity → Nat
  | error => 1
  | warning => 2
  | information => 3

/-- What can be said about a pattern. -/
inductive Finding where
  | fault (f : LexFault)
  | openQuote (quote : List Char)
  | openClass
  | literalNegation
  deriving DecidableEq, Repr

namespace Finding

/-- How grave it is. -/
def severity : Finding → Severity
  | fault _ => .error
  | openQuote _ => .information
  | openClass => .warning
  | literalNegation => .information

/-- Its wording. -/
def message : Finding → String
  | fault f => f.message
  | openQuote quote => "unterminated quote " ++ String.ofList quote ++ " is matched literally"
  | openClass => "unterminated character class is matched literally"
  | literalNegation => "'!' only negates at the start of a pattern; matched literally"

end Finding

/-- The text is one quote. -/
def Lexeme.isLoneQuote (raw : List Char) : Bool := raw == ['"'] || raw == ['\'']

/-- What is to be said about a node. -/
def Node.finding? (n : Node) : Option Finding :=
  match n.shape with
  | .escape => if Lexeme.isLoneQuote n.raw then some (.openQuote n.raw) else none
  | .bracket _ _ _ => if n.shape.isOpenClass then some .openClass else none
  | .not _ => if n.value = [] then none else some .literalNegation
  | _ => none

/-- A finding on a line, from one character up to another; both count from zero. -/
structure Diagnostic where
  line : Int
  start : Nat
  stop : Nat
  finding : Finding
  deriving DecidableEq, Repr

/-- A place in a document, by the numbers of its line and of its character; both count from zero. -/
structure Place where
  line : Int
  character : Nat
  deriving DecidableEq, Repr

/-- A place has a number that is not in the range. -/
inductive Place.OutOfRange where
  | line (number : Int)
  | character (number : Nat)
  deriving DecidableEq, Repr

/-- What keeps a place from being told where the numbers from zero up to a bound can be: its line, or
its character. -/
def Place.outOfRange? (bound : Nat) (p : Place) : Option Place.OutOfRange :=
  if p.line < 0 ∨ bound < p.line then some (.line p.line)
  else if bound < p.character then some (.character p.character)
  else none

/-- Why a pattern has no diagnostics: the run failed, or a place cannot be told. -/
inductive CheckError (ε : Type) where
  | failure (e : Failure)
  | untold (e : ε)
  deriving DecidableEq, Repr

namespace Diagnostic

/-- The tool that diagnostics come from. -/
def source : String := "globlex"

/-- A finding on the characters of a span. -/
def ofSpan (line : Int) (span : Span) (finding : Finding) : Diagnostic :=
  ⟨line, span.start.column - 1, span.stop.column - 1, finding⟩

/-- A fault at the character where the lexer stopped. -/
def ofError (line : Int) (e : LexError) : Diagnostic :=
  ⟨line, e.position.column - 1, e.position.column, .fault e.fault⟩

/-- The diagnostic of a node. -/
def ofNode? (line : Int) (n : Node) : Option Diagnostic := n.finding?.map (ofSpan line n.span)

/-- The places between which a diagnostic is. -/
def ends (d : Diagnostic) : List Place := [⟨d.line, d.start⟩, ⟨d.line, d.stop⟩]

variable {ε : Type} (refuse : Place → Option ε)

/-- Diagnostics, if all places that they name can be told. Otherwise there are none, for the reason
why the first that cannot is refused. -/
def tell (found : List Diagnostic) : Except (CheckError ε) (List Diagnostic) :=
  match (found.flatMap ends).findSome? refuse with
  | some e => .error (.untold e)
  | none => .ok found

/-- The diagnostics of a pattern on a line, read with what a caller makes of the default rules. A
fault of the lexer is the only diagnostic then; other failures are passed on. -/
def check (extend : RuleSet.Extension) (pattern : List Char) (line : Int) :
    Except (CheckError ε) (List Diagnostic) :=
  match tokenize extend {} pattern with
  | .ok ast => tell refuse (ast.nodes.filterMap (ofNode? line))
  | .error (.lex e) => tell refuse [ofError line e]
  | .error e => .error (.failure e)

end Diagnostic

end GlobPattern
