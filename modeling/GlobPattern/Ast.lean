import GlobPattern.Cursor
import GlobPattern.Lexeme
import GlobPattern.Text.Character

/-!
# Options, scan state and token sequences

Three options change how a pattern is read. They can be set by name in a table of settings, each
under a spelling with underscores or one in camel case; the first of the two that holds a boolean
decides, and settings of other types are ignored.

What is remembered about a pattern while it is read is its scan state: how many separators there
were, which kinds of wildcard occurred, how it begins, and the stack of named contexts that are
open. The result are its nodes in order, the expression that a leading negation wraps around
whatever is compiled from them, and the final state.

* `Options`, all off by default; `Options.ofFlags`: those that a table sets;
* `ScanState.pushContext`, `ScanState.popContext`, `ScanState.isInside`: contexts, where a pop
  closes the innermost context of its name and is refused by `ContextNotOpen` without one;
* `ScanState.record`: what a lexeme adds to the state;
* `Node`: a lexeme with its place; `Wrap`, `Wrap.negation`;
* `Ast`, with `Ast.negated`, `Ast.opening`, `Ast.closing` and `Ast.kinds`.
-/

namespace GlobPattern

/-! ## Options -/

/-- The switches that the rules look at.

* `strictOpen`: remember that a leading `./` must be matched literally.
* `noNegate`: a leading `!` is literal text.
* `noGlobstar`: `**` is a plain star. -/
structure Options where
  strictOpen : Bool := false
  noNegate : Bool := false
  noGlobstar : Bool := false
  deriving DecidableEq, Repr, Inhabited

namespace Options

/-- The first boolean among two settings, off without one. -/
def firstFlag (flag? : String → Option Bool) (first second : String) : Bool :=
  ((flag? first).or (flag? second)).getD false

/-- The options set by a table, where `flag?` finds the boolean stored under a name. -/
def ofFlags (flag? : String → Option Bool) : Options where
  strictOpen := firstFlag flag? "strict_open" "strictOpen"
  noNegate := firstFlag flag? "nonegate" "noNegate"
  noGlobstar := firstFlag flag? "noglobstar" "noGlobstar"

end Options

/-! ## Scan state -/

/-- The summary of a pattern read so far; `contexts` holds the innermost last. -/
structure ScanState where
  separatorCount : Nat := 0
  isDotfile : Bool := false
  hasWildcardStar : Bool := false
  hasGlobstar : Bool := false
  hasMetachar : Bool := false
  hasQmark : Bool := false
  strictOpen : Bool := false
  addPrefix : Bool := false
  paths : List String := []
  contexts : List String := []
  deriving DecidableEq, Repr, Inhabited

/-- A context was to be closed that is not open. -/
structure ContextNotOpen where
  name : String
  deriving DecidableEq, Repr

/-- The wording of a refused pop. -/
def ContextNotOpen.message (e : ContextNotOpen) : String :=
  "context " ++ Text.quotedString e.name ++ " is not open"

namespace ScanState

/-- Open a context. -/
def pushContext (s : ScanState) (name : String) : ScanState :=
  { s with contexts := s.contexts ++ [name] }

/-- Close the innermost context called `name`. -/
def popContext (s : ScanState) (name : String) : Except ContextNotOpen ScanState :=
  if name ∈ s.contexts then
    .ok { s with contexts := (s.contexts.reverse.erase name).reverse }
  else
    .error ⟨name⟩

/-- A context called `name` is open. -/
def isInside (s : ScanState) (name : String) : Bool := s.contexts.contains name

/-- The name of the context in which most rules are silent. -/
def bracketContext : String := "bracket"

/-- The groups that are open. -/
def enclosure (s : ScanState) : Enclosure := ⟨s.isInside "brace", s.isInside "paren"⟩

/-- Remember a source path. -/
def addPath (s : ScanState) (path : String) : ScanState := { s with paths := s.paths ++ [path] }

/-- Remember that the pattern begins with a dot and a separator. -/
def noteLeadingDot (s : ScanState) (options : Options) : ScanState :=
  { s with strictOpen := options.strictOpen, addPrefix := true }

/-- What a lexeme adds to the state. -/
def record (s : ScanState) : Shape → ScanState
  | .dot opensSegment => { s with isDotfile := opensSegment }
  | .qmark _ => { s with hasMetachar := true, hasQmark := true }
  | .globstar _ _ => { s with hasMetachar := true, hasGlobstar := true }
  | .star => { s with hasMetachar := true, hasWildcardStar := true }
  | .slash => { s with separatorCount := s.separatorCount + 1 }
  | _ => s

/-! ### Laws -/

theorem popContext_eq_error_iff {s : ScanState} {name : String} {e : ContextNotOpen} :
    s.popContext name = .error e ↔ name ∉ s.contexts ∧ e = ⟨name⟩ := by
  unfold popContext
  split <;> simp_all [eq_comm]

@[simp] theorem contexts_record (s : ScanState) (sh : Shape) :
    (s.record sh).contexts = s.contexts := by
  cases sh <;> rfl

@[simp] theorem paths_record (s : ScanState) (sh : Shape) : (s.record sh).paths = s.paths := by
  cases sh <;> rfl

end ScanState

/-! ## Token sequences -/

/-- A lexeme with the span of its raw text. -/
structure Node extends Lexeme where
  span : Span
  deriving DecidableEq, Repr, Inhabited

/-- The kind of a node. -/
def Node.kind (n : Node) : Kind := n.shape.kind

/-- What stands before and behind a compiled expression. -/
structure Wrap where
  opening : String
  closing : String
  deriving DecidableEq, Repr

/-- The wrap that matches whatever the expression inside does not. -/
def Wrap.negation : Wrap := ⟨"(?!^(?:", ")$).*"⟩

/-- A pattern with its nodes. -/
structure Ast where
  pattern : List Char
  nodes : List Node
  wrap : Option Wrap
  state : ScanState
  deriving DecidableEq, Repr

namespace Ast

/-- The text in front of the compiled expression, if there is a wrap. -/
def opening (a : Ast) : Option String := a.wrap.map Wrap.opening

/-- The text behind the compiled expression. -/
def closing (a : Ast) : String := (a.wrap.map Wrap.closing).getD ""

/-- The pattern is negated as a whole. -/
def negated (a : Ast) : Bool := a.opening == some Wrap.negation.opening

/-- The kinds of the nodes. -/
def kinds (a : Ast) : List Kind := a.nodes.map Node.kind

end Ast

end GlobPattern
