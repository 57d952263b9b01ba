import GlobPattern.Ast
import GlobPattern.Cursor
import GlobPattern.Lexeme.CharClass
import GlobPattern.Lexeme.Recogniser

/-!
# Scans and the built-in rules

A scan is all that a rule looks at and may change: the options, the cursor, the scan state and the
wrap. The built-in rule of a kind recognises a lexeme in the text ahead; accepting it moves the
cursor over its raw text, and the state and the wrap change as its shape says. The rule for a
leading dot only takes note of it.

* `Scan`, `Scan.start`;
* `Scan.recognise?`: the lexeme that the rule of a kind sees ahead;
* `Scan.accept`, `Scan.applyKind`: taking it;
* `recognise?_covers`: a recognised lexeme covers a beginning of the text ahead.
-/

namespace GlobPattern

/-- What a rule works on. -/
structure Scan where
  options : Options
  cursor : Cursor
  state : ScanState
  wrap : Option Wrap

namespace Scan

/-- The scan in front of a pattern. -/
def start (pattern : List Char) (options : Options) : Scan :=
  ⟨options, Cursor.start pattern, {}, none⟩

/-- Nothing has been consumed. -/
def atStart (s : Scan) : Bool := s.cursor.before.isEmpty

/-- A path segment begins at the cursor: nothing or a slash was consumed last. -/
def atSegmentStart (s : Scan) : Bool := s.atStart || s.cursor.before.head? == some '/'

/-- A bracket context is open. -/
def inBracket (s : Scan) : Bool := s.state.isInside ScanState.bracketContext

/-- The lexeme that the rule of a kind recognises at the cursor. -/
def recognise? (s : Scan) (kind : Kind) : Option Lexeme :=
  let ahead := s.cursor.remaining
  match kind with
  | .leadingDot => none
  | .escape => Lexeme.escape? s.inBracket ahead
  | .quoted => Lexeme.quoted? ahead
  | .not => Lexeme.not? s.options.noNegate s.atStart ahead
  | .dot => Lexeme.dot? s.atSegmentStart ahead
  | .plus => Lexeme.plus? ahead
  | .qmark => Lexeme.qmark? s.cursor.parsed ahead
  | .globstar => Lexeme.globstar? s.options.noGlobstar s.cursor.parsed s.state.enclosure ahead
  | .star => Lexeme.star? ahead
  | .slash => Lexeme.slash? ahead
  | .backslash => Lexeme.backslash? s.inBracket ahead
  | .square => Lexeme.square? s.inBracket ahead
  | .bracket => Lexeme.bracket? ahead
  | .text => Lexeme.text? s.inBracket ahead

/-- Take note of a dot and a separator in front of the pattern. -/
def noteLeadingDot (s : Scan) : Scan :=
  if s.atStart && Lexeme.leadsWithDot s.cursor.remaining then
    { s with state := s.state.noteLeadingDot s.options }
  else s

/-- Move over `k` characters. -/
def advance (s : Scan) (k : Nat) : Scan := { s with cursor := s.cursor.advance k }

/-- The node of a lexeme that stands at the cursor. -/
def nodeOf (s : Scan) (l : Lexeme) : Node :=
  { l with span := (s.advance l.raw.length).cursor.spanFrom s.cursor.position }

/-- The scan behind a lexeme that stands at the cursor. -/
def accept (s : Scan) (l : Lexeme) : Scan :=
  { s.advance l.raw.length with
    state := s.state.record l.shape
    wrap := if l.shape.wraps then some Wrap.negation else s.wrap }

/-- Apply the built-in rule of a kind. -/
def applyKind (s : Scan) (kind : Kind) : Scan × Option Node :=
  if kind = .leadingDot then (s.noteLeadingDot, none)
  else
    match s.recognise? kind with
    | some l => (s.accept l, some (s.nodeOf l))
    | none => (s, none)

/-! ## Laws -/

@[simp] theorem cursor_noteLeadingDot (s : Scan) : s.noteLeadingDot.cursor = s.cursor := by
  unfold noteLeadingDot; split <;> rfl

@[simp] theorem cursor_accept (s : Scan) (l : Lexeme) :
    (s.accept l).cursor = s.cursor.advance l.raw.length := rfl

/-- **A recognised lexeme covers a beginning of the text ahead.** -/
theorem recognise?_covers {s : Scan} {kind : Kind} {l : Lexeme} (h : s.recognise? kind = some l) :
    l.Covers s.cursor.remaining := by
  cases kind with
  | leadingDot => cases h
  | escape => exact Lexeme.escape?_covers h
  | quoted => exact Lexeme.quoted?_covers h
  | not => exact Lexeme.not?_covers h
  | dot => exact Lexeme.dot?_covers h
  | plus => exact Lexeme.plus?_covers h
  | qmark => exact Lexeme.qmark?_covers h
  | globstar => exact Lexeme.globstar?_covers h
  | star => exact Lexeme.star?_covers h
  | slash => exact Lexeme.slash?_covers h
  | backslash => exact Lexeme.backslash?_covers h
  | square => exact Lexeme.square?_covers h
  | bracket => exact Lexeme.bracket?_covers h
  | text => exact Lexeme.text?_covers h

theorem cursor_applyKind (s : Scan) (kind : Kind) :
    ∃ k, (s.applyKind kind).1.cursor = s.cursor.advance k := by
  unfold applyKind
  split
  · exact ⟨0, by simp⟩
  · split
    · exact ⟨_, rfl⟩
    · exact ⟨0, by simp⟩

end Scan

end GlobPattern
