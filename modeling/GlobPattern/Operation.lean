import GlobPattern.Cursor
import GlobPattern.Lexeme.Recogniser
import GlobPattern.Lexer

/-!
# Driving cursors and lexers by hand

A reading drives one cursor by operations and keeps positions under names, so that the text passed
since can be asked for later. An operation that is refused leaves the reading as it was.

A lexer can be driven one operation at a time as well: a single built-in rule, a step, a run to the
end, a move of its cursor, or a change of its context stack. An operation that fails keeps what it
changed before.

* `Cursor.Operation`, `Cursor.Answer`, `Reading`, `Reading.start`, `Reading.perform`;
* `Lexer.Operation`, `Lexer.Answer`, `Lexer.Refusal`, `Lexer.perform`.
-/

namespace GlobPattern

/-! ## Readings -/

namespace Cursor

/-- What can be done with a cursor. `matchText none` takes the plain text at the cursor. -/
inductive Operation where
  | consume (n : Int)
  | peek (n : Int)
  | startsWith (t : List Char)
  | matchText (t? : Option (List Char))
  | mark (name : String)
  | stamp (name : String)
  | text (start stop : Int)
  deriving DecidableEq, Repr

/-- What an operation answers. -/
inductive Answer where
  | nothing
  | flag (b : Bool)
  | text (t : List Char)
  | stamp (span : Span) (t : List Char)
  deriving DecidableEq, Repr

/-- The text that a match takes at the cursor: the given text, or the plain text there. -/
def matched? (c : Cursor) : Option (List Char) → Option (List Char)
  | some t => if c.startsWith t then some t else none
  | none => Lexeme.plainRun? c.remaining

end Cursor

/-- A cursor with named marks, the latest first. -/
structure Reading where
  cursor : Cursor
  marks : List (String × Position) := []

namespace Reading

/-- The reading in front of a text. -/
def start (source : List Char) : Reading := ⟨Cursor.start source, []⟩

/-- Carry out an operation. -/
def perform (r : Reading) : Cursor.Operation → Reading × Except Overrun Cursor.Answer
  | .consume n =>
    match r.cursor.consume n with
    | .ok (t, c) => ({ r with cursor := c }, .ok (.text t))
    | .error e => (r, .error e)
  | .peek n => (r, .ok (.text (r.cursor.peek n)))
  | .startsWith t => (r, .ok (.flag (r.cursor.startsWith t)))
  | .matchText t? =>
    match r.cursor.matched? t? with
    | some t => ({ r with cursor := r.cursor.advance t.length }, .ok (.text t))
    | none => (r, .ok .nothing)
  | .mark name => ({ r with marks := (name, r.cursor.position) :: r.marks }, .ok .nothing)
  | .stamp name =>
    match r.marks.lookup name with
    | some mark =>
      let span := r.cursor.spanFrom mark
      (r, .ok (.stamp span (r.cursor.text span.start.offset span.stop.offset)))
    | none => (r, .ok .nothing)
  | .text start stop => (r, .ok (.text (r.cursor.text start stop)))

end Reading

end GlobPattern

namespace GlobPattern.Lexer

/-! ## Lexers -/

/-- What can be done with a lexer. -/
inductive Operation where
  | rule (kind : Kind)
  | step
  | run
  | consume (n : Int)
  | push (name : String)
  | pop (name : String)
  deriving DecidableEq, Repr

/-- What an operation answers. -/
inductive Answer where
  | nothing
  | node (node? : Option Node)
  | count (n : Nat)
  | text (t : List Char)
  deriving DecidableEq, Repr

/-- Why an operation fails. -/
inductive Refusal where
  | failure (e : Failure)
  | overrun (e : Overrun)
  deriving DecidableEq, Repr

/-- The outcome of a step or a run, with another answer. -/
def answering (answer : Lexer → Answer) :
    Lexer × Except Failure Unit → Lexer × Except Refusal Answer
  | (lx, .ok ()) => (lx, .ok (answer lx))
  | (lx, .error e) => (lx, .error (.failure e))

/-- Carry out an operation. The node that a single rule makes is not appended. -/
def perform (lx : Lexer) : Operation → Lexer × Except Refusal Answer
  | .rule kind => (lx.withScan (lx.applyKind kind).1, .ok (.node (lx.applyKind kind).2))
  | .step => answering (fun _ => .nothing) lx.step
  | .run => answering (fun lx' => .count lx'.nodes.size) lx.run
  | .consume n =>
    match lx.cursor.consume n with
    | .ok (t, c) => ({ lx with cursor := c }, .ok (.text t))
    | .error e => (lx, .error (.overrun e))
  | .push name => ({ lx with state := lx.state.pushContext name }, .ok .nothing)
  | .pop name =>
    match lx.state.popContext name with
    | .ok state => ({ lx with state }, .ok .nothing)
    | .error e => (lx, .error (.failure (.context e)))

end GlobPattern.Lexer
