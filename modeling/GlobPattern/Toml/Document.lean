import GlobPattern.Toml.Token

/-!
# TOML documents

A document is a table, and a table is the list of its entries. How a table came about decides what
may still be done with it: one that a longer header or a dotted key implied can be declared or
extended later, one that was declared cannot be declared again, and one written inline is complete.

A text is a sequence of statements: entries, headers of tables and headers of arrays of tables. It
is read one statement at a time, and each statement is carried out on the tables read so far. A
carriage return in front of a line feed does not count.

* `Toml.Value`, `Toml.Standing`, `Toml.Entries`;
* `Entries.put`, `Entries.enter?`: replacing an entry, and changing the table behind one;
* `Entries.declare`, `Entries.appendTable`, `Entries.assign`: what the header of a table, the header
  of an array of tables and a key do; nothing when they contradict what stands there;
* `Toml.Fault`: a document is malformed, holds a whole number with too many digits, or nests values
  too deeply;
* `Toml.Stack`: how far the readers of values may follow one another, whatever it is that stops
  them; a value in an array has two more readers above it than the array, one in an inline table
  three;
* `Toml.value`: a value, with the arrays and inline tables in it;
* `Toml.Statement`, `Toml.Document`, `Document.apply`;
* `Toml.document`: the table that a text stands for.
-/

namespace GlobPattern.Toml

/-! ## Values and tables -/

/-- How a table came about. -/
inductive Standing where
  | inline
  | implied
  | dotted
  | declared
  deriving DecidableEq, Repr

/-- A value. Numbers and moments are kept as they are spelled; of an array of tables the last one
stands in front, since later headers speak of it. -/
inductive Value where
  | bool (b : Bool)
  | string (s : List Char)
  | number (spelling : List Char)
  | moment (spelling : List Char)
  | array (items : List Value)
  | table (standing : Standing) (entries : List (String × Value))
  | tables (last : List (String × Value)) (earlier : List (List (String × Value)))

/-- The entries of a table, in the order in which they came. -/
abbrev Entries := List (String × Value)

namespace Entries

/-- The entries with the value of a key replaced, or with a new entry at the end. -/
def put (key : String) (v : Value) : Entries → Entries
  | [] => [(key, v)]
  | (k, w) :: rest => if k = key then (key, v) :: rest else (k, w) :: put key v rest

/-- Change the table behind a key: an implied table if there is none, the last one of an array of
tables, but no table written inline. -/
def enter? (key : String) (f : Entries → Option Entries) (es : Entries) : Option Entries :=
  match es.lookup key with
  | none => (f []).map fun sub => put key (.table .implied sub) es
  | some (.table .inline _) => none
  | some (.table standing sub) => (f sub).map fun sub' => put key (.table standing sub') es
  | some (.tables last earlier) => (f last).map fun sub => put key (.tables sub earlier) es
  | some _ => none

/-- Change the table that a path leads to. -/
def under? (f : Entries → Option Entries) : List String → Entries → Option Entries
  | [], es => f es
  | key :: path, es => enter? key (under? f path) es

/-- Declare a table, which may have been implied before. -/
def declare (key : String) (es : Entries) : Option Entries :=
  match es.lookup key with
  | none => some (put key (.table .declared []) es)
  | some (.table .implied sub) => some (put key (.table .declared sub) es)
  | some _ => none

/-- Append an empty table to an array of tables. -/
def appendTable (key : String) (es : Entries) : Option Entries :=
  match es.lookup key with
  | none => some (put key (.tables [] []) es)
  | some (.tables last earlier) => some (put key (.tables [] (last :: earlier)) es)
  | some _ => none

/-- Give a value to a dotted key. The tables on its way must be implied or dotted themselves, and
nothing may stand at its end. -/
def assign (v : Value) : List String → Entries → Option Entries
  | [], _ => none
  | [key], es => if (es.lookup key).isNone then some (put key v es) else none
  | key :: path, es =>
    match es.lookup key with
    | none => (assign v path []).map fun sub => put key (.table .dotted sub) es
    | some (.table .implied sub) =>
      (assign v path sub).map fun sub' => put key (.table .dotted sub') es
    | some (.table .dotted sub) =>
      (assign v path sub).map fun sub' => put key (.table .dotted sub') es
    | some _ => none

/-- The boolean of a key, if it has one. -/
def flag? (es : Entries) (key : String) : Option Bool :=
  match es.lookup key with
  | some (.bool b) => some b
  | _ => none

/-- The table of a key, if it has one. -/
def table? (es : Entries) (key : String) : Option Entries :=
  match es.lookup key with
  | some (.table _ sub) => some sub
  | _ => none

end Entries

/-! ## Reading -/

/-- Why a text is refused. -/
inductive Fault where
  | malformed
  | tooManyDigits (count : Nat)
  | tooDeep
  deriving DecidableEq, Repr

/-- The most digits that a whole number in base ten may have. -/
def maxDigits : Nat := 4300

/-- What there is room for: whether the reader of a value, or of an entry, can be carried out on a
text while as many readers wait for it. -/
structure Stack where
  value : Nat → List Char → Bool
  entry : Nat → List Char → Bool

/-- There is always room. -/
def Stack.unlimited : Stack := ⟨fun _ _ => true, fun _ _ => true⟩

/-- A reader begins, if there is room for it. -/
def enter (room : Bool) : Except Fault Unit := if room then .ok () else .error .tooDeep

/-- What a reader that finds nothing ends with. -/
def orMalformed {α : Type} : Option α → Except Fault α
  | some a => .ok a
  | none => .error .malformed

/-! ### Values -/

/-- A number, a date or a time. -/
def scalar (s : List Char) : Except Fault (Value × List Char) :=
  match Scalar.dateTime? s with
  | some d =>
    if d.isValid then .ok (.moment d.spelling, s.drop d.spelling.length) else .error .malformed
  | none =>
    match Scalar.time? s with
    | some t => .ok (.moment t, s.drop t.length)
    | none =>
      match Scalar.number? s with
      | some n =>
        if n.whole ∧ maxDigits < n.digitCount then .error (.tooManyDigits n.digitCount)
        else .ok (.number n.spelling, s.drop n.spelling.length)
      | none =>
        match Scalar.special? s with
        | some t => .ok (.number t, s.drop t.length)
        | none => .error .malformed

/-- Past a comment, up to and without the line feed that ends it. -/
def skipComment : List Char → Except Fault (List Char)
  | [] => .ok []
  | c :: r =>
    if c = '\n' then .ok (c :: r) else if isControl c then .error .malformed else skipComment r

/-- Past white space, line feeds and comments. -/
def skipBlank (inComment : Bool) : List Char → Except Fault (List Char)
  | [] => .ok []
  | c :: r =>
    if c = '\n' then skipBlank false r
    else if inComment then (if isControl c then .error .malformed else skipBlank true r)
    else if c = '#' then skipBlank true r
    else if isSpace c then skipBlank false r
    else .ok (c :: r)

/-- A string, if its reader found one. -/
def string (read? : Option (List Char × List Char)) : Except Fault (Value × List Char) :=
  (orMalformed read?).map fun (t, rest) => (.string t, rest)

section Values

variable (stack : Stack)

mutual

/-- A value, for which as many readers wait. The fuel bounds how many follow. -/
def value : Nat → Nat → List Char → Except Fault (Value × List Char)
  | 0, _, _ => .error .malformed
  | fuel + 1, waiting, s => do
    enter (stack.value waiting s)
    match s with
    | '"' :: '"' :: '"' :: r => string (Quotation.longBasic? r)
    | '"' :: r => string (Quotation.basic? r)
    | '\'' :: '\'' :: '\'' :: r => string (Quotation.longLiteral? r)
    | '\'' :: r => string (Quotation.literal? r)
    | 't' :: 'r' :: 'u' :: 'e' :: r => .ok (.bool true, r)
    | 'f' :: 'a' :: 'l' :: 's' :: 'e' :: r => .ok (.bool false, r)
    | '[' :: r => items fuel (waiting + 2) [] (← skipBlank false r)
    | '\x7b' :: r =>
      match skipSpace r with
      | '\x7d' :: rest => .ok (.table .inline [], rest)
      | r' => fields fuel (waiting + 2) [] r'
    | s => scalar s

/-- The rest of an array whose items so far are `done`, the latest first. -/
def items : Nat → Nat → List Value → List Char → Except Fault (Value × List Char)
  | 0, _, _, _ => .error .malformed
  | fuel + 1, waiting, done, s =>
    match s with
    | ']' :: rest => .ok (.array done.reverse, rest)
    | s => do
      let (v, r) ← value fuel waiting s
      match ← skipBlank false r with
      | ']' :: rest => .ok (.array (v :: done).reverse, rest)
      | ',' :: r' => items fuel waiting (v :: done) (← skipBlank false r')
      | _ => .error .malformed

/-- The rest of an inline table with the entries so far. -/
def fields : Nat → Nat → Entries → List Char → Except Fault (Value × List Char)
  | 0, _, _, _ => .error .malformed
  | fuel + 1, waiting, done, s => do
    let (key, v, r) ← pair fuel waiting s
    let done' ← orMalformed (done.assign v key)
    match skipSpace r with
    | '\x7d' :: rest => .ok (.table .inline done', rest)
    | ',' :: r' => fields fuel waiting done' (skipSpace r')
    | _ => .error .malformed

/-- A key with its value. -/
def pair : Nat → Nat → List Char → Except Fault (List String × Value × List Char)
  | 0, _, _ => .error .malformed
  | fuel + 1, waiting, s => do
    enter (stack.entry waiting s)
    let (key, r) ← orMalformed (key? s)
    match r with
    | '=' :: r' =>
      let (v, rest) ← value fuel (waiting + 1) (skipSpace r')
      return (key, v, rest)
    | _ => .error .malformed

end

end Values

/-! ### Statements -/

/-- A statement of a document. -/
inductive Statement where
  | entry (key : List String) (v : Value)
  | table (key : List String)
  | tables (key : List String)

/-- The tables read so far, and the path of the table that entries go to. -/
structure Document where
  root : Entries := []
  header : List String := []

/-- Carry out a statement. -/
def Document.apply (d : Document) : Statement → Except Fault Document
  | .entry key v =>
    (orMalformed (d.root.under? (Entries.assign v key) d.header)).map ({ d with root := · })
  | .table key =>
    (orMalformed (d.root.under? (Entries.declare (key.getLastD "")) key.dropLast)).map (⟨·, key⟩)
  | .tables key =>
    (orMalformed (d.root.under? (Entries.appendTable (key.getLastD "")) key.dropLast)).map
      (⟨·, key⟩)

/-- The key of a header behind its opening brackets, up to its closing brackets. -/
def headerKey (close : List Char) (s : List Char) : Except Fault (List String × List Char) := do
  let (key, r) ← orMalformed (key? (skipSpace s))
  if close.isPrefixOf r then .ok (key, r.drop close.length) else .error .malformed

/-- The statement that a line begins with. -/
def statement (stack : Stack) (s : List Char) : Except Fault (Statement × List Char) :=
  match s with
  | '[' :: '[' :: r => (headerKey [']', ']'] r).map fun (key, rest) => (.tables key, rest)
  | '[' :: r => (headerKey [']'] r).map fun (key, rest) => (.table key, rest)
  | s => (pair stack (2 * s.length + 2) 0 s).map fun (key, v, rest) => (.entry key v, rest)

/-- Past the end of a line that holds nothing more than a comment. -/
def lineEnd (s : List Char) : Except Fault (List Char) := do
  let r ← match skipSpace s with
    | '#' :: r => skipComment r
    | r => .ok r
  match r with
  | [] => .ok []
  | '\n' :: rest => .ok rest
  | _ => .error .malformed

/-- Read the statements of a text. The fuel bounds the number of lines. -/
def statements (stack : Stack) : Nat → Document → List Char → Except Fault Document
  | 0, _, _ => .error .malformed
  | fuel + 1, d, s =>
    match skipSpace s with
    | [] => .ok d
    | '\n' :: r => statements stack fuel d r
    | '#' :: r => do statements stack fuel d (← lineEnd ('#' :: r))
    | s' => do
      let (st, r) ← statement stack s'
      let d' ← d.apply st
      statements stack fuel d' (← lineEnd r)

/-- The text without the carriage returns in front of line feeds. -/
def joinFeeds : List Char → List Char
  | '\r' :: '\n' :: r => '\n' :: joinFeeds r
  | c :: r => c :: joinFeeds r
  | [] => []

/-- The table that a document stands for. -/
def document (stack : Stack) (text : List Char) : Except Fault Entries :=
  let s := joinFeeds text
  (statements stack (s.length + 1) {} s).map Document.root

end GlobPattern.Toml
