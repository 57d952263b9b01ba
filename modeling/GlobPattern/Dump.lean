import GlobPattern.Ast
import GlobPattern.Text.Character

/-!
# Records and dumps

A token sequence as plain data is what it was read from, its nodes with the offsets of their spans
and the fields of their kind, the wrap, and the final scan state. As text, data has two blanks of
indentation for each level, one item a line, and nothing but printable ASCII: a character that is
not is written as its UTF-16 code units.

A dump is for a reader: one row for the pattern, one for each node, one for each half of the wrap if
there is one, and one for the state. Texts of the pattern stand as quoted literals, so that nothing
in a pattern can break a row.

* `Json`: null, booleans, integers, strings, lists and objects, which keep the order of their fields;
* `Json.escape`: a string between its quotes; `Json.text`: a value;
* `Span.toJson`, `Node.toJson`, `ScanState.toJson`, `Ast.toJson`;
* `Kind.title`, `Shape.remark`, `Node.row`, `Ast.rows`, `Ast.dump`.
-/

namespace GlobPattern

/-! ## Indented JSON -/

/-- A JSON value; an object is the list of its fields. -/
inductive Json where
  | null
  | bool (b : Bool)
  | int (n : Int)
  | str (s : String)
  | arr (items : List Json)
  | obj (fields : List (String × Json))

namespace Json

/-- A UTF-16 code unit as an escape. -/
def unitEscape (n : Nat) : List Char := '\\' :: 'u' :: Text.hexDigits 4 n

/-- A character of a string. -/
def escapeChar (c : Char) : List Char :=
  if c = '"' ∨ c = '\\' then ['\\', c]
  else if ' ' ≤ c ∧ c ≤ '~' then [c]
  else if c = '\n' then ['\\', 'n']
  else if c = '\r' then ['\\', 'r']
  else if c = '\t' then ['\\', 't']
  else if c = '\x08' then ['\\', 'b']
  else if c = '\x0c' then ['\\', 'f']
  else if c.toNat < 0x10000 then unitEscape c.toNat
  else
    unitEscape (0xd800 + (c.toNat - 0x10000) / 0x400) ++
      unitEscape (0xdc00 + (c.toNat - 0x10000) % 0x400)

/-- A string with its quotes. -/
def escape (s : String) : String := String.ofList ('"' :: s.toList.flatMap escapeChar ++ ['"'])

/-- The beginning of a line at a level. -/
def newline (level : Nat) : String := String.ofList ('\n' :: List.replicate (2 * level) ' ')

mutual

/-- A value at a level, behind `out`. -/
def write (level : Nat) (out : String) : Json → String
  | null => out ++ "null"
  | bool b => out ++ (if b then "true" else "false")
  | int n => out ++ toString n
  | str s => out ++ escape s
  | arr [] => out ++ "[]"
  | arr (x :: xs) =>
    writeItems (level + 1) (write (level + 1) (out ++ "[" ++ newline (level + 1)) x) xs ++
      newline level ++ "]"
  | obj [] => out ++ "\x7b\x7d"
  | obj ((k, x) :: xs) =>
    writeFields (level + 1)
      (write (level + 1) (out ++ "\x7b" ++ newline (level + 1) ++ escape k ++ ": ") x) xs ++
      newline level ++ "\x7d"

/-- The further items of a list, behind `out`. -/
def writeItems (level : Nat) (out : String) : List Json → String
  | [] => out
  | x :: xs => writeItems level (write level (out ++ "," ++ newline level) x) xs

/-- The further fields of an object, behind `out`. -/
def writeFields (level : Nat) (out : String) : List (String × Json) → String
  | [] => out
  | (k, x) :: xs =>
    writeFields level (write level (out ++ "," ++ newline level ++ escape k ++ ": ") x) xs

end

/-- The text of a value. -/
def text (j : Json) : String := write 0 "" j

end Json

/-! ## Records -/

/-- A text of the pattern as a JSON string. -/
def Json.ofChars (s : List Char) : Json := .str (String.ofList s)

/-- The offsets of a span. -/
def Span.toJson (s : Span) : Json :=
  .obj [("start", .int s.start.offset), ("end", .int s.stop.offset)]

/-- The sign of a negated class, or nothing. -/
def Shape.negationSign (negated : Bool) : List Char := if negated then ['^'] else []

/-- The fields that only one kind has. -/
def Shape.toFields (sh : Shape) : List (String × Json) :=
  match sh with
  | .dot opensSegment => [("dotfiles", .bool opensSegment)]
  | .qmark parsed => [("parsed", .ofChars parsed)]
  | .globstar parsed inside =>
    [("parsed", .ofChars parsed),
      ("inside", .obj [("brace", .bool inside.brace), ("paren", .bool inside.paren)])]
  | .bracket negated inner close =>
    [("negated", .ofChars (negationSign negated)), ("inner", .ofChars inner),
      ("close", .ofChars close), ("escaped", .bool sh.isOpenClass)]
  | _ => []

/-- A node as a record. -/
def Node.toJson (n : Node) : Json :=
  .obj ([("kind", .str n.kind.name), ("value", .ofChars n.value), ("raw", .ofChars n.raw),
    ("span", n.span.toJson)] ++ n.shape.toFields)

/-- The flags of a scan state with their names. -/
def ScanState.flags (s : ScanState) : List (String × Bool) :=
  [("is_dotfile", s.isDotfile), ("has_wildcard_star", s.hasWildcardStar),
    ("has_globstar", s.hasGlobstar), ("has_metachar", s.hasMetachar), ("has_qmark", s.hasQmark),
    ("strict_open", s.strictOpen), ("add_prefix", s.addPrefix)]

/-- A scan state as a record. -/
def ScanState.toJson (s : ScanState) : Json :=
  .obj (("separator_count", .int s.separatorCount) :: s.flags.map (fun (k, b) => (k, .bool b)) ++
    [("paths", .arr (s.paths.map .str)), ("contexts", .arr (s.contexts.map .str))])

/-- A token sequence as a record. -/
def Ast.toJson (a : Ast) : Json :=
  .obj [("pattern", .ofChars a.pattern), ("nodes", .arr (a.nodes.map Node.toJson)),
    ("prefix", (a.opening.map Json.str).getD .null), ("append", .str a.closing),
    ("state", a.state.toJson)]

/-! ## Dumps -/

/-- The name of a kind in a dump. -/
def Kind.title : Kind → String
  | .leadingDot => "Prefix"
  | .escape => "Escape"
  | .quoted => "Quoted"
  | .not => "Not"
  | .dot => "Dot"
  | .plus => "Plus"
  | .qmark => "Qmark"
  | .globstar => "Globstar"
  | .star => "Star"
  | .slash => "Slash"
  | .backslash => "Backslash"
  | .square => "Square"
  | .bracket => "Bracket"
  | .text => "Text"

/-- The groups around a globstar by name. -/
def Enclosure.names (e : Enclosure) : List String :=
  (if e.brace then ["brace"] else []) ++ (if e.paren then ["paren"] else [])

/-- What a dump says about a node beside its value. -/
def Shape.remark (sh : Shape) : List Char :=
  match sh with
  | .dot opensSegment => if opensSegment then " dotfile".toList else []
  | .globstar _ inside =>
    if inside.names = [] then [] else " in ".toList ++ (",".intercalate inside.names).toList
  | .bracket negated inner close =>
    " negated=".toList ++ Text.quoted (negationSign negated) ++ " inner=".toList ++
      Text.quoted inner ++ " close=".toList ++ Text.quoted close ++
      (if sh.isOpenClass then " escaped".toList else [])
  | .qmark parsed => if parsed = [] then [] else " after ".toList ++ Text.quoted parsed
  | _ => []

/-- A position as line and column. -/
def Position.label (p : Position) : List Char :=
  (toString p.line).toList ++ ':' :: (toString p.column).toList

/-- The row of a node. -/
def Node.row (n : Node) : List Char :=
  "  ".toList ++ n.kind.title.toList ++ '(' :: Text.quoted n.value ++ ')' :: n.shape.remark ++
    ' ' :: n.span.start.label ++ '-' :: n.span.stop.label

/-- The row of a scan state: the number of separators and the flags that are set. -/
def ScanState.row (s : ScanState) : List Char :=
  "  state slashes=".toList ++ (toString s.separatorCount).toList ++
    s.flags.flatMap fun (name, set) => if set then ' ' :: name.toList else []

/-- The rows of a dump. -/
def Ast.rows (a : Ast) : List (List Char) :=
  ("Pattern ".toList ++ Text.quoted a.pattern) :: a.nodes.map Node.row ++
    (a.opening.map fun t => "  prefix ".toList ++ Text.quoted t.toList).toList ++
    (if a.closing = "" then [] else ["  append ".toList ++ Text.quoted a.closing.toList]) ++
    [a.state.row]

/-- The dump, each row ended by a line feed. -/
def Ast.dump (a : Ast) : String := String.ofList (a.rows.flatMap (· ++ ['\n']))

end GlobPattern
