import GlobPattern.Cursor
import GlobPattern.Text.Character
import GlobPattern.Text.Lines

/-!
# Source reports and lexing errors

A message about a place in a text, shown with the line it speaks of:

    error: MESSAGE
      --> FILE:LINE:COLUMN
       |
    NN | the line
       |    ^^

The gutter is one wider than the line number. One or two carets stand under the column, no further
than the line reaches; a column beyond the line has one caret, and a line that does not exist is
shown empty.

A rule set fails on a pattern when no rule consumes the text at the cursor, or when a rule offers a
node without consuming anything. The error names the place and keeps the pattern, so that it can be
reported.

* `SourceReport`, `SourceReport.rows`, `SourceReport.text`;
* `LayoutError`, `SourceReport.layout`: the text, unless the carets stand out of reach of the memory
  there is;
* `RenderError`, `SourceReport.render`: the same, unless the line number is too long to be written;
* `LexFault`, `LexFault.message`: the two causes; `LexError`, `LexError.report`, `LexError.text`.
-/

namespace GlobPattern

/-! ## Reports -/

/-- What a report says. Line and column count from one, but need not lie in the source. -/
structure SourceReport where
  message : String
  fileName : String
  line : Int
  column : Int
  source : List Char

namespace SourceReport

/-- The name of a source that is no file. -/
def patternName : String := "<pattern>"

/-- Without the line feeds at its end, and then without the carriage returns. -/
def trimBreak (s : List Char) : List Char :=
  ((s.reverse.dropWhile (· == '\n')).dropWhile (· == '\r')).reverse

/-- The line that the report speaks of. -/
def shownLine (r : SourceReport) : List Char :=
  if 1 ≤ r.line then
    match (Text.lines r.source)[(r.line - 1).toNat]? with
    | some l => trimBreak l.text
    | none => []
  else []

/-- The number of carets. -/
def caretCount (r : SourceReport) : Nat :=
  (max 1 (min 2 (r.shownLine.length - r.column + 1))).toNat

/-- The line number as text. -/
def lineNumber (r : SourceReport) : List Char := (toString r.line).toList

/-- As many blanks as `n` says, none if it is negative. -/
def blanks (n : Int) : List Char := List.replicate n.toNat ' '

/-- The margin of the rows. -/
def margin (r : SourceReport) : List Char := blanks (r.lineNumber.length + 1)

/-- The five rows of a report. -/
def rows (r : SourceReport) : List (List Char) :=
  [ "error: ".toList ++ r.message.toList,
    r.margin ++ "--> ".toList ++ r.fileName.toList ++ ':' :: r.lineNumber ++
      ':' :: (toString r.column).toList,
    r.margin ++ ['|'],
    r.lineNumber ++ " | ".toList ++ r.shownLine,
    r.margin ++ "| ".toList ++ blanks (r.column - 1) ++ List.replicate r.caretCount '^' ]

/-- The report as text, without a final line feed. -/
def text (r : SourceReport) : String := String.ofList (['\n'].intercalate r.rows)

/-- Why a report cannot be laid out: its column is no number of 64 bits, or no memory holds the
blanks in front of it. -/
inductive LayoutError where
  | columnOutOfRange
  | outOfMemory
  deriving DecidableEq, Repr

/-- The wording of the refusal. -/
def LayoutError.message : LayoutError → String
  | columnOutOfRange => "cannot fit 'int' into an index-sized integer"
  | outOfMemory => ""

/-- The report as text, if it can be laid out where memory holds as many blanks. -/
def layout (memory : Nat) (r : SourceReport) : Except LayoutError String :=
  if !Text.isIndex (r.column - 1) then .error .columnOutOfRange
  else if memory < r.column - 1 then .error .outOfMemory
  else .ok r.text

/-- The most digits that a number is written with. -/
def maxDigits : Nat := 4300

/-- The number of digits of the line number. -/
def digitCount (r : SourceReport) : Nat := (toString r.line.natAbs).length

/-- Why a report has no text: it cannot be laid out, or its line number has too many digits. -/
inductive RenderError where
  | layout (e : LayoutError)
  | tooManyDigits
  deriving DecidableEq, Repr

/-- The wording of the refusal. -/
def RenderError.message : RenderError → String
  | layout e => e.message
  | tooManyDigits =>
    "Exceeds the limit (" ++ toString maxDigits ++ " digits) for integer string conversion; " ++
      "use sys.set_int_max_str_digits() to increase the limit"

/-- The report as text, if it can be laid out and its line number be written. -/
def render (memory : Nat) (r : SourceReport) : Except RenderError String :=
  match r.layout memory with
  | .error e => .error (.layout e)
  | .ok text => if maxDigits < r.digitCount then .error .tooManyDigits else .ok text

variable {memory : Nat} {r : SourceReport}

theorem isIndex_column_sub_one (h0 : 1 ≤ r.column) :
    Text.isIndex (r.column - 1) = decide (r.column ≤ 0x8000000000000000) := by
  rw [Bool.eq_iff_iff, decide_eq_true_iff, Text.isIndex, Bool.and_eq_true, decide_eq_true_iff,
    decide_eq_true_iff]
  omega

theorem layout_eq_text (h0 : 1 ≤ r.column) (hindex : r.column ≤ 0x8000000000000000)
    (hmemory : r.column ≤ memory + 1) : r.layout memory = .ok r.text := by
  have hm : ¬ memory < r.column - 1 := by omega
  simp [layout, isIndex_column_sub_one h0, hindex, hm]

theorem layout_eq_columnOutOfRange (h : 0x8000000000000000 < r.column) :
    r.layout memory = .error .columnOutOfRange := by
  have h0 : 1 ≤ r.column := by omega
  simp [layout, isIndex_column_sub_one h0, h]

theorem layout_eq_outOfMemory (hindex : r.column ≤ 0x8000000000000000)
    (h : memory + 1 < r.column) : r.layout memory = .error .outOfMemory := by
  have h0 : 1 ≤ r.column := by omega
  have hm : memory < r.column - 1 := by omega
  simp [layout, isIndex_column_sub_one h0, hindex, hm]

theorem caretCount_bounds (r : SourceReport) : 1 ≤ r.caretCount ∧ r.caretCount ≤ 2 := by
  unfold caretCount; omega

end SourceReport

/-! ## Lexing errors -/

/-- Why a rule set makes no progress. `noRule` holds the next character, if there is one. -/
inductive LexFault where
  | noRule (next : Option Char)
  | noProgress (rule : String)
  deriving DecidableEq, Repr

/-- The wording of a fault. -/
def LexFault.message : LexFault → String
  | noRule next => "no rule matches " ++ String.ofList (Text.quoted next.toList)
  | noProgress rule =>
    "rule " ++ Text.quotedString rule ++ " produced a node without consuming input"

/-- A fault with its place. -/
structure LexError where
  fault : LexFault
  position : Position
  source : List Char
  deriving DecidableEq, Repr

namespace LexError

/-- The wording of the error alone. -/
def message (e : LexError) : String := e.fault.message

/-- The error as a report on a named source. -/
def report (e : LexError) (fileName : String) : SourceReport :=
  ⟨e.message, fileName, e.position.line, e.position.column, e.source⟩

/-- The error as it is shown for a pattern. -/
def text (e : LexError) : String := (e.report SourceReport.patternName).text

end LexError

end GlobPattern
