import GlobPattern.Lexeme
import GlobPattern.Text.Lines

/-!
# Recognisers

Each recogniser is a function of the text ahead and of the few facts about the past that it looks
at; what it accepts covers a beginning of that text.

* **Markers** begin with a character of their own: `Lexeme.escape?`, `Lexeme.not?`, `Lexeme.dot?`,
  `Lexeme.plus?`, `Lexeme.slash?`, `Lexeme.backslash?`.
* **Wildcards** are `Lexeme.qmark?`, `Lexeme.globstar?` and `Lexeme.star?`. The last `?` or `*` in
  front of an opening parenthesis belongs to a group and is left to it. Two stars are a globstar
  when a path segment or a group alternative ends behind them (`Lexeme.endsSegment`,
  `Lexeme.isGlobstarSegment`); `/**` repeated in front of a further slash (`Lexeme.repeats`) is
  folded into it.
* **Quotations** (`Lexeme.quoted?`) stretch between two equal quotes, and a backslash in them takes
  the next character as it is. A quote that does not occur again is a literal character; one that
  occurs again only behind a backslash opens a quotation that runs to the end of the pattern.
* **Plain text** (`Lexeme.text?`) is what no other rule claims. A run of it (`Lexeme.plainRun?`)
  stops at every character that may begin something else; `*(` in front of further text is plain as
  well, and a single character is plain as a last resort.
-/

namespace GlobPattern.Lexeme

/-! ## Markers -/

/-- A dot and a separator of either kind. -/
def leadsWithDot : List Char → Bool
  | '.' :: c :: _ => c == '/' || c == '\\'
  | _ => false

/-- A backslash with the character it escapes, or one of the anchors `$` and `^`. -/
def escape? (inBracket : Bool) (r : List Char) : Option Lexeme :=
  if inBracket then none
  else
    match r with
    | '\\' :: c :: _ => some ⟨.escape, [c], ['\\', c]⟩
    | '$' :: _ => some (plain .escape ['$'])
    | '^' :: _ => some (plain .escape ['^'])
    | _ => none

/-- A run of `!`. In front of a pattern an even run stands for nothing, and so does an odd run
unless `noNegate` is set: it wraps the pattern instead. Elsewhere the run is literal. -/
def not? (noNegate atStart : Bool) (r : List Char) : Option Lexeme :=
  let raw := run '!' r
  let odd := raw.length % 2 == 1
  let value := if atStart && !(odd && noNegate) then [] else raw
  if raw = [] then none else some ⟨.not (atStart && odd && !noNegate), value, raw⟩

/-- A run of dots. A single dot opens a path segment in front of a pattern or behind a slash. -/
def dot? (segmentStart : Bool) (r : List Char) : Option Lexeme :=
  let raw := run '.' r
  plain? (.dot (segmentStart && raw == ['.'])) raw

/-- A plus that opens no group. -/
def plus? : List Char → Option Lexeme
  | '+' :: '(' :: _ => none
  | '+' :: _ => some (plain .plus ['+'])
  | _ => none

/-- A path separator. -/
def slash? : List Char → Option Lexeme
  | '/' :: _ => some (plain .slash ['/'])
  | _ => none

/-- The characters that keep the backslash in front of them. -/
def escapable : List Char := ['*', '+', '?', '(', ')', '{', '}', '[', ']', '\'', '"']

/-- A run of backslashes, less one in front of an escapable character. It stands for one backslash
inside a bracket context, and for at most two elsewhere. -/
def backslash? (inBracket : Bool) (r : List Char) : Option Lexeme :=
  let raw := runBefore '\\' escapable r
  if raw = [] then none
  else some ⟨.backslash, raw.take (if inBracket then 1 else 2), raw⟩

/-! ### Laws -/

theorem escape?_covers {b : Bool} {r : List Char} {l : Lexeme} (h : escape? b r = some l) :
    l.Covers r := by
  unfold escape? at h
  split at h
  · cases h
  · split at h <;> cases h <;> exact ⟨by simp [plain], by simp [plain]⟩

theorem not?_covers {b a : Bool} {r : List Char} {l : Lexeme} (h : not? b a r = some l) :
    l.Covers r := by
  unfold not? at h
  dsimp only at h
  split at h
  · cases h
  · next hn => cases h; exact ⟨hn, run_isPrefix '!' r⟩

theorem dot?_covers {b : Bool} {r : List Char} {l : Lexeme} (h : dot? b r = some l) :
    l.Covers r := .of_plain? h (run_isPrefix '.' r)

theorem plus?_covers {r : List Char} {l : Lexeme} (h : plus? r = some l) : l.Covers r := by
  unfold plus? at h
  split at h <;> cases h
  exact ⟨by simp [plain], by simp [plain]⟩

theorem slash?_covers {r : List Char} {l : Lexeme} (h : slash? r = some l) : l.Covers r := by
  unfold slash? at h
  split at h <;> cases h
  exact ⟨by simp [plain], by simp [plain]⟩

theorem backslash?_covers {b : Bool} {r : List Char} {l : Lexeme}
    (h : backslash? b r = some l) : l.Covers r := by
  unfold backslash? at h
  dsimp only at h
  split at h
  · cases h
  · next hn => cases h; exact ⟨hn, runBefore_isPrefix '\\' escapable r⟩

/-! ## Wildcards -/

/-- A run of `?` with the text consumed before it. -/
@[inline] def qmark? (parsed r : List Char) : Option Lexeme := plain? (.qmark parsed) (runBefore '?' ['('] r)

/-- The repetitions of `/**` that a slash follows. -/
def repeats : List Char → List Char
  | '/' :: '*' :: '*' :: r => if r.head? = some '/' then '/' :: '*' :: '*' :: repeats r else []
  | _ => []

/-- A globstar may stand in front of `r`. -/
def endsSegment : List Char → Bool
  | [] => true
  | c :: _ => c == ',' || c == ')' || c == '/'

/-- Two stars at the end of a segment with their foldable repetitions. With `noGlobstar` they are a
plain star. -/
@[inline] def globstar? (noGlobstar : Bool) (parsed : List Char) (inside : Enclosure) :
    List Char → Option Lexeme
  | '*' :: '*' :: r =>
    if endsSegment r then
      let raw := '*' :: '*' :: repeats r
      some (if noGlobstar then ⟨.star, ['*'], raw⟩ else ⟨.globstar parsed inside, ['*', '*'], raw⟩)
    else none
  | _ => none

/-- Two stars that are a whole path segment from there on. -/
def isGlobstarSegment (r : List Char) : Bool :=
  run '*' r == ['*', '*'] && ((afterRun '*' r).isEmpty || (afterRun '*' r).head? == some '/')

/-- A run of `*`, unless it is two stars in front of a slash or at the end. -/
def star? (r : List Char) : Option Lexeme :=
  if isGlobstarSegment r then none else plain? .star (runBefore '*' ['('] r)

/-! ### Laws -/

theorem qmark?_covers {p r : List Char} {l : Lexeme} (h : qmark? p r = some l) : l.Covers r :=
  .of_plain? h (runBefore_isPrefix '?' ['('] r)

theorem repeats_isPrefix (r : List Char) : repeats r <+: r := by
  fun_induction repeats r <;> simp_all

theorem globstar?_covers {b : Bool} {p : List Char} {e : Enclosure} {r : List Char} {l : Lexeme}
    (h : globstar? b p e r = some l) : l.Covers r := by
  unfold globstar? at h
  split at h
  · dsimp only at h
    split at h
    · cases h
      split <;> exact ⟨by simp, by simpa using repeats_isPrefix _⟩
    · cases h
  · cases h

theorem star?_covers {r : List Char} {l : Lexeme} (h : star? r = some l) : l.Covers r := by
  unfold star? at h
  split at h
  · cases h
  · exact .of_plain? h (runBefore_isPrefix '*' ['('] r)

/-! ## Quotations -/

/-- What `q` opens stands for, and the text it covers with its closing quote. -/
def quotation (q : Char) : List Char → List Char × List Char
  | [] => ([], [])
  | '\\' :: c :: r =>
    let (value, raw) := quotation q r
    (c :: value, '\\' :: c :: raw)
  | c :: r =>
    if c = q then ([], [c])
    else
      let (value, raw) := quotation q r
      (c :: value, c :: raw)

/-- The two quotes. -/
def isQuote (c : Char) : Bool := c == '"' || c == '\''

/-- A quotation, or a quote that stands for itself. -/
def quoted? : List Char → Option Lexeme
  | [] => none
  | q :: r =>
    if isQuote q then
      if q ∈ r then
        let (value, raw) := quotation q r
        some ⟨.quoted, value, q :: raw⟩
      else some (plain .escape [q])
    else none

/-! ### Laws -/

theorem quotation_cons {q a : Char} {r : List Char} (ha : a ≠ '\\') : quotation q (a :: r) =
    if a = q then ([], [a]) else (a :: (quotation q r).1, a :: (quotation q r).2) := by
  rw [quotation]
  intro c t hc
  exact absurd hc ha

theorem quotation_pair {q c : Char} {r : List Char} : quotation q ('\\' :: c :: r) =
    (c :: (quotation q r).1, '\\' :: c :: (quotation q r).2) := rfl

theorem quotation_isPrefix (q : Char) (r : List Char) : (quotation q r).2 <+: r := by
  fun_induction quotation q r <;> simp_all

theorem quoted?_covers {r : List Char} {l : Lexeme} (h : quoted? r = some l) : l.Covers r := by
  unfold quoted? at h
  split at h
  · cases h
  · split at h
    · split at h <;> cases h
      · exact ⟨by simp, by simpa using quotation_isPrefix _ _⟩
      · exact ⟨by simp [plain], by simp [plain]⟩
    · cases h

/-! ## Plain text -/

/-- The characters that stop a run of plain text. -/
def stopChars : List Char := ['[', '!', '*', '+', '?', '$', '^', '"', '\'', '.', '\\', '/']

/-- The character may begin something other than plain text. -/
def isStop (c : Char) : Bool := c ∈ stopChars

/-- The opener `*(` with something behind it, or the longest run without a stop character. -/
def plainRun? : List Char → Option (List Char)
  | '*' :: '(' :: _ :: _ => some ['*', '(']
  | r =>
    let plainRun := r.takeWhile (!isStop ·)
    if plainRun = [] then none else some plainRun

/-- The stretch of plain text at a place of `s`. Places in front of the text are its beginning and
places behind it its end; a number that is no index is no place. -/
def plainRunAt (s : List Char) (place : Int) : Except Text.NoIndex (Option (List Char)) :=
  if Text.isIndex place then .ok (plainRun? (s.drop place.toNat)) else .error ⟨place⟩

/-- Plain text, or the next character if there is none. -/
def text? (inBracket : Bool) (r : List Char) : Option Lexeme :=
  if inBracket then none else plain? .text ((plainRun? r).getD (r.take 1))

/-! ### Laws -/

theorem plainRun?_isPrefix {r t : List Char} (h : plainRun? r = some t) : t ≠ [] ∧ t <+: r := by
  unfold plainRun? at h
  split at h
  · cases h; simp
  · dsimp only at h
    split at h
    · cases h
    · next hn => cases h; exact ⟨hn, List.takeWhile_prefix _⟩

theorem text?_covers {b : Bool} {r : List Char} {l : Lexeme} (h : text? b r = some l) :
    l.Covers r := by
  unfold text? at h
  split at h
  · cases h
  · refine .of_plain? h ?_
    cases hp : plainRun? r with
    | some t => exact (plainRun?_isPrefix hp).2
    | none => exact List.take_prefix 1 r

end GlobPattern.Lexeme
