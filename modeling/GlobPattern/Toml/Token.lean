import GlobPattern.Text.Character

/-!
# TOML numbers, moments, strings and keys

How the values that hold no others are spelled. Numbers and moments are recognised by the longest
spelling that a text begins with: digits may be separated by single underscores, and a date must
exist in the calendar.

Strings have four forms: basic (with escapes) and literal (without), on one line or on several. A
control character other than a tab stands in none, and a line feed only in the long forms. A string
of the long form may end in up to two quotes of its own. A key is a sequence of parts with dots
between them, each a bare word or a short string. The readers of strings and keys give what they
read and the text behind it, or nothing.

* `Scalar.digits`, `Scalar.number?`, `Scalar.time?`, `Scalar.dateTime?`;
* `Scalar.Number`: a number's spelling, and whether it is a whole number in base ten;
* `Quotation.basic?`, `Quotation.literal?`, `Quotation.longBasic?`, `Quotation.longLiteral?`;
* `Quotation.escape?`: what stands behind a backslash;
* `skipSpace`, `isControl`; `keyPart?`, `key?`.
-/

namespace GlobPattern.Toml.Scalar

/-! ## Numbers -/

/-- Further digits, each possibly behind an underscore. -/
def moreDigits (isDigit : Char → Bool) : List Char → List Char
  | '_' :: c :: r => if isDigit c then '_' :: c :: moreDigits isDigit r else []
  | c :: r => if isDigit c then c :: moreDigits isDigit r else []
  | [] => []

/-- A digit and further digits. -/
def digits (isDigit : Char → Bool) : List Char → List Char
  | c :: r => if isDigit c then c :: moreDigits isDigit r else []
  | [] => []

/-- A number as spelled; `whole` if it is an integer in base ten. -/
structure Number where
  spelling : List Char
  whole : Bool
  deriving DecidableEq, Repr

/-- An integer behind a base mark. -/
def based? : List Char → Option (List Char)
  | '0' :: 'x' :: r => mark 'x' (digits Text.isHexDigit r)
  | '0' :: 'b' :: r => mark 'b' (digits (fun c => c == '0' || c == '1') r)
  | '0' :: 'o' :: r => mark 'o' (digits (fun c => '0' ≤ c && c ≤ '7') r)
  | _ => none
where
  mark (base : Char) (ds : List Char) : Option (List Char) :=
    if ds = [] then none else some ('0' :: base :: ds)

/-- A sign, if there is one. -/
def sign : List Char → List Char
  | '+' :: _ => ['+']
  | '-' :: _ => ['-']
  | _ => []

/-- A zero, or digits that do not begin with one. -/
def whole : List Char → List Char
  | '0' :: _ => ['0']
  | r => digits Char.isDigit r

/-- A point with digits behind it. -/
def fraction : List Char → List Char
  | '.' :: r => if digits Char.isDigit r = [] then [] else '.' :: digits Char.isDigit r
  | _ => []

/-- An exponent mark with a sign and digits. -/
def exponent : List Char → List Char
  | c :: r =>
    let ds := digits Char.isDigit (r.drop (sign r).length)
    if (c = 'e' ∨ c = 'E') ∧ ds ≠ [] then c :: sign r ++ ds else []
  | [] => []

/-- A number in base ten. -/
def decimal? (s : List Char) : Option Number :=
  let r := s.drop (sign s).length
  let i := whole r
  let f := fraction (r.drop i.length)
  let e := exponent (r.drop (i.length + f.length))
  if i = [] then none else some ⟨sign s ++ i ++ f ++ e, f.isEmpty && e.isEmpty⟩

/-- A number. -/
def number? (s : List Char) : Option Number :=
  match based? s with
  | some spelling => some ⟨spelling, false⟩
  | none => decimal? s

/-- The digits of a whole number, without sign and underscores. -/
def Number.digitCount (n : Number) : Nat := n.spelling.countP Char.isDigit

/-- Infinity or no number, possibly with a sign. -/
def special? (s : List Char) : Option (List Char) :=
  let name := (s.drop (sign s).length).take 3
  if name = ['i', 'n', 'f'] ∨ name = ['n', 'a', 'n'] then some (sign s ++ name) else none

/-! ## Moments -/

/-- The number that two digits stand for. -/
def twoDigits? (a b : Char) : Option Nat :=
  if a.isDigit && b.isDigit then some ((a.toNat - 48) * 10 + (b.toNat - 48)) else none

/-- Two digits that stand for a number in a range. -/
def inRange (lo hi : Nat) (a b : Char) : Bool :=
  match twoDigits? a b with
  | some n => lo ≤ n && n ≤ hi
  | none => false

/-- Hours and minutes. -/
def hourMinute? : List Char → Option (List Char)
  | a :: b :: ':' :: c :: d :: _ =>
    if inRange 0 23 a b && inRange 0 59 c d then some [a, b, ':', c, d] else none
  | _ => none

/-- A point with digits of a second behind it, without underscores. -/
def secondFraction : List Char → List Char
  | '.' :: r => if r.takeWhile Char.isDigit = [] then [] else '.' :: r.takeWhile Char.isDigit
  | _ => []

/-- A time of day with its seconds. -/
def time? (s : List Char) : Option (List Char) := do
  let hm ← hourMinute? s
  match s.drop hm.length with
  | ':' :: a :: b :: r =>
    if inRange 0 59 a b then some (hm ++ ':' :: a :: b :: secondFraction r) else none
  | _ => none

/-- An offset from universal time, if there is one. -/
def offset : List Char → List Char
  | 'Z' :: _ => ['Z']
  | 'z' :: _ => ['z']
  | c :: r =>
    if c = '+' ∨ c = '-' then
      match hourMinute? r with
      | some hm => c :: hm
      | none => []
    else []
  | [] => []

/-- The year has a leap day. -/
def isLeap (year : Nat) : Bool := year % 4 == 0 && (year % 100 != 0 || year % 400 == 0)

/-- The number of days of a month. -/
def daysIn (year month : Nat) : Nat :=
  if month = 2 then (if isLeap year then 29 else 28)
  else if month = 4 ∨ month = 6 ∨ month = 9 ∨ month = 11 then 30
  else 31

/-- A date and, behind a `T` or a blank, a time with an offset. -/
structure DateTime where
  spelling : List Char
  year : Nat
  month : Nat
  day : Nat
  deriving DecidableEq, Repr

/-- The date exists. -/
def DateTime.isValid (d : DateTime) : Bool := 1 ≤ d.year && d.day ≤ daysIn d.year d.month

/-- The time behind a date, with its separator, if there is one. -/
def timeOfDay : List Char → List Char
  | c :: r =>
    if c = 'T' ∨ c = 't' ∨ c = ' ' then
      match time? r with
      | some t => c :: t ++ offset (r.drop t.length)
      | none => []
    else []
  | [] => []

/-- A date, with the time of day that follows it. -/
def dateTime? : List Char → Option DateTime
  | a :: b :: c :: d :: '-' :: e :: f :: '-' :: g :: h :: r => do
    let century ← twoDigits? a b
    let rest ← twoDigits? c d
    let month ← twoDigits? e f
    let day ← twoDigits? g h
    if inRange 1 12 e f && inRange 1 31 g h then
      some ⟨[a, b, c, d, '-', e, f, '-', g, h] ++ timeOfDay r, century * 100 + rest, month, day⟩
    else none
  | _ => none

end GlobPattern.Toml.Scalar

namespace GlobPattern.Toml

/-! ## Strings -/

/-- A control character other than a tab. -/
def isControl (c : Char) : Bool := (c.toNat < 0x20 && c != '\t') || c.toNat == 0x7f

/-- A blank or a tab. -/
def isSpace (c : Char) : Bool := c == ' ' || c == '\t'

/-- A blank, a tab or a line feed. -/
def isSpaceOrFeed (c : Char) : Bool := isSpace c || c == '\n'

/-- Past blanks and tabs. -/
def skipSpace (s : List Char) : List Char := s.dropWhile isSpace

namespace Quotation

/-- The character with the code that the next `k` hexadecimal digits spell. -/
def coded? (k : Nat) (s : List Char) : Option (List Char × List Char) :=
  let ds := s.take k
  let n := ds.foldl (fun n c => 16 * n + Text.hexValue c) 0
  if ds.length = k ∧ ds.all Text.isHexDigit ∧ n.isValidChar then
    some ([Char.ofNat n], s.drop k)
  else none

/-- Past a line feed that a backslash hides, with all white space behind it. -/
def continued? (s : List Char) : Option (List Char) :=
  match skipSpace s with
  | [] => some []
  | '\n' :: r => some (r.dropWhile isSpaceOrFeed)
  | _ => none

/-- What a backslash in front of `s` stands for; in a long string it also hides a line feed. -/
def escape? (long : Bool) (s : List Char) : Option (List Char × List Char) :=
  match s with
  | 'b' :: r => some (['\x08'], r)
  | 't' :: r => some (['\t'], r)
  | 'n' :: r => some (['\n'], r)
  | 'f' :: r => some (['\x0c'], r)
  | 'r' :: r => some (['\r'], r)
  | '"' :: r => some (['"'], r)
  | '\\' :: r => some (['\\'], r)
  | 'u' :: r => coded? 4 r
  | 'U' :: r => coded? 8 r
  | c :: _ =>
    if long && isSpaceOrFeed c then (continued? s).map fun r => ([], r) else none
  | [] => none

/-- The rest of a basic string behind its opening, and the text behind its close. The fuel bounds
the number of characters and escapes. -/
def basicRest? (long : Bool) : Nat → List Char → Option (List Char × List Char)
  | 0, _ => none
  | fuel + 1, s =>
    match s with
    | [] => none
    | '"' :: r =>
      if long then
        match r with
        | '"' :: '"' :: r' => some ([], r')
        | _ => (basicRest? long fuel r).map fun (t, rest) => ('"' :: t, rest)
      else some ([], r)
    | '\\' :: r => do
      let (cs, r') ← escape? long r
      (basicRest? long fuel r').map fun (t, rest) => (cs ++ t, rest)
    | c :: r =>
      if isControl c && !(long && c == '\n') then none
      else (basicRest? long fuel r).map fun (t, rest) => (c :: t, rest)

/-- The rest of a literal string behind its opening, and the text behind its close. -/
def literalRest? (long : Bool) : List Char → Option (List Char × List Char)
  | [] => none
  | '\'' :: r =>
    if long then
      match r with
      | '\'' :: '\'' :: r' => some ([], r')
      | _ => (literalRest? long r).map fun (t, rest) => ('\'' :: t, rest)
    else some ([], r)
  | c :: r =>
    if isControl c && !(long && c == '\n') then none
    else (literalRest? long r).map fun (t, rest) => (c :: t, rest)

/-- A line feed right behind the opening of a long string does not count. -/
def dropFeed : List Char → List Char
  | '\n' :: r => r
  | s => s

/-- A long string with up to two further quotes that belong to it. -/
def withQuotes (quote : Char) : List Char × List Char → List Char × List Char
  | (t, c :: d :: r) =>
    if c = quote then
      if d = quote then (t ++ [c, d], r) else (t ++ [c], d :: r)
    else (t, c :: d :: r)
  | (t, [c]) => if c = quote then (t ++ [c], []) else (t, [c])
  | (t, []) => (t, [])

/-- A basic string behind its opening quote. -/
def basic? (s : List Char) : Option (List Char × List Char) := basicRest? false (s.length + 1) s

/-- A literal string behind its opening quote. -/
def literal? (s : List Char) : Option (List Char × List Char) := literalRest? false s

/-- A long basic string behind its opening quotes. -/
def longBasic? (s : List Char) : Option (List Char × List Char) :=
  (basicRest? true (s.length + 1) (dropFeed s)).map (withQuotes '"')

/-- A long literal string behind its opening quotes. -/
def longLiteral? (s : List Char) : Option (List Char × List Char) :=
  (literalRest? true (dropFeed s)).map (withQuotes '\'')

end Quotation

/-! ### Keys -/

/-- A character of a bare key. -/
def isBare (c : Char) : Bool := c.isAlphanum || c == '-' || c == '_'

/-- A part of a key. -/
def keyPart? (s : List Char) : Option (String × List Char) :=
  match s with
  | '\'' :: r => (Quotation.literal? r).map fun (t, rest) => (String.ofList t, rest)
  | '"' :: r => (Quotation.basic? r).map fun (t, rest) => (String.ofList t, rest)
  | _ =>
    if s.takeWhile isBare = [] then none
    else some (String.ofList (s.takeWhile isBare), s.dropWhile isBare)

/-- The parts of a key, and the text behind the key and the blanks after it. The fuel bounds the
number of parts. -/
def keyRest? : Nat → List Char → Option (List String × List Char)
  | 0, _ => none
  | fuel + 1, s => do
    let (part, r) ← keyPart? s
    match skipSpace r with
    | '.' :: r' => (keyRest? fuel (skipSpace r')).map fun (parts, rest) => (part :: parts, rest)
    | r' => some ([part], r')

/-- A key. -/
def key? (s : List Char) : Option (List String × List Char) := keyRest? (s.length + 1) s

end GlobPattern.Toml
