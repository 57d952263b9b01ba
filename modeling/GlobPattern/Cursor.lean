import GlobPattern.Text.Lines

/-!
# Positions and cursors

A position in a text is a line and a column, both counted from one, and an offset counted from
zero; all three count characters. Only a line feed starts a new line.

A cursor stands somewhere in a text and only moves forward. It holds the text on both sides of
it, so that a rule sees what follows without any index arithmetic, together with its position.

* `Position`, `Position.start`, `Position.next` (one character on), `Position.after` (a text on);
* `Span`: the stretch between two positions;
* `line_after`, `column_after`, `offset_after`, `after_append`: what a text does to a position;
* `Cursor`, `Cursor.start`, and the views `source`, `parsed`, `offset`, `atEnd`;
* `Cursor.advance`: forward over a number of characters; `Cursor.consume`: the same for any
  integer, refused by `Overrun` when the text does not reach so far;
* `Cursor.peek`, `Cursor.startsWith`, `Cursor.text`, `Cursor.spanFrom`: looking without moving;
* `source_advance`, `parsed_advance`: the source stays and the parsed text grows at its end.
-/

namespace GlobPattern

/-! ## Positions -/

/-- A place in a text. -/
structure Position where
  line : Nat
  column : Nat
  offset : Nat
  deriving DecidableEq, Repr, Inhabited

/-- The stretch of a text from `start` up to `stop`. -/
structure Span where
  start : Position
  stop : Position
  deriving DecidableEq, Repr, Inhabited

namespace Position

/-- The place before the first character. -/
def start : Position := ⟨1, 1, 0⟩

/-- The place just behind `c`, when `c` stands at `p`. -/
def next (p : Position) (c : Char) : Position :=
  if c = '\n' then ⟨p.line + 1, 1, p.offset + 1⟩ else ⟨p.line, p.column + 1, p.offset + 1⟩

/-- The place just behind `text`, when `text` stands at `p`. -/
def after (p : Position) (text : List Char) : Position := text.foldl next p

@[simp] theorem after_nil (p : Position) : p.after [] = p := rfl

@[simp] theorem after_cons (p : Position) (c : Char) (r : List Char) :
    p.after (c :: r) = (p.next c).after r := rfl

@[simp] theorem after_append (p : Position) (s t : List Char) :
    p.after (s ++ t) = (p.after s).after t := List.foldl_append

/-- The offset grows by the number of characters. -/
@[simp] theorem offset_after (p : Position) (text : List Char) :
    (p.after text).offset = p.offset + text.length := by
  induction text generalizing p with
  | nil => rfl
  | cons c r ih =>
    have h : (p.next c).offset = p.offset + 1 := by unfold next; split <;> rfl
    simp only [after_cons, ih, h, List.length_cons]
    omega

theorem line_after (p : Position) (text : List Char) :
    (p.after text).line = p.line + text.count '\n' := by
  induction text generalizing p with
  | nil => rfl
  | cons c r ih =>
    by_cases h : c = '\n'
    · simp [ih, next, h]; omega
    · simp [ih, next, h]

theorem column_after {p : Position} {text : List Char} (h : '\n' ∉ text) :
    (p.after text).column = p.column + text.length := by
  induction text generalizing p with
  | nil => rfl
  | cons c r ih =>
    rw [List.mem_cons, not_or] at h
    have hnext : (p.next c).column = p.column + 1 := by rw [next, if_neg (Ne.symm h.1)]
    rw [after_cons, ih h.2, hnext, List.length_cons]
    omega

end Position

/-! ## Cursors -/

/-- A place in a text: what was consumed (`before`, last character first) and what `remaining`
text follows. The position is the one behind the consumed text. -/
structure Cursor where
  before : List Char
  remaining : List Char
  position : Position
  position_eq : position = Position.start.after before.reverse

/-- More characters were asked for than the text holds, or fewer than none. -/
structure Overrun where
  count : Int
  offset : Nat
  deriving DecidableEq, Repr

/-- The wording of a refused move. -/
def Overrun.message (e : Overrun) : String :=
  "cannot consume " ++ toString e.count ++ " characters at offset " ++ toString e.offset

namespace Cursor

/-- The cursor in front of `source`. -/
def start (source : List Char) : Cursor := ⟨[], source, Position.start, rfl⟩

/-- The consumed text. -/
def parsed (c : Cursor) : List Char := c.before.reverse

/-- The whole text. -/
def source (c : Cursor) : List Char := c.parsed ++ c.remaining

/-- The number of consumed characters. -/
def offset (c : Cursor) : Nat := c.position.offset

/-- Nothing follows. -/
def atEnd (c : Cursor) : Bool := c.remaining.isEmpty

/-- The cursor `k` characters on, or at the end if fewer remain. -/
def advance (c : Cursor) (k : Nat) : Cursor where
  before := (c.remaining.take k).reverse ++ c.before
  remaining := c.remaining.drop k
  position := c.position.after (c.remaining.take k)
  position_eq := by simp [c.position_eq]

/-- Consume exactly `n` characters and return them. -/
def consume (c : Cursor) (n : Int) : Except Overrun (List Char × Cursor) :=
  if 0 ≤ n ∧ n ≤ c.remaining.length then
    .ok (c.remaining.take n.toNat, c.advance n.toNat)
  else
    .error ⟨n, c.offset⟩

/-- What stands between two places of the source. -/
def text (c : Cursor) (start stop : Int) : List Char := Text.slice c.source start stop

/-- The next `n` characters; a negative place `offset + n` counts from the end of the source. -/
def peek (c : Cursor) (n : Int) : List Char := c.text c.offset (c.offset + n)

/-- The remaining text begins with `t`. -/
def startsWith (c : Cursor) (t : List Char) : Bool := t.isPrefixOf c.remaining

/-- The span from an earlier position to the cursor. -/
def spanFrom (c : Cursor) (mark : Position) : Span := ⟨mark, c.position⟩

/-! ### Laws of the views -/

@[simp] theorem offset_eq_length (c : Cursor) : c.offset = c.parsed.length := by
  simp [offset, c.position_eq, Position.start, parsed]

@[simp] theorem parsed_start (s : List Char) : (start s).parsed = [] := rfl

@[simp] theorem remaining_start (s : List Char) : (start s).remaining = s := rfl

@[simp] theorem source_start (s : List Char) : (start s).source = s := rfl

@[simp] theorem parsed_advance (c : Cursor) (k : Nat) :
    (c.advance k).parsed = c.parsed ++ c.remaining.take k := by
  simp [advance, parsed]

@[simp] theorem remaining_advance (c : Cursor) (k : Nat) :
    (c.advance k).remaining = c.remaining.drop k := rfl

@[simp] theorem source_advance (c : Cursor) (k : Nat) : (c.advance k).source = c.source := by
  simp [source]

@[simp] theorem position_advance (c : Cursor) (k : Nat) :
    (c.advance k).position = c.position.after (c.remaining.take k) := rfl

theorem consume_natCast {c : Cursor} {k : Nat} (h : k ≤ c.remaining.length) :
    c.consume k = .ok (c.remaining.take k, c.advance k) := by
  rw [consume, if_pos (by omega), Int.toNat_natCast]

theorem consume_eq_error_iff {c : Cursor} {n : Int} {e : Overrun} :
    c.consume n = .error e ↔ (n < 0 ∨ c.remaining.length < n) ∧ e = ⟨n, c.offset⟩ := by
  unfold consume
  split
  · next h =>
    refine iff_of_false (by simp) fun hn => ?_
    omega
  · next h =>
    rw [Except.error.injEq, eq_comm, iff_and_self]
    intro
    omega

theorem atEnd_iff (c : Cursor) : c.atEnd = true ↔ c.remaining = [] := List.isEmpty_iff

theorem remaining_lt_of_offset_lt {c d : Cursor} {k : Nat} (hd : d = c.advance k)
    (h : c.offset < d.offset) : d.remaining.length < c.remaining.length := by
  subst hd
  simp only [offset_eq_length, parsed_advance, List.length_append, List.length_take] at h
  simp only [remaining_advance, List.length_drop]
  omega

/-- Two cursors at the same place of the same text are equal. -/
@[ext] theorem ext {c d : Cursor} (hp : c.before = d.before) (hr : c.remaining = d.remaining) :
    c = d := by
  obtain ⟨b, r, p, h⟩ := c
  obtain ⟨b', r', p', h'⟩ := d
  cases hp
  cases hr
  cases h
  cases h'
  rfl

@[simp] theorem advance_zero (c : Cursor) : c.advance 0 = c := by
  ext1 <;> simp [advance]

theorem advance_advance (c : Cursor) (j k : Nat) :
    (c.advance j).advance k = c.advance (j + k) := by
  ext1
  · simp [advance, List.take_add]
  · simp [advance]

end Cursor

end GlobPattern
