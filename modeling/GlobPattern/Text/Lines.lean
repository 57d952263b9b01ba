/-!
# Lines and places

A text falls into lines at line feed, carriage return, the pair of both, vertical tab, form feed,
the separators U+001C to U+001E, next line (U+0085) and the separators U+2028 and U+2029. A text
that ends in a line break has no empty last line.

A stretch of a list stands between two places given as integers: a negative place counts from the
end, and a place outside the list is the nearer end. Numbers that count places fit a signed word of
64 bits.

* `Text.isLineBreak`, `Text.Line` (content and ending), `Text.lines`;
* `isLineBreak_of_mem_content`: no line goes on behind a line break;
* `Text.place`, `Text.slice`: where an integer points, and what stands between two places;
* `Text.isIndex`, `Text.NoIndex`.
-/

namespace GlobPattern.Text

/-- The characters that end a line. -/
def isLineBreak (c : Char) : Bool :=
  c ∈ ['\n', '\r', '\x0b', '\x0c', '\x1c', '\x1d', '\x1e', '\u0085', '\u2028', '\u2029']

/-- A line, apart from the break that ends it; the last line of a text may have none. -/
structure Line where
  content : List Char
  ending : List Char
  deriving DecidableEq, Repr

/-- The line as it stands in the text. -/
def Line.text (l : Line) : List Char := l.content ++ l.ending

/-- The lines of a text. -/
def lines : List Char → List Line
  | [] => []
  | '\r' :: '\n' :: r => ⟨[], ['\r', '\n']⟩ :: lines r
  | c :: r =>
    if isLineBreak c then ⟨[], [c]⟩ :: lines r
    else
      match lines r with
      | [] => [⟨[c], []⟩]
      | l :: rest => { l with content := c :: l.content } :: rest

theorem isLineBreak_of_mem_content (s : List Char) :
    ∀ l ∈ lines s, ∀ c ∈ l.content, isLineBreak c = false := by
  fun_induction lines s with
  | case1 => simp
  | case2 r ih => simpa using ih
  | case3 c r _ hc ih => simpa using ih
  | case4 c r _ hc h ih => simpa using hc
  | case5 c r _ hc l rest h ih =>
    rw [h] at ih
    simp only [List.forall_mem_cons] at ih ⊢
    exact ⟨⟨Bool.eq_false_iff.2 hc, ih.1⟩, ih.2⟩

/-! ## Slices -/

/-- Where `i` points in a list of length `size`. -/
def place (size : Nat) (i : Int) : Nat := if i < 0 then (i + size).toNat else min i.toNat size

/-- What stands in `s` from `start` up to `stop`. -/
def slice {α : Type} (s : List α) (start stop : Int) : List α :=
  (s.take (place s.length stop)).drop (place s.length start)

theorem place_of_le {size k : Nat} (h : k ≤ size) : place size k = k := by
  rw [place, if_neg (by omega)]; omega

theorem slice_append {α : Type} (s t r : List α) :
    slice (s ++ t ++ r) s.length (s.length + t.length) = t := by
  have h₁ : place (s ++ t ++ r).length s.length = s.length := place_of_le (by simp)
  have h₂ : place (s ++ t ++ r).length (s.length + t.length) = (s ++ t).length := by
    rw [← Int.natCast_add, place_of_le (by simp)]; simp
  rw [slice, h₁, h₂, List.take_left, List.drop_left]

/-! ## Indices -/

/-- The number fits a signed word of 64 bits. -/
def isIndex (n : Int) : Bool := -0x8000000000000000 ≤ n && n < 0x8000000000000000

/-- A number that is no index stands where one is due. -/
structure NoIndex where
  number : Int
  deriving DecidableEq, Repr

end GlobPattern.Text
