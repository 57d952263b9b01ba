import GlobPattern.Text.Character
import GlobPattern.Proofs.Text.StrayBreak

/-!
# Texts on one line

A text without line breaks stays on the line it is written to. Quoted literals and numbers are such
texts, whatever they stand for: no line break is printable, so a literal has its code point instead.

* `Text.OneLine` and how it is put together; `forall_isLineBreak_iff`;
* `isPrintable_of_isLineBreak`, **`oneLine_quoted`**, `oneLine_toString`;
* `notMem_toString`: nothing but digits and a minus is in a number;
* **`lines_flatMap_feed`**: rows that are ended by line feeds are the lines of what they make up.
-/

namespace GlobPattern.Text

variable {s t : List Char} {c q : Char}

/-- No character of the text is a line break. -/
def OneLine (s : List Char) : Prop := ∀ c ∈ s, isLineBreak c = false

-- by the characters of the text, not by all that there are
instance (s : List Char) : Decidable (OneLine s) :=
  decidable_of_iff (s.all fun c => !isLineBreak c) (by simp [OneLine])

theorem oneLine_nil : OneLine [] := List.forall_mem_nil _

theorem OneLine.cons (hs : OneLine s) (hc : isLineBreak c = false) : OneLine (c :: s) :=
  List.forall_mem_cons.2 ⟨hc, hs⟩

theorem OneLine.append (hs : OneLine s) (ht : OneLine t) : OneLine (s ++ t) :=
  List.forall_mem_append.2 ⟨hs, ht⟩

theorem oneLine_flatMap {α : Type} {f : α → List Char} {xs : List α}
    (h : ∀ x ∈ xs, OneLine (f x)) : OneLine (xs.flatMap f) := by
  intro c hc
  obtain ⟨x, hx, hcx⟩ := List.mem_flatMap.1 hc
  exact h x hx c hcx

theorem OneLine.newline_notMem (h : OneLine s) : '\n' ∉ s := by
  intro hc
  exact absurd (h '\n' hc) (by decide)

theorem forall_isLineBreak_iff {p : Char → Prop} : (∀ c, isLineBreak c = true → p c) ↔
    p '\n' ∧ p '\r' ∧ p '\x0b' ∧ p '\x0c' ∧ p '\x1c' ∧ p '\x1d' ∧ p '\x1e' ∧ p '\u0085' ∧
      p '\u2028' ∧ p '\u2029' := by
  simp [isLineBreak]

theorem isLineBreak_eq_false_of {p : Char → Bool} (hp : ∀ c, isLineBreak c = true → p c = false)
    (h : p c = true) : isLineBreak c = false := by
  by_contra hb
  rw [hp c (by simpa using hb)] at h
  cases h

/-! ## Numbers -/

theorem isDigit_of_isLineBreak : ∀ c, isLineBreak c = true → c.isDigit = false :=
  forall_isLineBreak_iff.2 (by decide)

theorem oneLine_toString (n : Nat) : OneLine (toString n).toList := by
  intro c hc
  rw [Nat.toString_eq_repr, Nat.toList_repr] at hc
  have hdigit : c.isDigit = true := Nat.isDigit_of_mem_toDigits (by decide) (by decide) hc
  exact isLineBreak_eq_false_of isDigit_of_isLineBreak hdigit

theorem eq_minus_or_isDigit_of_mem_toString {n : Int} (hc : c ∈ (toString n).toList) :
    c = '-' ∨ c.isDigit = true := by
  rw [Int.toString_eq_repr, Int.repr_eq_if] at hc
  split at hc
  · rw [Nat.toList_repr] at hc
    exact .inr (Nat.isDigit_of_mem_toDigits (by decide) (by decide) hc)
  · rw [String.toList_append, List.mem_append, Nat.toList_repr] at hc
    rcases hc with hc | hc
    · exact .inl (List.mem_singleton.1 hc)
    · exact .inr (Nat.isDigit_of_mem_toDigits (by decide) (by decide) hc)

theorem notMem_toString (hminus : c ≠ '-') (hdigit : c.isDigit = false) (n : Int) :
    c ∉ (toString n).toList := by
  intro hc
  rcases eq_minus_or_isDigit_of_mem_toString hc with h | h
  · exact hminus h
  · rw [hdigit] at h
    cases h

/-! ## Quoted literals -/

theorem isPrintable_of_isLineBreak : ∀ c, isLineBreak c = true → isPrintable c = false :=
  forall_isLineBreak_iff.2 (by decide +kernel)

theorem isLineBreak_hexDigit : ∀ d < 16, isLineBreak (hexDigit d) = false := by decide

theorem oneLine_hexDigits (k n : Nat) : OneLine (hexDigits k n) := by
  induction k generalizing n with
  | zero => exact oneLine_nil
  | succ k ih =>
    have hlast := isLineBreak_hexDigit (n % 16) (Nat.mod_lt n (by decide))
    exact (ih _).append (oneLine_nil.cons hlast)

theorem oneLine_escapeCode (c : Char) : OneLine (escapeCode c) := by
  unfold escapeCode
  split_ifs
  · exact ((oneLine_hexDigits _ _).cons (by decide)).cons (by decide)
  · exact ((oneLine_hexDigits _ _).cons (by decide)).cons (by decide)
  · exact ((oneLine_hexDigits _ _).cons (by decide)).cons (by decide)

theorem oneLine_escapeChar (hq : isLineBreak q = false) (c : Char) : OneLine (escapeChar q c) := by
  unfold escapeChar
  split_ifs with hquote htab hfeed hreturn hprint
  · have hc : isLineBreak c = false := by
      rcases hquote with rfl | rfl
      · exact hq
      · decide
    exact (oneLine_nil.cons hc).cons (by decide)
  · decide
  · decide
  · decide
  · exact oneLine_nil.cons (isLineBreak_eq_false_of isPrintable_of_isLineBreak hprint)
  · exact oneLine_escapeCode c

theorem isLineBreak_quoteFor (s : List Char) : isLineBreak (quoteFor s) = false := by
  unfold quoteFor
  split <;> decide

/-- **A quoted literal is on one line.** -/
theorem oneLine_quoted (s : List Char) : OneLine (quoted s) := by
  have hq := isLineBreak_quoteFor s
  have hbody := oneLine_flatMap fun c (_ : c ∈ s) => oneLine_escapeChar hq c
  exact (hbody.cons hq).append (oneLine_nil.cons hq)

/-! ## Rows -/

/-- **Rows on one line each, ended by line feeds, are the lines of what they make up.** -/
theorem lines_flatMap_feed {rows : List (List Char)} (h : ∀ r ∈ rows, OneLine r) :
    lines (rows.flatMap (· ++ ['\n'])) = rows.map (⟨·, ['\n']⟩) := by
  induction rows with
  | nil => rfl
  | cons r rows ih =>
    rw [List.forall_mem_cons] at h
    rw [List.flatMap_cons, List.append_assoc, List.map_cons]
    refine lines_append_of_plain h.1 ?_
    rw [List.singleton_append, lines_cons_break (by decide) (by simp), ih h.2]

end GlobPattern.Text
