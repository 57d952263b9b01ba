import GlobPattern.Proofs.Boundary
import GlobPattern.Proofs.Grammar
import GlobPattern.Proofs.Summary
import GlobPattern.Proofs.Text.StrayBreak

/-!
# Where a class ends

The first character of a class is text, even if it is a closing bracket. The next closing bracket
ends the class. A class that no bracket closes reaches up to the last character of the pattern that
is no repeater, and if that leaves nothing between it and the opening bracket, the bracket opens no
class.

* `Segments.isClass_of_mem`: the classes among the nodes of a pattern;
* `Lexeme.classText`, `Lexeme.BeginsRange`: the text of a class, and the texts that begin with a
  range from a closing bracket on;
* **`tokenize_class_closes`**: a class and its first closing bracket;
* `Lexeme.eq_of_unclosed`: what begins at a bracket that no bracket closes;
* `Node.UnclosedClass`, **`tokenize_class_unclosed`**: how far that reaches.
-/

namespace GlobPattern

variable {options : Options} {pattern front : List Char} {ls : List Lexeme} {n : Node}
  {negated : Bool} {inner close : List Char}

/-! ## Classes among the nodes -/

namespace Lexeme

variable {r : List Char} {l : Lexeme}

theorem isClass_of_ahead? (h : ahead? r = some l) (hl : l.shape = .bracket negated inner close) :
    l.IsClass negated inner close (r.drop l.raw.length) := by
  have hin := Scan.inLanguage_of_lexeme? (s := Scan.start r {}) rfl h
    (covers_of_ahead? h).append_drop
  rw [InLanguage, hl] at hin
  exact hin.1

theorem inPlace_of_kind_eq_bracket (h : (l.inPlace options front).kind = .bracket) :
    l.inPlace options front = l := by
  refine inPlace_eq_self ?_
  rw [kind_inPlace] at h
  split at h
  · cases h
  · rw [h]
    decide

end Lexeme

theorem Segments.isClass_of_mem (h : Segments pattern ls)
    (hn : n ∈ (Ast.ofSegments options pattern ls).nodes)
    (hs : n.shape = .bracket negated inner close) :
    n.toLexeme.IsClass negated inner close
      ((pattern.drop n.span.start.offset).drop n.raw.length) := by
  obtain ⟨l, hl, hread⟩ := h.exists_ahead_of_mem hn
  have hkind : (l.inPlace options (pattern.take n.span.start.offset)).kind = .bracket := by
    rw [← hread]
    exact congrArg Shape.kind hs
  rw [Lexeme.inPlace_of_kind_eq_bracket hkind] at hread
  have hclass := Lexeme.isClass_of_ahead? hl (hread ▸ hs)
  rwa [← hread] at hclass

/-! ## Closed classes -/

namespace Lexeme

variable {sigil behind body : List Char} {l : Lexeme}

/-- The text of a class: what stands behind its bracket and its sigil. -/
def classText (negated : Bool) (raw : List Char) : List Char := raw.drop (if negated then 2 else 1)

/-- The text of a class begins with `]-` and goes on with another character than `]`. -/
def BeginsRange (text : List Char) : Prop :=
  ∃ rest, text = ']' :: '-' :: rest ∧ rest.head? ≠ some ']'

theorem classText_append
    (hs : (sigil = [] ∧ negated = false) ∨ ((sigil = ['!'] ∨ sigil = ['^']) ∧ negated = true)) :
    classText negated ('[' :: sigil ++ body ++ close) = body ++ close := by
  rcases hs with ⟨rfl, rfl⟩ | ⟨rfl | rfl, rfl⟩
  · rfl
  · rfl
  · rfl

namespace IsClass

/-- A class ends at the first closing bracket behind its first character. -/
theorem closes (h : l.IsClass negated inner close behind)
    (hm : ']' ∈ (classText negated l.raw).tail) (hr : ¬ BeginsRange (classText negated l.raw)) :
    close = [']'] ∧ ∃ front, (classText negated l.raw).tail = front ++ [']'] ∧ ']' ∉ front := by
  obtain ⟨hraw, -, rfl, -, -⟩ | ⟨sigil, body, hs, hraw, -, -, hextent⟩ := h
  · rw [hraw] at hm
    cases hm
  · rw [hraw, classText_append hs] at hm hr ⊢
    obtain ⟨hbody, hnot, rfl⟩ | ⟨-, hnot, -, -⟩ | ⟨rfl, rfl | ⟨-, hhead, -, -⟩⟩ := hextent
    · exact ⟨rfl, body.tail, List.tail_append_of_ne_nil hbody,
        fun hb => hnot (List.mem_of_mem_tail hb)⟩
    · exact absurd (List.mem_append_left _ (List.mem_of_mem_tail hm)) hnot
    · exact ⟨rfl, ['-'], rfl, by decide⟩
    · exact absurd ⟨close, rfl, hhead⟩ hr

theorem close_ne (h : l.IsClass negated inner close behind)
    (hm : ']' ∉ (classText negated l.raw).tail) : close ≠ [']'] := by
  rintro rfl
  obtain ⟨-, -, -, -, hclose⟩ | ⟨sigil, body, hs, hraw, -, -, hextent⟩ := h
  · cases hclose
  · rw [hraw, classText_append hs] at hm
    have hbody : body ≠ [] := by
      obtain ⟨hbody, -, -⟩ | ⟨hbody, -, -, -⟩ | ⟨rfl, -⟩ := hextent
      · exact hbody
      · exact hbody
      · exact List.cons_ne_nil _ _
    rw [List.tail_append_of_ne_nil hbody] at hm
    exact hm (List.mem_append_right _ (List.mem_singleton_self _))

end IsClass

end Lexeme

/-- **A class ends at the first closing bracket behind its first character.** If there is such a
bracket in what a class covers, and its text does not begin with `]-` and go on with another
character than `]`, it is the last character and the class is closed. If there is none, the class is
open. -/
theorem tokenize_class_closes (options : Options) (pattern : List Char) :
    ∃ a, tokenize .unchanged options pattern = .ok a ∧
      ∀ n ∈ a.nodes, ∀ negated inner close, n.shape = .bracket negated inner close →
        (']' ∈ (Lexeme.classText negated n.raw).tail →
          ¬ Lexeme.BeginsRange (Lexeme.classText negated n.raw) →
          n.shape.isOpenClass = false ∧
            ∃ front, (Lexeme.classText negated n.raw).tail = front ++ [']'] ∧ ']' ∉ front) ∧
        (']' ∉ (Lexeme.classText negated n.raw).tail → n.shape.isOpenClass = true) := by
  obtain ⟨ls, h⟩ := exists_segments pattern
  refine ⟨_, tokenize_of_segments h options, ?_⟩
  intro n hn negated inner close hs
  have hclass := h.isClass_of_mem hn hs
  rw [hs, Shape.isOpenClass]
  constructor
  · intro hm hr
    obtain ⟨hclose, hfirst⟩ := hclass.closes hm hr
    exact ⟨by simp [hclose], hfirst⟩
  · intro hm
    simpa using hclass.close_ne hm

/-- Behind a sigil too a closing bracket that stands first is text: the first closing bracket behind
the second character of `[!]-]` is not the last. -/
theorem tokenize_class_closes_behind_sigil :
    ∃ a, tokenize .unchanged {} "[!]-]".toList = .ok a ∧
      ∃ n ∈ a.nodes, n.kind = .bracket ∧ ']' ∈ n.raw.drop 2 ∧
        ¬ ∃ front, n.raw.drop 2 = front ++ [']'] ∧ ']' ∉ front := by
  have h : Segments "[!]-]".toList
      [⟨.bracket true [']', '-'] [']'], "[!]-]".toList, "[!]-]".toList⟩] := .cons rfl .nil
  refine ⟨_, tokenize_of_segments h {}, _, List.mem_singleton_self _, rfl, by decide, ?_⟩
  rintro ⟨front, hfront, hm⟩
  have hlast := congrArg List.dropLast hfront
  rw [List.dropLast_concat] at hlast
  exact hm (hlast ▸ by decide)

/-! ## Unclosed classes -/

namespace Lexeme

variable {s body : List Char} {c : Char}

theorem openBody?_eq_some (h : s.rdropWhile isRepeater = body ++ [c]) (hb : body ≠ []) :
    openBody? s = some ⟨body, [c]⟩ := by
  have hrev : s.reverse.dropWhile isRepeater = c :: body.reverse := by
    have := congrArg List.reverse h
    rwa [List.rdropWhile, List.reverse_reverse, List.reverse_concat] at this
  rw [openBody?, hrev]
  obtain ⟨d, before, hbody⟩ := List.exists_cons_of_ne_nil (List.reverse_ne_nil_iff.2 hb)
  rw [hbody]
  dsimp only
  rw [← hbody, List.reverse_reverse]

theorem openBody?_eq_none (h : (s.rdropWhile isRepeater).length < 2) : openBody? s = none := by
  rw [List.rdropWhile, List.length_reverse] at h
  unfold openBody?
  split
  · next hs =>
    rw [hs, List.length_cons, List.length_cons] at h
    omega
  · rfl

theorem classBody?_of_not_mem (h : ']' ∉ s) : classBody? s = openBody? s := by
  unfold classBody?
  split
  · simp at h
  · simp at h
  · rw [if_neg h]

theorem not_isRepeater_of_isSigil (hc : isSigil c = true) : ¬ isRepeater c = true := by
  rw [isSigil, Bool.or_eq_true, beq_iff_eq, beq_iff_eq] at hc
  obtain rfl | rfl := hc
  · decide
  · decide

theorem negatedClass?_eq_none (h : ']' ∉ s) (hs : (s.rdropWhile isRepeater).length ≤ 2) :
    negatedClass? s = none := by
  unfold negatedClass?
  split
  · next d t =>
    split
    · next hd =>
      rw [Text.rdropWhile_cons (not_isRepeater_of_isSigil hd), List.length_cons] at hs
      rw [classBody?_of_not_mem (List.not_mem_of_not_mem_cons h), openBody?_eq_none (by omega)]
      rfl
    · rfl
  · rfl

theorem bracket?_of_negatedClass?_eq_none (h : ']' ∉ s) (hn : negatedClass? s = none) :
    bracket? ('[' :: s) = some (((openBody? s).map (ofClass ['['] false)).getD
      (plain (.bracket false [] []) ['['])) := by
  rw [bracket?, hn, classBody?_of_not_mem h]
  rfl

theorem eq_of_negatedClass? {l : Lexeme} (h : ']' ∉ s) (hs : s.rdropWhile isRepeater = body ++ [c])
    (hl : negatedClass? s = some l) :
    ∃ inner value, l = ⟨.bracket true inner [c], value, '[' :: body ++ [c]⟩ := by
  unfold negatedClass? at hl
  split at hl
  · next d t =>
    split at hl
    · next hd =>
      rw [classBody?_of_not_mem (List.not_mem_of_not_mem_cons h)] at hl
      rw [Text.rdropWhile_cons (not_isRepeater_of_isSigil hd)] at hs
      -- A class with a sigil has two more characters that are no repeaters.
      match body, hs with
      | [], hs =>
        have ht : t.rdropWhile isRepeater = [] := (List.cons.inj hs).2
        rw [openBody?_eq_none (by simp [ht])] at hl
        cases hl
      | [_], hs =>
        have ht : t.rdropWhile isRepeater = [c] := (List.cons.inj hs).2
        rw [openBody?_eq_none (by simp [ht])] at hl
        cases hl
      | _ :: b :: body, hs =>
        obtain ⟨rfl, ht⟩ := List.cons.inj hs
        rw [openBody?_eq_some ht (List.cons_ne_nil b body)] at hl
        cases hl
        exact ⟨_, _, rfl⟩
    · cases hl
  · cases hl

/-- With or without a sigil an unclosed class reaches up to the last character that is no repeater,
which closes it. -/
theorem bracket?_of_unclosed (h : ']' ∉ s) (hs : s.rdropWhile isRepeater = body ++ [c])
    (hb : body ≠ []) : ∃ negated inner value,
      bracket? ('[' :: s) = some ⟨.bracket negated inner [c], value, '[' :: body ++ [c]⟩ := by
  cases hn : negatedClass? s with
  | none =>
    rw [bracket?_of_negatedClass?_eq_none h hn, openBody?_eq_some hs hb]
    exact ⟨_, _, _, rfl⟩
  | some l =>
    obtain ⟨inner, value, rfl⟩ := eq_of_negatedClass? h hs hn
    exact ⟨true, inner, value, by rw [bracket?, hn, Option.getD_some]⟩

theorem bracket?_of_lone (h : ']' ∉ s) (hs : (s.rdropWhile isRepeater).length < 2) :
    bracket? ('[' :: s) = some (plain (.bracket false [] []) ['[']) := by
  rw [bracket?_of_negatedClass?_eq_none h (negatedClass?_eq_none h hs.le), openBody?_eq_none hs]
  rfl

theorem square?_eq_none (h : ']' ∉ s) : square? false ('[' :: s) = none := by
  unfold square?
  split
  · next hs =>
    obtain ⟨-, rfl⟩ := List.cons.inj hs
    simp at h
  · rfl

section Last

variable {u w : List Char} {l : Lexeme}

theorem eq_of_unclosed (h : ']' ∉ s) (hl : ahead? ('[' :: s) = some l)
    (hs : '[' :: s = u ++ c :: w) (hc : ¬ isRepeater c = true)
    (hw : ∀ d ∈ w, isRepeater d = true) :
    (2 ≤ u.length ∧ ∃ negated inner value, l = ⟨.bracket negated inner [c], value, u ++ [c]⟩) ∨
      (u.length < 2 ∧ l = plain (.bracket false [] []) ['[']) := by
  rw [ahead?_bracket (square?_eq_none h)] at hl
  match u, hs with
  | [], hs =>
    have hnil : s.rdropWhile isRepeater = [] := by
      rw [(List.cons.inj hs).2]
      exact List.rdropWhile_eq_nil_iff.2 hw
    rw [bracket?_of_lone h (by simp [hnil]), Option.some.injEq] at hl
    exact .inr ⟨by simp, hl.symm⟩
  | [_], hs =>
    have hone : s.rdropWhile isRepeater = [c] := by
      rw [(List.cons.inj hs).2]
      exact Text.rdropWhile_append_cons (u := []) hc hw
    rw [bracket?_of_lone h (by simp [hone]), Option.some.injEq] at hl
    exact .inr ⟨by simp, hl.symm⟩
  | _ :: b :: body, hs =>
    obtain ⟨rfl, rfl⟩ := List.cons.inj hs
    obtain ⟨negated, inner, value, hb⟩ :=
      bracket?_of_unclosed h (Text.rdropWhile_append_cons hc hw) (List.cons_ne_nil b body)
    rw [hb, Option.some.injEq] at hl
    exact .inl ⟨by simp, negated, inner, value, hl.symm⟩

end Last

/-- `c` stands at `j` and is the last character of a text that is no repeater. -/
def LastNonRepeater (text : List Char) (j : Nat) (c : Char) : Prop :=
  text[j]? = some c ∧ ¬ isRepeater c = true ∧ ∀ d ∈ text.drop (j + 1), isRepeater d = true

end Lexeme

/-- The node is an open class that begins at `o`, of a pattern whose last character that is no
repeater is `c` at `j`. It reaches up to `c`, which closes it, or if nothing stands between the two
it is the bracket alone. -/
structure Node.UnclosedClass (n : Node) (pattern : List Char) (o j : Nat) (c : Char) : Prop where
  start_eq : n.span.start.offset = o
  isOpen : n.shape.isOpenClass = true
  last : Lexeme.LastNonRepeater pattern j c
  reaches : o + 2 ≤ j → n.raw = (pattern.take (j + 1)).drop o ∧
    (∃ negated inner, n.shape = .bracket negated inner [c]) ∧
    ∀ d ∈ pattern.drop n.span.stop.offset, Lexeme.isRepeater d = true
  alone : j < o + 2 → n.raw = ['['] ∧ n.shape = .bracket false [] []

section Unclosed

variable {s u w : List Char} {l : Lexeme} {c : Char}

theorem Lexeme.lastNonRepeater_append (hc : ¬ isRepeater c = true)
    (hw : ∀ d ∈ w, isRepeater d = true) : LastNonRepeater (u ++ c :: w) u.length c := by
  refine ⟨by simp, hc, ?_⟩
  rwa [← List.drop_drop, List.drop_left]

theorem Lexeme.unclosedClass_nodeAt (h : ']' ∉ s) (hl : ahead? ('[' :: s) = some l)
    (hs : '[' :: s = u ++ c :: w) (hc : ¬ isRepeater c = true)
    (hw : ∀ d ∈ w, isRepeater d = true) :
    ((l.inPlace options front).nodeAt (Position.start.after front)).UnclosedClass
      (front ++ '[' :: s) front.length (front ++ u).length c := by
  have hlast : LastNonRepeater (front ++ '[' :: s) (front ++ u).length c := by
    rw [hs, ← List.append_assoc]
    exact lastNonRepeater_append hc hw
  have hstart : (Position.start.after front).offset = front.length := by
    rw [Position.offset_after]
    exact Nat.zero_add _
  obtain ⟨hu, negated, inner, value, rfl⟩ | ⟨hu, rfl⟩ := eq_of_unclosed h hl hs hc hw
  · have hclose : c ≠ ']' := by
      rintro rfl
      obtain ⟨d, u, rfl⟩ := List.exists_cons_of_length_pos (by omega : 0 < u.length)
      exact h ((List.cons.inj hs).2 ▸ List.mem_append_right _ List.mem_cons_self)
    have hpattern : front ++ '[' :: s = (front ++ u ++ [c]) ++ w := by
      rw [hs, List.append_assoc (front ++ u), List.append_assoc]
      rfl
    have hlength : (front ++ u ++ [c]).length = (front ++ u).length + 1 := List.length_append
    rw [inPlace_eq_self (show Kind.bracket ∉ _ by decide)]
    refine ⟨hstart, by simpa [nodeAt, Shape.isOpenClass] using hclose, hlast,
      fun _ => ⟨?_, ⟨_, _, rfl⟩, ?_⟩, ?_⟩
    · rw [hpattern, ← hlength, List.take_left, List.append_assoc, List.drop_left]
      rfl
    · rw [nodeAt, ← Position.after_append, Position.offset_after, hpattern, ← List.append_assoc]
      have hstop : Position.start.offset + (front ++ u ++ [c]).length = (front ++ u ++ [c]).length :=
        Nat.zero_add _
      rwa [hstop, List.drop_left]
    · intro hj
      rw [List.length_append] at hj
      omega
  · rw [inPlace_eq_self (show Kind.bracket ∉ _ by decide)]
    refine ⟨hstart, rfl, hlast, ?_, fun _ => ⟨rfl, rfl⟩⟩
    intro hj
    rw [List.length_append] at hj
    omega

end Unclosed

/-- **An unclosed class reaches up to the last character that is no repeater.** At a boundary with
a bracket that no bracket follows begins an open class. It ends with the last character of the
pattern that is no repeater, which closes it, unless that leaves nothing between the two; then it is
the bracket alone. -/
theorem tokenize_class_unclosed (options : Options) (pattern : List Char) (o : Nat)
    (hb : IsBoundary options pattern o) (ho : pattern[o]? = some '[')
    (hc : ']' ∉ pattern.drop (o + 1)) :
    ∃ a, tokenize .unchanged options pattern = .ok a ∧
      ∃ n ∈ a.nodes, ∃ j c, n.UnclosedClass pattern o j c := by
  obtain ⟨hlt, hget⟩ := List.getElem?_eq_some_iff.1 ho
  obtain ⟨front, s, rfl, rfl⟩ : ∃ front s, pattern = front ++ '[' :: s ∧ front.length = o := by
    refine ⟨pattern.take o, pattern.drop (o + 1), ?_, List.length_take_of_le hlt.le⟩
    rw [← hget, ← List.drop_eq_getElem_cons hlt, List.take_append_drop]
  rw [← List.drop_drop, List.drop_left, List.drop_one, List.tail_cons] at hc
  obtain ⟨a, l, ha, hl, hn⟩ := exists_node_of_isBoundary hb (List.cons_ne_nil _ _)
  have hbracket : ¬ Lexeme.isRepeater '[' = true := by decide
  obtain ⟨u, c, w, hs, hlast, hw⟩ := Text.exists_last (s := s) hbracket
  exact ⟨a, ha, _, hn, _, c, Lexeme.unclosedClass_nodeAt hc hl hs hlast hw⟩

/-- The class of `a[!b*c?+` begins at 1 and leaves out the two repeaters at the end. -/
theorem tokenize_class_unclosed_repeaters :
    IsBoundary {} "a[!b*c?+".toList 1 ∧ "a[!b*c?+".toList[1]? = some '[' ∧
      ']' ∉ "a[!b*c?+".toList.drop 2 ∧
      ∃ a, tokenize .unchanged {} "a[!b*c?+".toList = .ok a ∧
        ∃ n ∈ a.nodes, ∃ j c, n.UnclosedClass "a[!b*c?+".toList 1 j c :=
  have hb : IsBoundary {} "a[!b*c?+".toList 1 := by decide +kernel
  ⟨hb, rfl, by decide, tokenize_class_unclosed {} "a[!b*c?+".toList 1 hb rfl (by decide)⟩

end GlobPattern
