import GlobPattern.Proofs.Grammar
import GlobPattern.Proofs.Segmentation

/-!
# Dots that open a path segment

A single dot opens a path segment in front of a pattern and behind a slash. The rule for dots only
looks at the last character in front of it. Of the lexemes that can stand in front of a dot a slash
ends with that character, and a backslash with a slash. A quotation that ends with a slash is
unclosed and the last lexeme; an unclosed class reaches over every dot that follows; and plain text
stops at slashes.

* `Lexeme.IsSeparator`: a slash, or a backslash with a slash;
* `Lexeme.ClassExtent.close_eq_of_head?`: what stands behind an unclosed class are repeaters;
* **`Lexeme.InLanguage.getLast?_eq_slash_iff`**: what ends with a slash in front of a dot;
* **`tokenize_dot_opens_iff`**: the dots of a pattern that open a path segment.
-/

namespace GlobPattern

namespace Lexeme

variable {l : Lexeme} {raw front behind : List Char} {options : Options}

/-- A slash, as it stands or behind a backslash. -/
def IsSeparator (l : Lexeme) : Prop :=
  l.kind = .slash ∨ (l.kind = .escape ∧ l.raw = ['\\', '/'])

/-! ## The last character of a lexeme -/

theorem IsRun.getLast?_eq {c : Char} (h : IsRun c raw) : raw.getLast? = some c := by
  rw [List.getLast?_eq_some_getLast h.1, h.2 _ (List.getLast_mem h.1)]

theorem IsGlobstar.getLast?_eq (h : IsGlobstar raw) : raw.getLast? = some '*' := by
  obtain ⟨n, rfl⟩ := h
  cases n with
  | zero => rfl
  | succ n =>
    rw [List.replicate_succ', List.flatten_concat, ← List.cons_append, ← List.cons_append,
      List.getLast?_append_of_ne_nil _ (List.cons_ne_nil _ _)]
    rfl

theorem IsEscape.getLast?_eq_slash_iff (h : IsEscape l behind) :
    l.raw.getLast? = some '/' ↔ l.raw = ['\\', '/'] := by
  obtain ⟨c, hraw, -⟩ | ⟨-, hraw | hraw⟩ | ⟨q, hq, hraw, -, -⟩ := h
  · simp [hraw]
  · simp [hraw]
  · simp [hraw]
  · have hne : q ≠ '/' := by
      rintro rfl
      cases hq
    simp [hraw, hne]

theorem IsQuotation.getLast?_ne_slash (h : IsQuotation l behind) (hb : behind ≠ []) :
    l.raw.getLast? ≠ some '/' := by
  obtain ⟨q, body, value, hq, -, ⟨hraw, -⟩ | ⟨-, -, hend⟩ | ⟨-, -, hend⟩⟩ := h
  · rw [hraw, List.getLast?_concat]
    rintro ⟨⟩
    cases hq
  · exact absurd hend hb
  · exact absurd hend hb

/-- Behind an unclosed class there is nothing but repeaters, or one of them is next. -/
theorem ClassExtent.close_eq_of_head? {body close : List Char} {d : Char}
    (h : ClassExtent body close behind) (hb : behind.head? = some d) (hd : isRepeater d = false) :
    close = [']'] := by
  have hmem : d ∈ behind := List.mem_of_mem_head? hb
  obtain ⟨-, -, hclose⟩ | ⟨-, -, -, hrest⟩ | ⟨-, hclose | ⟨-, -, -, hnext⟩⟩ := h
  · exact hclose
  · exact absurd (hrest d hmem) (Bool.eq_false_iff.1 hd)
  · exact hclose
  · exact absurd (hnext d hb) (Bool.eq_false_iff.1 hd)

theorem IsClass.getLast?_ne_slash {negated : Bool} {inner close : List Char} {d : Char}
    (h : IsClass l negated inner close behind) (hb : behind.head? = some d)
    (hd : isRepeater d = false) : l.raw.getLast? ≠ some '/' := by
  obtain ⟨hraw, -⟩ | ⟨sigil, body, -, hraw, -, -, hextent⟩ := h
  · simp [hraw]
  · rw [hraw, hextent.close_eq_of_head? hb hd, List.getLast?_concat]
    decide

theorem IsPlain.getLast?_ne_slash (h : IsPlain l behind) : l.raw.getLast? ≠ some '/' := by
  obtain ⟨-, ⟨-, hplain, -⟩ | ⟨hraw, -⟩ | ⟨hraw | hraw, -⟩ | ⟨hraw, -⟩⟩ := h
  · intro hlast
    exact absurd (hplain '/' (List.mem_of_getLast? hlast)) (by decide)
  · simp [hraw]
  · simp [hraw]
  · simp [hraw]
  · simp [hraw]

/-- **Of what stands in front of a dot only separators end with a slash.** -/
theorem InLanguage.getLast?_eq_slash_iff (h : l.InLanguage options front behind)
    (hb : behind.head? = some '.') : l.raw.getLast? = some '/' ↔ l.IsSeparator := by
  have hrepeater : isRepeater '.' = false := by decide
  have hne : behind ≠ [] := by
    rintro rfl
    cases hb
  unfold InLanguage at h
  rw [IsSeparator, kind]
  cases hs : l.shape <;> rw [hs] at h <;> simp only [Shape.kind, reduceCtorEq, false_and, or_false,
    false_or, true_and, iff_false, iff_true]
  case escape => exact h.getLast?_eq_slash_iff
  case quoted => exact h.getLast?_ne_slash hne
  case not => simp [h.1.getLast?_eq]
  case dot => simp [h.1.getLast?_eq]
  case plus => simp [h.1]
  case qmark => simp [h.1.getLast?_eq]
  case globstar => simp [h.2.1.getLast?_eq]
  case star =>
    obtain ⟨hrun, -⟩ | ⟨-, hglobstar, -⟩ := h
    · simp [hrun.getLast?_eq]
    · simp [hglobstar.getLast?_eq]
  case slash => simp [h.1]
  case backslash => simp [h.1]
  case square =>
    obtain ⟨c, -, hraw, -⟩ := h
    simp [hraw]
  case bracket => exact h.1.getLast?_ne_slash hb hrepeater
  case text => exact IsPlain.getLast?_ne_slash h

end Lexeme

/-! ## Dots -/

namespace Scan

variable {s t : Scan} {l m : Lexeme} {ls ms : List Lexeme} {opens : Bool}

theorem atSegmentStart_iff (s : Scan) : s.atSegmentStart = true ↔
    s.cursor.parsed = [] ∨ s.cursor.parsed.getLast? = some '/' := by
  rw [← beginsSegment_parsed, Lexeme.beginsSegment, Bool.or_eq_true, List.isEmpty_iff, beq_iff_eq]

theorem opens_of_lexeme? (h : s.lexeme? = some l) (hs : l.shape = .dot opens) :
    opens = true ↔ l.raw = ['.'] ∧ s.atSegmentStart = true := by
  have hdot : l.kind = .dot := congrArg Shape.kind hs
  obtain ⟨k, -, hk⟩ := List.exists_of_findSome?_eq_some h
  have hkind : k = .dot := by
    rcases kind_of_recognise? hk with hk | ⟨-, hk⟩ | ⟨-, hk⟩
    · rw [← hk, hdot]
    · rw [hdot] at hk
      cases hk
    · rw [hdot] at hk
      cases hk
  subst hkind
  obtain ⟨-, rfl⟩ := Lexeme.plain?_eq_some.1 hk
  cases hs
  rw [Bool.and_eq_true, beq_iff_eq, and_comm]
  rfl

theorem Reads.opens_first (h : s.Reads (l :: ms) t) (hp : s.cursor.parsed = [])
    (hs : l.shape = .dot opens) : opens = true ↔ l.raw = ['.'] := by
  obtain _ | ⟨hl, -⟩ := h
  rw [opens_of_lexeme? hl hs, atSegmentStart_iff, and_iff_left (.inl hp)]

theorem Reads.opens_behind (h : s.Reads (ls ++ m :: l :: ms) t) (hb : s.inBracket = false)
    (ht : t.cursor.remaining = []) (hs : l.shape = .dot opens) :
    opens = true ↔ l.raw = ['.'] ∧ m.IsSeparator := by
  have hfront : s.Reads ((ls ++ [m]) ++ l :: ms) t := by rwa [List.append_assoc]
  have hm : m.raw ≠ [] := h.raw_ne_nil m (by simp)
  have hraw : Lexeme.IsRun '.' l.raw := by
    have hl := hfront.inLanguage hb ht
    rw [Lexeme.InLanguage, hs] at hl
    exact hl.1
  have hnext : (Lexeme.covered (l :: ms)).head? = some '.' := by
    obtain ⟨c, r, hr⟩ := List.exists_cons_of_ne_nil hraw.1
    rw [Lexeme.covered_cons, hr, hraw.2 c (hr ▸ List.mem_cons_self)]
    rfl
  obtain ⟨u, hu, hrest⟩ := append_iff.1 hfront
  obtain _ | ⟨hl, -⟩ := hrest
  have hparsed : u.cursor.parsed = s.cursor.parsed ++ Lexeme.covered ls ++ m.raw := by
    rw [hu.parsed_eq, Lexeme.covered_append, Lexeme.covered_cons, Lexeme.covered_nil,
      List.append_nil, List.append_assoc]
  rw [opens_of_lexeme? hl hs, atSegmentStart_iff, hparsed, List.getLast?_append_of_ne_nil _ hm,
    (h.inLanguage hb ht).getLast?_eq_slash_iff hnext]
  simp [hm]

end Scan

/-- **A dot opens a path segment exactly if it is single and nothing stands in front of it or a
separator does.** No other lexeme, whatever text it covers, makes the dot behind it open one. -/
theorem tokenize_dot_opens_iff (options : Options) (pattern : List Char) :
    ∃ a, tokenize .unchanged options pattern = .ok a ∧
      ∀ before n later, a.nodes = before ++ n :: later → ∀ opens, n.shape = .dot opens →
        (opens = true ↔ n.raw = ['.'] ∧
          (before = [] ∨ ∃ m, before.getLast? = some m ∧ m.toLexeme.IsSeparator)) := by
  obtain ⟨ls, t, h, ht, -⟩ := Scan.exists_reads_start options pattern
  refine ⟨_, RuleSet.tokenize_ofKinds Kind.admissible_all h ht, ?_⟩
  intro before n later hnodes opens hs
  change layOut Position.start ls = _ at hnodes
  have hls := map_toLexeme_layOut Position.start ls
  rw [hnodes] at hls
  subst hls
  obtain rfl | ⟨init, m, rfl⟩ := List.eq_nil_or_concat' before
  · rw [h.opens_first rfl hs]
    simp
  · rw [List.append_assoc, List.map_append] at h
    rw [h.opens_behind rfl ht hs]
    simp

end GlobPattern
