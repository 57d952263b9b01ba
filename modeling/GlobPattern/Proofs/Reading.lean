import GlobPattern.Proofs.Lexer.Outcome
import GlobPattern.Proofs.Rule

/-!
# Reading a pattern with the built-in rules

With the built-in rules in an admissible order, a step takes the lexeme that is seen ahead, and
outside of bracket contexts there always is one. So a run reads one lexeme after another up to the
end of the pattern, whatever admissible order the rules are in.

* `RuleSet.ofKinds`: the built-in rules in a given order;
* `Scan.behind`: the scan behind a lexeme that is seen ahead;
* `Scan.Reads`: reading a number of lexemes; **`Scan.exists_reads`**: to the end of the pattern;
* `Lexer.step_ofKinds`, `Lexer.run_of_reads`, **`RuleSet.tokenize_ofKinds`**: what steps and runs
  of the built-in rules do.
-/

namespace GlobPattern

/-- The built-in rules in a given order, each under the name of its kind. -/
def RuleSet.ofKinds (order : List Kind) : RuleSet := ⟨order.map fun k => (k.name, .builtin k)⟩

namespace Scan

variable {s t u : Scan} {l : Lexeme} {ls ms : List Lexeme}

@[simp] theorem options_noteLeadingDot (s : Scan) : s.noteLeadingDot.options = s.options := by
  unfold noteLeadingDot; split <;> rfl

@[simp] theorem contexts_noteLeadingDot (s : Scan) :
    s.noteLeadingDot.state.contexts = s.state.contexts := by
  unfold noteLeadingDot; split <;> rfl

@[simp] theorem recognise?_noteLeadingDot (s : Scan) : s.noteLeadingDot.recognise? = s.recognise? := by
  unfold noteLeadingDot
  split
  · funext kind
    cases kind <;> rfl
  · rfl

@[simp] theorem noteLeadingDot_noteLeadingDot (s : Scan) :
    s.noteLeadingDot.noteLeadingDot = s.noteLeadingDot := by
  by_cases h : (s.atStart && Lexeme.leadsWithDot s.cursor.remaining) = true
  · have hs : s.noteLeadingDot = { s with state := s.state.noteLeadingDot s.options } := if_pos h
    rw [hs]
    exact if_pos h
  · have hs : s.noteLeadingDot = s := if_neg h
    rw [hs, hs]

theorem noteLeadingDot_eq_self (h : s.cursor.remaining.head? ≠ some '.') :
    s.noteLeadingDot = s := by
  rw [noteLeadingDot, if_neg]
  intro hd
  apply h
  have := (Bool.and_eq_true_iff.1 hd).2
  unfold Lexeme.leadsWithDot at this
  split at this
  · next hr => rw [hr]; rfl
  · cases this

/-- The scan behind a lexeme that is seen ahead. -/
def behind (s : Scan) (l : Lexeme) : Scan := s.noteLeadingDot.accept l

theorem covers_of_lexeme? (h : s.lexeme? = some l) : l.Covers s.cursor.remaining := by
  obtain ⟨k, _, hk⟩ := List.exists_of_findSome?_eq_some h
  exact recognise?_covers hk

@[simp] theorem cursor_behind (s : Scan) (l : Lexeme) :
    (s.behind l).cursor = s.cursor.advance l.raw.length := by
  rw [behind, cursor_accept, cursor_noteLeadingDot]

@[simp] theorem options_behind (s : Scan) (l : Lexeme) : (s.behind l).options = s.options :=
  s.options_noteLeadingDot

@[simp] theorem contexts_behind (s : Scan) (l : Lexeme) :
    (s.behind l).state.contexts = s.state.contexts := by
  change (s.noteLeadingDot.state.record l.shape).contexts = _
  rw [ScanState.contexts_record, contexts_noteLeadingDot]

@[simp] theorem inBracket_behind (s : Scan) (l : Lexeme) : (s.behind l).inBracket = s.inBracket := by
  rw [inBracket, ScanState.isInside, contexts_behind, inBracket, ScanState.isInside]

theorem exists_lexeme? (hb : s.inBracket = false) (hr : s.cursor.remaining ≠ []) :
    ∃ l, s.lexeme? = some l := by
  have ht : (Lexeme.plainRun? s.cursor.remaining).getD (s.cursor.remaining.take 1) ≠ [] := by
    cases hp : Lexeme.plainRun? s.cursor.remaining with
    | some t => exact (Lexeme.plainRun?_isPrefix hp).1
    | none => simpa using hr
  have hs : (s.recognise? .text).isSome := by
    simp only [recognise?, Lexeme.text?, hb, Bool.false_eq_true, if_false, Lexeme.plain?, if_neg ht,
      Option.isSome_some]
  exact Option.isSome_iff_exists.1 (List.findSome?_isSome_iff.2 ⟨.text, by decide, hs⟩)

/-! ## Lexemes in sequence -/

/-- Reading a number of lexemes. -/
inductive Reads : Scan → List Lexeme → Scan → Prop
  | nil (s : Scan) : Reads s [] s
  | cons {s t : Scan} {l : Lexeme} {ls : List Lexeme} (h : s.lexeme? = some l)
      (rest : Reads (s.behind l) ls t) : Reads s (l :: ls) t

namespace Reads

theorem append_iff : Reads s (ls ++ ms) u ↔ ∃ t, Reads s ls t ∧ Reads t ms u := by
  induction ls generalizing s with
  | nil =>
    constructor
    · intro h
      exact ⟨s, .nil s, h⟩
    · rintro ⟨t, ⟨⟩, h⟩
      exact h
  | cons l ls ih =>
    constructor
    · rintro (_ | ⟨hl, h⟩)
      obtain ⟨t, ht, hu⟩ := ih.1 h
      exact ⟨t, .cons hl ht, hu⟩
    · rintro ⟨t, _ | ⟨hl, ht⟩, hu⟩
      exact .cons hl (ih.2 ⟨t, ht, hu⟩)

theorem options_eq (h : Reads s ls t) : t.options = s.options := by
  induction h with
  | nil s => rfl
  | cons _ _ ih => rw [ih, options_behind]

theorem inBracket_eq (h : Reads s ls t) : t.inBracket = s.inBracket := by
  induction h with
  | nil s => rfl
  | cons _ _ ih => rw [ih, inBracket_behind]

theorem raw_ne_nil (h : Reads s ls t) : ∀ l ∈ ls, l.raw ≠ [] := by
  induction h with
  | nil s => simp
  | cons hl _ ih =>
    intro m hm
    rcases List.mem_cons.1 hm with rfl | hm
    · exact (covers_of_lexeme? hl).1
    · exact ih m hm

theorem parsed_eq (h : Reads s ls t) :
    t.cursor.parsed = s.cursor.parsed ++ Lexeme.covered ls := by
  induction h with
  | nil s => simp
  | cons hl _ ih =>
    rw [ih, cursor_behind, Cursor.parsed_advance, (covers_of_lexeme? hl).take_eq,
      Lexeme.covered_cons, List.append_assoc]

theorem remaining_eq (h : Reads s ls t) :
    Lexeme.covered ls ++ t.cursor.remaining = s.cursor.remaining := by
  induction h with
  | nil s => rfl
  | cons hl _ ih =>
    rw [Lexeme.covered_cons, List.append_assoc, ih, cursor_behind, Cursor.remaining_advance,
      (covers_of_lexeme? hl).append_drop]

theorem source_eq (h : Reads s ls t) : t.cursor.source = s.cursor.source := by
  rw [Cursor.source, h.parsed_eq, List.append_assoc, h.remaining_eq, Cursor.source]

end Reads

/-- **Outside of bracket contexts every text can be read to its end.** -/
theorem exists_reads (s : Scan) (hb : s.inBracket = false) :
    ∃ ls t, Reads s ls t ∧ t.cursor.remaining = [] := by
  by_cases hr : s.cursor.remaining = []
  · exact ⟨[], s, .nil s, hr⟩
  · obtain ⟨l, hl⟩ := exists_lexeme? hb hr
    have hpos := (covers_of_lexeme? hl).length_pos
    have hlen := List.length_pos_iff.2 hr
    have hlt : (s.behind l).cursor.remaining.length < s.cursor.remaining.length := by
      rw [cursor_behind, Cursor.remaining_advance, List.length_drop]
      omega
    obtain ⟨ls, t, h, ht⟩ := exists_reads (s.behind l) ((s.inBracket_behind l).trans hb)
    exact ⟨l :: ls, t, .cons hl h, ht⟩
termination_by s.cursor.remaining.length

end Scan

/-! ## Runs of the built-in rules -/

namespace Lexer

/-- Rules that recognise nothing are passed over, and a leading dot is noted among them. -/
theorem tryRules_of_recognise?_eq_none {pre : List Kind} (ks : List Kind) (lx : Lexer)
    (hpre : ∀ k ∈ pre, lx.recognise? k = none) :
    tryRules ((pre ++ ks).map fun k => (k.name, .builtin k)) lx =
      tryRules (ks.map fun k => (k.name, .builtin k))
        (if .leadingDot ∈ pre then lx.withScan lx.noteLeadingDot else lx) := by
  induction pre generalizing lx with
  | nil => simp
  | cons k pre ih =>
    have hk := hpre k List.mem_cons_self
    have hrest : ∀ a ∈ pre, lx.recognise? a = none := fun a ha =>
      hpre a (List.mem_cons_of_mem _ ha)
    rw [List.cons_append, List.map_cons, tryRules, Rule.apply]
    rcases lx.applyKind_cases k with ⟨rfl, h⟩ | ⟨l, _, hl, _⟩ | ⟨hne, _, h⟩
    · have hs : ¬ lx.cursor.offset < lx.noteLeadingDot.cursor.offset := by
        rw [Scan.cursor_noteLeadingDot]; exact Nat.lt_irrefl _
      simp only [h, if_neg hs, Option.isSome_none, Bool.false_eq_true, if_false]
      rw [ih (lx.withScan lx.noteLeadingDot) (by
        intro a ha
        change lx.noteLeadingDot.recognise? a = none
        rw [Scan.recognise?_noteLeadingDot]
        exact hrest a ha), if_pos List.mem_cons_self]
      split
      · change tryRules _ (lx.withScan lx.noteLeadingDot.noteLeadingDot) = _
        rw [Scan.noteLeadingDot_noteLeadingDot]
      · rfl
    · rw [hk] at hl; cases hl
    · simp only [h, if_neg (Nat.lt_irrefl _), Option.isSome_none, Bool.false_eq_true, if_false]
      rw [show lx.withScan lx.toScan = lx from rfl, ih lx hrest]
      simp [Ne.symm hne]

/-- **A step of the built-in rules takes the lexeme that is seen ahead.** -/
theorem step_ofKinds {order : List Kind} (ho : Kind.Admissible order) {lx : Lexer}
    (hr : lx.rules = RuleSet.ofKinds order) {l : Lexeme} (hl : lx.lexeme? = some l) :
    lx.step = ((lx.withScan (lx.behind l)).append (some (l.nodeAt lx.cursor.position)),
      .ok ()) := by
  have hf : order.findSome? lx.recognise? = some l :=
    (Scan.findSome?_recognise?_eq ho lx.toScan).trans hl
  obtain ⟨pre, k, post, rfl, hk, hpre⟩ := List.findSome?_eq_some_iff.1 hf
  -- if there is a leading dot, its rule was passed over before the one that takes the dot
  have hnote : (if .leadingDot ∈ pre then lx.withScan lx.noteLeadingDot else lx) =
      lx.withScan lx.noteLeadingDot := by
    split
    · rfl
    · next hm =>
      rw [Scan.noteLeadingDot_eq_self]
      · rfl
      · intro hdot
        apply hm
        by_cases ht : k = .text
        · exact ho.mem_of_outranks (ht ▸ .text (by decide))
        · obtain ⟨c, t, hc, hmem⟩ := Scan.mem_openers_of_recognise? hk ht
          rw [hc, List.head?_cons, Option.some.injEq] at hdot
          subst hdot
          have : k = .dot := by revert hmem; cases k <;> decide
          exact ho.mem_of_outranks (this ▸ .leadingDot)
  have hk' : lx.noteLeadingDot.recognise? k = some l := by
    rw [Scan.recognise?_noteLeadingDot]
    exact hk
  have hcov := Scan.recognise?_covers hk'
  have hne : k ≠ .leadingDot := by rintro rfl; cases hk
  rw [step, hr, RuleSet.ofKinds, tryRules_of_recognise?_eq_none _ lx hpre, hnote, List.map_cons,
    tryRules, Rule.apply]
  have happly : (lx.withScan lx.noteLeadingDot).applyKind k =
      (lx.behind l, some (l.nodeAt lx.cursor.position)) := by
    change lx.noteLeadingDot.applyKind k = _
    rw [Scan.applyKind, if_neg hne, hk']
    dsimp only
    rw [Scan.nodeOf_eq hcov, Scan.cursor_noteLeadingDot]
    rfl
  have hlt : (lx.withScan lx.noteLeadingDot).cursor.offset < (lx.behind l).cursor.offset := by
    change lx.noteLeadingDot.cursor.offset < _
    rw [Scan.cursor_noteLeadingDot] at hcov ⊢
    rw [Scan.cursor_behind, Cursor.offset_advance_raw hcov]
    have := hcov.length_pos
    omega
  simp only [happly, if_pos hlt]
  rfl

/-- **A run of the built-in rules reads the pattern to its end.** -/
theorem run_of_reads {order : List Kind} (ho : Kind.Admissible order) {s t : Scan}
    {ls : List Lexeme} (h : s.Reads ls t) (ht : t.cursor.remaining = []) (lx : Lexer)
    (hs : lx.toScan = s) (hr : lx.rules = RuleSet.ofKinds order) :
    ∃ lx', lx.run = (lx', .ok ()) ∧ lx'.toScan = t ∧
      lx'.nodes.toList = lx.nodes.toList ++ layOut lx.cursor.position ls := by
  induction h generalizing lx with
  | nil s =>
    refine ⟨lx, run_of_atEnd ?_, hs, by simp [layOut]⟩
    rw [Cursor.atEnd_iff, hs]
    exact ht
  | @cons s t l ls hl _ ih =>
    subst hs
    have hcov := Scan.covers_of_lexeme? hl
    have hend : ¬ lx.cursor.atEnd = true := by
      rw [Cursor.atEnd_iff]
      intro he
      have := hcov.2.length_le
      have := hcov.length_pos
      rw [he] at *
      simp only [List.length_nil] at *
      omega
    obtain ⟨lx', hrun, hscan, hnodes⟩ := ih ht
      ((lx.withScan (lx.behind l)).append (some (l.nodeAt lx.cursor.position))) rfl hr
    refine ⟨lx', (run_of_step_ok hend (step_ofKinds ho hr hl)).trans hrun, hscan, ?_⟩
    rw [hnodes, layOut]
    have hpos : (lx.behind l).cursor.position = lx.cursor.position.after l.raw := by
      rw [Scan.cursor_behind, Cursor.position_advance, hcov.take_eq]
    change (lx.nodes.push _).toList ++ layOut (lx.behind l).cursor.position ls = _
    rw [hpos, Array.toList_push, List.append_assoc, List.singleton_append]

end Lexer

/-- **The built-in rules, in any admissible order, make the nodes that are read.** -/
theorem RuleSet.tokenize_ofKinds {order : List Kind} (ho : Kind.Admissible order)
    {options : Options} {pattern : List Char} {ls : List Lexeme} {t : Scan}
    (h : (Scan.start pattern options).Reads ls t) (ht : t.cursor.remaining = []) :
    (RuleSet.ofKinds order).tokenize options pattern =
      .ok ⟨pattern, layOut Position.start ls, t.wrap, t.state⟩ := by
  obtain ⟨lx, hrun, hscan, hnodes⟩ := Lexer.run_of_reads ho h ht
    (Lexer.start pattern options (RuleSet.ofKinds order)) rfl rfl
  rw [RuleSet.tokenize, hrun]
  have hsource : lx.cursor.source = pattern := by
    rw [hscan, h.source_eq]
    rfl
  change Except.ok (Ast.mk lx.cursor.source lx.nodes.toList lx.wrap lx.state) = _
  rw [hsource, hscan, hnodes]
  rfl

theorem Scan.exists_reads_start (options : Options) (pattern : List Char) :
    ∃ ls t, (Scan.start pattern options).Reads ls t ∧ t.cursor.remaining = [] ∧
      Lexeme.covered ls = pattern := by
  obtain ⟨ls, t, h, ht⟩ := exists_reads (Scan.start pattern options) rfl
  have hc := h.remaining_eq
  rw [ht, List.append_nil] at hc
  exact ⟨ls, t, h, ht, hc⟩

end GlobPattern
