import GlobPattern.Proofs.Diagnostic.Range
import GlobPattern.Proofs.Lexeme.Unclaimed
import GlobPattern.Proofs.Summary

/-!
# The diagnostics of a pattern are its degradations

Three things silently degrade to literal text: a run of `!` that is not the first node, a class that
no bracket closes, and a quote that does not occur again. The checker sees them only in what the
lexer left in the nodes: a run of `!` with a value, an open class, and an escape that is one quote.

* `Lexeme.openQuote?`, `Ast.degradations`: what degrades at a node, by its place in the pattern;
* **`Segments.degradations_eq`**: what the checker sees of a node is what degrades there;
* `Ast.ReportedOnce`: what escapes a report, and how often a quote can be reported;
* **`Diagnostic.check_degradations`**: the diagnostics of a pattern.
-/

namespace GlobPattern

/-- The quote that begins a text, if it does not occur again. -/
def Lexeme.openQuote? : List Char → Option Char
  | [] => none
  | c :: behind => if isQuote c = true ∧ c ∉ behind then some c else none

/-- What degrades to literal text at a node, and how grave it is. -/
def Ast.degradations (a : Ast) (n : Node) : List (Finding × Severity) :=
  (if n.kind = .not ∧ a.nodes.head? ≠ some n then [(.literalNegation, .information)] else []) ++
  (match n.shape with
    | .bracket _ _ close => if close = [']'] then [] else [(.openClass, .warning)]
    | _ => []) ++
  (Lexeme.openQuote? (a.pattern.drop n.span.start.offset)).toList.map
    fun q => (.openQuote [q], .information)

/-- Diagnostics leave out what begins with a backslash and the run of `!` in front of the pattern.
A quote that is reported is the last of its kind, so there is one report of each at most. -/
structure Ast.ReportedOnce (a : Ast) (found : List Diagnostic) : Prop where
  backslash : ∀ n ∈ a.nodes, n.raw.head? = some '\\' → ∀ d ∈ found,
    d.stop ≤ n.span.start.offset ∨ n.span.stop.offset ≤ d.start
  negation : ∀ d ∈ found, (a.pattern.takeWhile (· == '!')).length ≤ d.start
  last : ∀ d ∈ found, ∀ q, d.finding = .openQuote [q] → d.stop = d.start + 1 ∧
    a.pattern[d.start]? = some q ∧ q ∉ a.pattern.drop d.stop
  once : ∀ q, found.countP (·.finding = .openQuote [q]) ≤ 1

variable {options : Options} {pattern : List Char} {ls : List Lexeme} {n : Node} {d : Diagnostic}
  {line : Int}

/-! ## Quotes -/

namespace Lexeme

variable {q : Char} {r : List Char}

theorem openQuote?_eq_some_iff : openQuote? r = some q ↔
    isQuote q = true ∧ ∃ behind, r = q :: behind ∧ q ∉ behind := by
  unfold openQuote?
  split
  · simp
  · next c behind =>
    constructor
    · intro h
      split at h
      · next hc =>
        cases h
        exact ⟨hc.1, behind, rfl, hc.2⟩
      · cases h
    · rintro ⟨hq, _, h, hm⟩
      cases h
      rw [if_pos ⟨hq, hm⟩]

theorem openQuote?_of_not_isQuote (hr : ∀ c ∈ r.head?, isQuote c = false) :
    openQuote? r = none := by
  rw [Option.eq_none_iff_forall_ne_some]
  intro q hq
  obtain ⟨hquote, behind, rfl, -⟩ := openQuote?_eq_some_iff.1 hq
  rw [hr q rfl] at hquote
  cases hquote

theorem not_isLoneQuote (hr : ∀ c ∈ r.head?, isQuote c = false) : isLoneQuote r = false := by
  rw [Bool.eq_false_iff, isLoneQuote, ne_eq, Bool.or_eq_true, beq_iff_eq, beq_iff_eq]
  rintro (rfl | rfl)
  · exact absurd (hr _ rfl) (by decide)
  · exact absurd (hr _ rfl) (by decide)

end Lexeme

/-! ## Nodes -/

namespace Segments

theorem head?_eq_some_iff (h : Segments pattern ls) {before later : List Node}
    (hn : (Ast.ofSegments options pattern ls).nodes = before ++ n :: later) :
    (Ast.ofSegments options pattern ls).nodes.head? = some n ↔ before = [] := by
  rw [hn]
  cases before with
  | nil => exact iff_of_true rfl rfl
  | cons m before =>
    refine iff_of_false ?_ (List.cons_ne_nil _ _)
    intro hm
    obtain rfl : m = n := Option.some.inj hm
    have hmem : m ∈ (Ast.ofSegments options pattern ls).nodes := by
      rw [hn]
      exact List.mem_cons_self
    have hapart : (Ast.ofSegments options pattern ls).nodes.Pairwise _ := h.pairwise_nodes
    rw [hn, List.cons_append, List.pairwise_cons] at hapart
    have := hapart.1 m (by simp)
    have := (h.standsIn_of_mem hmem).start_lt_stop
    omega

theorem value_eq_nil_iff_head? (h : Segments pattern ls)
    (hn : n ∈ (Ast.ofSegments {} pattern ls).nodes) (hk : n.kind = .not) :
    n.value = [] ↔ (Ast.ofSegments {} pattern ls).nodes.head? = some n := by
  obtain ⟨before, later, hsplit⟩ := List.append_of_mem hn
  rw [h.value_eq_nil_iff hsplit hk, h.head?_eq_some_iff hsplit]
  exact and_iff_left (.inr rfl)

/-- **What the checker sees of a node is what degrades there.** -/
theorem degradations_eq (h : Segments pattern ls)
    (hn : n ∈ (Ast.ofSegments {} pattern ls).nodes) :
    (Ast.ofSegments {} pattern ls).degradations n =
      (n.finding?.map fun f => (f, f.severity)).toList := by
  have hpattern : (Ast.ofSegments {} pattern ls).pattern = pattern := rfl
  obtain ⟨l, hl, hread⟩ := h.exists_ahead_of_mem hn
  by_cases hquote : ∃ q behind, pattern.drop n.span.start.offset = q :: behind ∧
      Lexeme.isQuote q = true
  · -- a node that begins with a quote is a quotation, or that quote alone
    obtain ⟨q, behind, hahead, hq⟩ := hquote
    rw [hahead, Lexeme.ahead?_quote hq, Lexeme.quoted?, if_pos hq] at hl
    by_cases hm : q ∈ behind
    · rw [if_pos hm] at hl
      cases hl
      have hshape : n.shape = .quoted := congrArg Lexeme.shape hread
      simp [Ast.degradations, Node.finding?, Node.kind, hshape, Shape.kind, hpattern, hahead,
        Lexeme.openQuote?, hm]
    · rw [if_neg hm] at hl
      cases hl
      have hshape : n.shape = .escape := congrArg Lexeme.shape hread
      have hraw : n.raw = [q] := congrArg Lexeme.raw hread
      have hlone : Lexeme.isLoneQuote [q] = true := by
        simpa [Lexeme.isLoneQuote, Lexeme.isQuote] using hq
      simp [Ast.degradations, Node.finding?, Node.kind, hshape, Shape.kind, hpattern, hahead,
        Lexeme.openQuote?, hm, hq, hraw, hlone, Finding.severity]
  · have hhead : ∀ c ∈ (pattern.drop n.span.start.offset).head?, Lexeme.isQuote c = false := by
      intro c hc
      obtain ⟨behind, hahead⟩ := List.head?_eq_some_iff.1 hc
      exact Bool.eq_false_iff.2 fun hq => hquote ⟨c, behind, hahead, hq⟩
    have hnone := Lexeme.openQuote?_of_not_isQuote hhead
    rw [Ast.degradations, hpattern, hnone, Option.toList_none, List.map_nil, List.append_nil]
    cases hshape : n.shape with
    | escape =>
      have hraw : n.raw = l.raw := (congrArg Lexeme.raw hread).trans Lexeme.raw_inPlace
      rw [← (Lexeme.covers_of_ahead? hl).head?_eq, ← hraw] at hhead
      simp [Node.finding?, Node.kind, hshape, Shape.kind, Lexeme.not_isLoneQuote hhead]
    | not wraps =>
      have hkind : n.kind = .not := congrArg Shape.kind hshape
      have hvalue := h.value_eq_nil_iff_head? hn hkind
      by_cases hv : n.value = [] <;>
        simp [Node.finding?, hshape, hkind, ← hvalue, hv, Finding.severity]
    | bracket negated inner close =>
      by_cases hc : close = [']'] <;>
        simp [Node.finding?, Node.kind, hshape, Shape.kind, Shape.isOpenClass, hc,
          Finding.severity]
    | _ => simp [Node.finding?, Node.kind, hshape, Shape.kind]

end Segments

/-! ## Reports -/

theorem Diagnostic.onNodes_eq (h : Segments pattern ls) (line : Int) :
    (onNodes line (Ast.ofSegments {} pattern ls).nodes).map (fun d => (d, d.finding.severity)) =
      (Ast.ofSegments {} pattern ls).nodes.flatMap fun n =>
        ((Ast.ofSegments {} pattern ls).degradations n).map fun f => (onNode line n f.1, f.2) := by
  rw [onNodes, List.map_filterMap, List.filterMap_eq_flatMap_toList]
  refine List.flatMap_congr fun n hn => ?_
  rw [h.degradations_eq hn]
  cases n.finding? <;> rfl

theorem Ast.openQuote?_of_mem_degradations {a : Ast} {q : Char}
    (h : (.openQuote [q], .information) ∈ a.degradations n) :
    Lexeme.openQuote? (a.pattern.drop n.span.start.offset) = some q := by
  rw [Ast.degradations, List.mem_append, List.mem_append] at h
  rcases h with (h | h) | h
  · split at h <;> simp at h
  · split at h
    · split at h <;> simp at h
    · cases h
  · simpa using h

theorem Node.raw_of_finding?_eq_openQuote {quote : List Char}
    (h : n.finding? = some (.openQuote quote)) : n.raw = quote := by
  unfold Node.finding? at h
  split at h
  · split at h <;> cases h
    rfl
  · split at h <;> cases h
  · split at h <;> cases h
  · cases h

namespace Segments

theorem openQuote_report (h : Segments pattern ls)
    (hd : d ∈ Diagnostic.onNodes line (Ast.ofSegments {} pattern ls).nodes) {q : Char}
    (hq : d.finding = .openQuote [q]) :
    d.stop = d.start + 1 ∧ pattern[d.start]? = some q ∧ q ∉ pattern.drop d.stop := by
  obtain ⟨n, hn, f, hf, rfl⟩ := Diagnostic.mem_onNodes.1 hd
  obtain rfl : f = .openQuote [q] := hq
  have hmem : (.openQuote [q], .information) ∈ (Ast.ofSegments {} pattern ls).degradations n := by
    rw [h.degradations_eq hn, hf]
    exact List.mem_singleton_self _
  obtain ⟨-, behind, hahead, hlast⟩ :=
    Lexeme.openQuote?_eq_some_iff.1 (Ast.openQuote?_of_mem_degradations hmem)
  have hstop : n.span.stop.offset = n.span.start.offset + 1 := by
    rw [(h.standsIn_of_mem hn).stop_offset, n.raw_of_finding?_eq_openQuote hf]
    rfl
  change pattern.drop n.span.start.offset = q :: behind at hahead
  refine ⟨hstop, ?_, ?_⟩
  · change pattern[n.span.start.offset]? = some q
    rw [← List.head?_drop, hahead, List.head?_cons]
  · change q ∉ pattern.drop n.span.stop.offset
    rwa [hstop, ← List.drop_drop, hahead, List.drop_one, List.tail_cons]

theorem finding?_of_backslash (h : Segments pattern ls)
    (hn : n ∈ (Ast.ofSegments {} pattern ls).nodes) (hb : n.raw.head? = some '\\') :
    n.finding? = none := by
  obtain ⟨l, hl, hread⟩ := h.exists_ahead_of_mem hn
  have hraw : n.raw = l.raw := (congrArg Lexeme.raw hread).trans Lexeme.raw_inPlace
  rw [hraw, (Lexeme.covers_of_ahead? hl).head?_eq] at hb
  obtain ⟨t, ht⟩ := List.head?_eq_some_iff.1 hb
  rw [ht] at hl
  cases t with
  | nil =>
    obtain rfl : Lexeme.plain .backslash ['\\'] = l := Option.some.inj hl
    have hshape : n.shape = .backslash := congrArg Lexeme.shape hread
    rw [Node.finding?, hshape]
  | cons c t =>
    obtain rfl : ⟨.escape, [c], ['\\', c]⟩ = l := Option.some.inj hl
    have hshape : n.shape = .escape := congrArg Lexeme.shape hread
    rw [Node.finding?, hshape, hraw]
    rfl

/-- Everything that is said is said of what stands behind the run of `!` in front. -/
theorem run_le_start (h : Segments pattern ls)
    (hd : d ∈ Diagnostic.onNodes line (Ast.ofSegments {} pattern ls).nodes) :
    (Lexeme.run '!' pattern).length ≤ d.start := by
  obtain ⟨n, hn, f, hf, rfl⟩ := Diagnostic.mem_onNodes.1 hd
  by_cases hbang : pattern.head? = some '!'
  · obtain ⟨t, rfl⟩ := List.head?_eq_some_iff.1 hbang
    have hapart : (Ast.ofSegments {} ('!' :: t) ls).nodes.Pairwise _ := h.pairwise_nodes
    have hvalue := h.value_eq_nil_iff_head? hn
    cases h with
    | @cons _ l ls hl rest =>
      rw [Lexeme.ahead?_bang, Option.some.injEq] at hl
      subst hl
      rcases List.mem_cons.1 hn with rfl | hn
      · -- the run itself stands for nothing
        have hnone : Node.finding? (Lexeme.nodeAt (.inPlace {} [] (.negation false true _)) _) =
            none := if_pos ((hvalue rfl).2 rfl)
        rw [hnone] at hf
        cases hf
      · have := (List.pairwise_cons.1 hapart).1 n hn
        rw [Lexeme.nodeAt, Position.offset_after] at this
        exact (Nat.le_add_left _ _).trans this
  · rw [Lexeme.run_eq_nil hbang]
    exact Nat.zero_le _

end Segments

theorem countP_le_one {α : Type} {p : α → Bool} {l : List α}
    (h : l.Pairwise fun a b => p a = true → p b = false) : l.countP p ≤ 1 := by
  induction h with
  | nil => exact Nat.zero_le _
  | @cons a l ha _ ih =>
    by_cases hp : p a = true
    · have hnone : l.countP p = 0 := List.countP_eq_zero.2 fun b hb => by simp [ha b hb hp]
      rw [List.countP_cons_of_pos hp, hnone]
    · rwa [List.countP_cons_of_neg hp]

theorem Segments.reportedOnce (h : Segments pattern ls) (line : Int) :
    (Ast.ofSegments {} pattern ls).ReportedOnce
      (Diagnostic.onNodes line (Ast.ofSegments {} pattern ls).nodes) where
  backslash n hn hb d hd := by
    obtain ⟨m, hm, f, hf, rfl⟩ := Diagnostic.mem_onNodes.1 hd
    refine h.apart_of_ne hm hn ?_
    rintro rfl
    rw [h.finding?_of_backslash hm hb] at hf
    cases hf
  negation d hd := h.run_le_start hd
  last d hd q hq := h.openQuote_report hd hq
  once q := by
    refine countP_le_one ?_
    have hapart : (Diagnostic.onNodes line (Ast.ofSegments {} pattern ls).nodes).Pairwise _ :=
      Diagnostic.pairwise_onNodes h.pairwise_nodes line
    refine hapart.imp_of_mem fun {d e} hd he hde hdq => ?_
    rw [decide_eq_true_iff] at hdq
    rw [decide_eq_false_iff_not]
    intro heq
    -- the earlier report says that the quote does not occur again
    obtain ⟨-, -, hlast⟩ := h.openQuote_report hd hdq
    obtain ⟨-, hat, -⟩ := h.openQuote_report he heq
    refine hlast (List.mem_iff_getElem?.2 ⟨e.start - d.stop, ?_⟩)
    rwa [List.getElem?_drop, Nat.add_sub_cancel' hde]

/-- Where numbers up to a bound can be told, all diagnostics are told if there are none, or if the
line is within the bound and so is the place behind each. -/
theorem Diagnostic.forall_ends_iff {ε : Type} {refuse : Place → Option ε} {bound : Nat}
    (hb : Place.AdmitsUpTo refuse bound) {found : List Diagnostic}
    (hline : ∀ d ∈ found, d.line = line) (hspan : ∀ d ∈ found, d.start ≤ d.stop) :
    (∀ p ∈ found.flatMap ends, refuse p = none) ↔
      found = [] ∨ 0 ≤ line ∧ line ≤ bound ∧ ∀ d ∈ found, d.stop ≤ bound := by
  have hends : (∀ p ∈ found.flatMap ends, refuse p = none) ↔
      ∀ d ∈ found, 0 ≤ line ∧ line ≤ bound ∧ d.stop ≤ bound := by
    rw [List.forall_mem_flatMap]
    refine forall₂_congr fun d hd => ?_
    have hstart := hspan d hd
    simp only [ends, List.forall_mem_cons, hb _, hline d hd]
    constructor
    · rintro ⟨-, ⟨h0, h1, hstop⟩, -⟩
      exact ⟨h0, h1, hstop⟩
    · rintro ⟨h0, h1, hstop⟩
      exact ⟨⟨h0, h1, hstart.trans hstop⟩, ⟨h0, h1, hstop⟩, List.forall_mem_nil _⟩
  rw [hends]
  cases found with
  | nil => exact iff_of_true (List.forall_mem_nil _) (.inl rfl)
  | cons d later =>
    constructor
    · intro h
      obtain ⟨h0, h1, -⟩ := h d List.mem_cons_self
      exact .inr ⟨h0, h1, fun e he => (h e he).2.2⟩
    · rintro (h | ⟨h0, h1, hstop⟩)
      · cases h
      · exact fun e he => ⟨h0, h1, hstop e he⟩

/-- **The diagnostics of a pattern are its degradations**: one for each, in the order of the nodes
and on the characters of its node, whatever the number of the line. They are told if all places that
they name can be; otherwise there are none, for the reason why the first that cannot is refused.
Where the numbers from zero up to a bound can be told, all are told exactly if nothing degrades, or
if the line and the ends of all ranges are within the bound. -/
theorem Diagnostic.check_degradations (pattern : List Char) (hp : '\n' ∉ pattern) (line : Int) :
    ∃ a found, tokenize .unchanged {} pattern = .ok a ∧
      found.map (fun d => (d, d.finding.severity)) = (a.nodes.flatMap fun n =>
        (a.degradations n).map fun f =>
          (⟨line, n.span.start.offset, n.span.stop.offset, f.1⟩, f.2)) ∧
      a.ReportedOnce found ∧ (∀ d ∈ found, d.stop ≤ pattern.length) ∧
      ∀ (ε : Type) (refuse : Place → Option ε),
        Told refuse found (check refuse .unchanged pattern line) ∧
        ∀ bound, Place.AdmitsUpTo refuse bound →
          (check refuse .unchanged pattern line = .ok found ↔
            found = [] ∨ 0 ≤ line ∧ line ≤ bound ∧ ∀ d ∈ found, d.stop ≤ bound) := by
  obtain ⟨ls, h⟩ := exists_segments pattern
  have hon : ∀ d ∈ onNodes line (Ast.ofSegments {} pattern ls).nodes,
      d.line = line ∧ d.start ≤ d.stop ∧ d.stop ≤ pattern.length := by
    intro d hd
    obtain ⟨n, hn, f, -, rfl⟩ := mem_onNodes.1 hd
    have hstands := h.standsIn_of_mem hn
    exact ⟨rfl, hstands.start_lt_stop.le, hstands.stop_le⟩
  refine ⟨_, _, tokenize_of_segments h {}, onNodes_eq h line, h.reportedOnce line,
    fun d hd => (hon d hd).2.2, fun ε refuse => ?_⟩
  rw [check_of_segments refuse h hp line]
  have htold := told_tell refuse (onNodes line (Ast.ofSegments {} pattern ls).nodes)
  refine ⟨htold, fun bound hb => htold.eq_ok_iff.trans ?_⟩
  exact forall_ends_iff hb (fun d hd => (hon d hd).1) fun d hd => (hon d hd).2.1

/-- All three degradations, behind a run of `!` and an escaped quote that are none. -/
theorem Diagnostic.check_degradations_three :
    '\n' ∉ "!!\\'a\"!b[cd".toList ∧ Place.AdmitsUpTo (Place.outOfRange? 2147483647) 2147483647 ∧
    ∃ a found, tokenize .unchanged {} "!!\\'a\"!b[cd".toList = .ok a ∧
      found.map (fun d => (d, d.finding.severity)) = (a.nodes.flatMap fun n =>
        (a.degradations n).map fun f =>
          (⟨3, n.span.start.offset, n.span.stop.offset, f.1⟩, f.2)) ∧
      a.ReportedOnce found ∧
      check (Place.outOfRange? 2147483647) .unchanged "!!\\'a\"!b[cd".toList 3 = .ok found := by
  have hp : '\n' ∉ "!!\\'a\"!b[cd".toList := by decide
  have hb := Place.outOfRange?_admitsUpTo 2147483647
  obtain ⟨a, found, ha, hfound, honce, hstop, htold⟩ := check_degradations _ hp 3
  have hlength : "!!\\'a\"!b[cd".toList.length ≤ 2147483647 := by decide
  refine ⟨hp, hb, a, found, ha, hfound, honce, ((htold _ _).2 _ hb).2 (.inr ?_)⟩
  exact ⟨by decide, by decide, fun d hd => (hstop d hd).trans hlength⟩

example : (Diagnostic.check (Place.outOfRange? 8) .unchanged "!!\\'a\"!b".toList 3).toOption =
    some [⟨3, 5, 6, .openQuote ['"']⟩, ⟨3, 6, 7, .literalNegation⟩] := by
  decide +kernel

/-- A quote that nothing closes, on a line with a number beyond the bound: it degrades, and there is
no list that says so. -/
theorem Diagnostic.check_line_too_high :
    ∃ a, tokenize .unchanged {} ['\''] = .ok a ∧
      a.nodes.flatMap a.degradations = [(.openQuote ['\''], .information)] ∧
      check (Place.outOfRange? 2147483647) .unchanged ['\''] 2147483648 =
        .error (.untold (.line 2147483648)) := by
  have h : Segments ['\''] [Lexeme.plain .escape ['\'']] := .cons rfl .nil
  exact ⟨_, tokenize_of_segments h {}, by decide, check_of_segments _ h (by decide) _⟩

end GlobPattern
