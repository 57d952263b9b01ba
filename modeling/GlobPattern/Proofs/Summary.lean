import GlobPattern.Proofs.FallThrough
import GlobPattern.Proofs.Segmentation

/-!
# The state sums up the nodes

Which rule sees something ahead is settled by the first character of a text, up to a choice between
two rules, and what no other rule claims is left to plain text. Conversely what is seen ahead says
with which character the text begins.

Every lexeme adds to the state what its kind says and nothing else, and only a run of `!` in front
of the pattern sets the wrap. So the state and the wrap of a pattern can be read off its nodes.

* `Lexeme.ahead?_bang`, `Lexeme.ahead?_quote`, `Lexeme.ahead?_bracket`, `Lexeme.ahead?_globstar`,
  `Lexeme.ahead?_star`, `Lexeme.ahead?_qmark`, `Lexeme.ahead?_plus`: what is seen in front of a
  given first character;
* **`Lexeme.ahead?_of_fallsThrough`**: what falls through the other rules is plain text;
* **`Lexeme.mem_openers_of_ahead?`**: the first character of a text is one of the kind that is seen
  ahead; `Lexeme.head?_of_ahead?_not`, `Lexeme.head?_of_ahead?_stars`;
* `ScanState.recordAll_eq`: what lexemes add to a state, in closed form;
* `Segments.any_wraps_iff`: only an odd run of `!` in front of a text wraps it;
* `Ast.SummedUp`, **`tokenize_summedUp`**: the state and the wrap that belong to the nodes.
-/

namespace GlobPattern

/-! ## What begins a text -/

theorem Scan.lexeme?_of_unclaimed {s : Scan} (h : ∀ k, k ≠ Kind.text → s.recognise? k = none) :
    s.lexeme? = s.recognise? .text := by
  have hall : Kind.all = Kind.all.filter (· ≠ .text) ++ [.text] := by decide
  have hnone : (Kind.all.filter (· ≠ .text)).findSome? s.recognise? = none :=
    List.findSome?_eq_none_iff.2 fun k hk => h k (of_decide_eq_true (List.mem_filter.1 hk).2)
  rw [lexeme?, hall, List.findSome?_append, hnone, Option.none_or, List.findSome?_singleton]

namespace Lexeme

variable {q : Char} {r s t : List Char} {l : Lexeme}

/-! ### What is seen in front of a character -/

theorem ahead?_bang (t : List Char) :
    ahead? ('!' :: t) = some (negation false true (run '!' ('!' :: t))) := by
  have hr : run '!' ('!' :: t) ≠ [] := by
    rw [run_cons_self]
    exact List.cons_ne_nil _ _
  have hn : not? false true ('!' :: t) = some (negation false true (run '!' ('!' :: t))) := by
    rw [not?, if_neg hr, negation]
  rw [← hn]
  rfl

theorem ahead?_quote (hq : isQuote q = true) : ahead? (q :: t) = quoted? (q :: t) := by
  obtain ⟨l, hl⟩ := Option.ne_none_iff_exists'.1 (quoted?_ne_none (t := t) hq)
  have hdot : (Scan.start (q :: t) {}).recognise? .leadingDot = none := rfl
  have hescape : (Scan.start (q :: t) {}).recognise? .escape = none := by
    rw [isQuote, Bool.or_eq_true, beq_iff_eq, beq_iff_eq] at hq
    rcases hq with rfl | rfl <;> rfl
  have hquoted : (Scan.start (q :: t) {}).recognise? .quoted = some l := hl
  simp only [hl, ahead?, Scan.lexeme?, Kind.all, List.findSome?_cons, hdot, hescape, hquoted]

theorem ahead?_bracket (h : square? false ('[' :: s) = none) :
    ahead? ('[' :: s) = bracket? ('[' :: s) := by
  have hfront : ahead? ('[' :: s) =
      [Kind.square, .bracket, .text].findSome? (Scan.start ('[' :: s) {}).recognise? := rfl
  have hsquare : (Scan.start ('[' :: s) {}).recognise? .square = none := h
  rw [hfront, List.findSome?_cons, hsquare]
  rfl

theorem ahead?_globstar (h : endsSegment t = true) : ahead? ('*' :: '*' :: t) =
    some ⟨.globstar [] {}, ['*', '*'], '*' :: '*' :: repeats t⟩ := by
  have hfront : ahead? ('*' :: '*' :: t) =
      [Kind.globstar, .star, .text].findSome? (Scan.start ('*' :: '*' :: t) {}).recognise? := rfl
  have hglobstar : (Scan.start ('*' :: '*' :: t) {}).recognise? .globstar =
      some ⟨.globstar [] {}, ['*', '*'], '*' :: '*' :: repeats t⟩ := if_pos h
  rw [hfront, List.findSome?_cons, hglobstar]

theorem ahead?_star (hg : globstar? false [] {} r = none) (hr : runBefore '*' ['('] r ≠ []) :
    ahead? r = some (plain .star (runBefore '*' ['('] r)) := by
  obtain ⟨t, rfl⟩ := exists_cons_of_run_ne_nil (run_ne_nil_of_runBefore_ne_nil hr)
  have hfront : ahead? ('*' :: t) =
      [Kind.globstar, .star, .text].findSome? (Scan.start ('*' :: t) {}).recognise? := rfl
  have hglobstar : (Scan.start ('*' :: t) {}).recognise? .globstar = none := hg
  have hstar : (Scan.start ('*' :: t) {}).recognise? .star =
      some (plain .star (runBefore '*' ['('] ('*' :: t))) := by
    refine (if_neg fun hseg => ?_).trans (plain?_eq_some.2 ⟨hr, rfl⟩)
    exact globstar?_ne_none hseg hg
  rw [hfront, List.findSome?_cons, hglobstar, List.findSome?_cons, hstar]

theorem ahead?_qmark (hr : runBefore '?' ['('] r ≠ []) :
    ahead? r = some (plain (.qmark []) (runBefore '?' ['('] r)) := by
  obtain ⟨t, rfl⟩ := exists_cons_of_run_ne_nil (run_ne_nil_of_runBefore_ne_nil hr)
  have hfront : ahead? ('?' :: t) =
      [Kind.qmark, .text].findSome? (Scan.start ('?' :: t) {}).recognise? := rfl
  have hqmark : (Scan.start ('?' :: t) {}).recognise? .qmark =
      some (plain (.qmark []) (runBefore '?' ['('] ('?' :: t))) := plain?_eq_some.2 ⟨hr, rfl⟩
  rw [hfront, List.findSome?_cons, hqmark]

theorem ahead?_plus (ht : t.head? ≠ some '(') : ahead? ('+' :: t) = some (plain .plus ['+']) := by
  have hfront : ahead? ('+' :: t) =
      [Kind.plus, .text].findSome? (Scan.start ('+' :: t) {}).recognise? := rfl
  have hplus : (Scan.start ('+' :: t) {}).recognise? .plus = some (plain .plus ['+']) := by
    change plus? ('+' :: t) = _
    unfold plus?
    split
    · next h => exact absurd (congrArg (·.tail.head?) h) ht
    · rfl
    · next h => exact absurd rfl (h t)
  rw [hfront, List.findSome?_cons, hplus]

/-- **What falls through the other rules is plain text.** -/
theorem ahead?_of_fallsThrough (hr : r ≠ []) (h : FallsThrough r) :
    ahead? r = text? false r :=
  Scan.lexeme?_of_unclaimed ((Scan.unclaimed_iff_fallsThrough (s := Scan.start r {}) rfl hr).2 h)

/-! ### The first character of what is seen -/

/-- **A text begins with a character of the kind that is seen ahead**, plain text and quotes that
are escapes apart. -/
theorem mem_openers_of_ahead? (h : ahead? r = some l) (ht : l.kind ≠ .text)
    (he : l.kind ≠ .escape) : ∃ c ∈ l.kind.openers, r.head? = some c := by
  obtain ⟨k, -, hk⟩ := List.exists_of_findSome?_eq_some h
  have hopeners : k ≠ .text ∧ k.openers = l.kind.openers := by
    rcases Scan.kind_of_recognise? hk with hkind | ⟨-, hkind⟩ | ⟨rfl, hkind⟩
    · exact hkind ▸ ⟨ht, rfl⟩
    · exact absurd hkind he
    · rw [hkind]
      exact ⟨by decide, rfl⟩
  obtain ⟨c, t, hr, hc⟩ := Scan.mem_openers_of_recognise? hk hopeners.1
  have hr : r = c :: t := hr
  exact ⟨c, hopeners.2 ▸ hc, by rw [hr, List.head?_cons]⟩

theorem head?_of_ahead?_not (h : ahead? r = some l) (hl : l.kind = .not) : r.head? = some '!' := by
  obtain ⟨c, hc, hr⟩ := mem_openers_of_ahead? h (by rw [hl]; decide) (by rw [hl]; decide)
  rw [hl] at hc
  rw [hr, List.mem_singleton.1 hc]

theorem head?_of_ahead?_stars (h : ahead? r = some l) (hl : l.kind ∈ [Kind.star, .globstar]) :
    r.head? = some '*' := by
  obtain ⟨c, hc, hr⟩ := mem_openers_of_ahead? h
    (by rintro hk; simp [hk] at hl) (by rintro hk; simp [hk] at hl)
  have hopeners : ∀ k ∈ [Kind.star, .globstar], k.openers = ['*'] := by decide
  rw [hopeners _ hl] at hc
  rw [hr, List.mem_singleton.1 hc]

end Lexeme

/-! ## Summaries -/

/-- Whether a dot opens a path segment, for dots only. -/
def Shape.dotfiles? : Shape → Option Bool
  | .dot opensSegment => some opensSegment
  | _ => none

theorem ScanState.recordAll_eq (s : ScanState) (ls : List Lexeme) :
    s.recordAll ls =
      { s with
        separatorCount := s.separatorCount + (ls.map Lexeme.kind).count .slash
        isDotfile := (ls.filterMap (·.shape.dotfiles?)).getLast?.getD s.isDotfile
        hasWildcardStar := s.hasWildcardStar || (ls.map Lexeme.kind).contains .star
        hasGlobstar := s.hasGlobstar || (ls.map Lexeme.kind).contains .globstar
        hasMetachar := s.hasMetachar ||
          [Kind.qmark, .globstar, .star].any (ls.map Lexeme.kind).contains
        hasQmark := s.hasQmark || (ls.map Lexeme.kind).contains .qmark } := by
  induction ls generalizing s with
  | nil => simp [recordAll]
  | cons l ls ih =>
    rw [show s.recordAll (l :: ls) = (s.record l.shape).recordAll ls from rfl, ih]
    obtain ⟨shape, value, raw⟩ := l
    cases shape with
    | slash =>
      simp [record, Lexeme.kind, Shape.kind, Shape.dotfiles?]
      omega
    | _ => simp [record, Lexeme.kind, Shape.kind, Shape.dotfiles?, List.getLast?_cons]

/-! ### A run of exclamation marks in front -/

namespace Lexeme

variable {options : Options} {front r : List Char} {l : Lexeme} {ls : List Lexeme}

theorem wraps_inPlace : (l.inPlace options front).shape.wraps = true ↔
    l.kind = .not ∧ front = [] ∧ l.raw.length % 2 = 1 ∧ options.noNegate = false := by
  obtain ⟨shape, value, raw⟩ := l
  cases shape with
  | not => simp [inPlace, kind, Shape.kind, negation, Shape.wraps, and_assoc]
  | globstar => cases h : options.noGlobstar <;> simp [inPlace, kind, Shape.kind, Shape.wraps, h]
  | _ => simp [inPlace, kind, Shape.kind, Shape.wraps]

theorem any_wraps_inPlaces (h : front ≠ []) :
    (inPlaces options front ls).any (·.shape.wraps) = false := by
  induction ls generalizing front with
  | nil => rfl
  | cons l ls ih =>
    have hl : (l.inPlace options front).shape.wraps = false := by
      rw [Bool.eq_false_iff, ne_eq, wraps_inPlace]
      exact fun hl => h hl.2.1
    rw [inPlaces_cons, List.any_cons, hl, Bool.false_or]
    exact ih (List.append_ne_nil_of_left_ne_nil h _)

end Lexeme

/-- **Only an odd run of `!` in front of a text wraps it.** -/
theorem Segments.any_wraps_iff {r : List Char} {ls : List Lexeme} (h : Segments r ls)
    (options : Options) : (Lexeme.inPlaces options [] ls).any (·.shape.wraps) = true ↔
      options.noNegate = false ∧ (Lexeme.run '!' r).length % 2 = 1 := by
  cases h with
  | nil => simp [Lexeme.run]
  | @cons _ l ls hl _ =>
    have hraw := (Lexeme.covers_of_ahead? hl).1
    rw [Lexeme.inPlaces_cons, List.any_cons, Lexeme.any_wraps_inPlaces (by simpa using hraw),
      Bool.or_false, Lexeme.wraps_inPlace]
    by_cases hr : r.head? = some '!'
    · obtain ⟨t, rfl⟩ := List.head?_eq_some_iff.1 hr
      rw [Lexeme.ahead?_bang, Option.some.injEq] at hl
      subst hl
      simp [Lexeme.negation, Lexeme.kind, Shape.kind, and_comm]
    · have hk : l.kind ≠ .not := fun hk => hr (Lexeme.head?_of_ahead?_not hl hk)
      simp [hk, Lexeme.run_eq_nil hr]

/-! ### Nodes and segments -/

theorem Lexeme.kind_inPlace_eq_not_iff (options : Options) (front : List Char) (l : Lexeme) :
    (l.inPlace options front).kind = .not ↔ l.kind = .not := by
  rw [kind_inPlace]
  split
  · next h => simp [h.1]
  · exact Iff.rfl

theorem Lexeme.value_inPlace_eq_nil_iff {options : Options} {front : List Char} {l : Lexeme}
    (hl : l.kind = .not) (hr : l.raw ≠ []) : (l.inPlace options front).value = [] ↔
      front = [] ∧ (l.raw.length % 2 = 0 ∨ options.noNegate = false) := by
  obtain ⟨shape, value, raw⟩ := l
  cases shape with
  | not =>
    have hv : (front.isEmpty && !(raw.length % 2 == 1 && options.noNegate)) = true ↔
        front = [] ∧ (raw.length % 2 = 0 ∨ options.noNegate = false) := by simp
    rw [← hv]
    change (if _ then [] else raw) = [] ↔ _
    split
    · next h => exact iff_of_true rfl h
    · next h => exact iff_of_false hr h
  | _ => cases hl

theorem Ast.kinds_ofSegments (options : Options) (pattern : List Char) (ls : List Lexeme) :
    (Ast.ofSegments options pattern ls).kinds =
      (Lexeme.inPlaces options [] ls).map Lexeme.kind :=
  map_kind_layOut _ _

theorem Lexeme.leadsWithDot_iff (r : List Char) :
    leadsWithDot r = true ↔ ['.', '/'] <+: r ∨ ['.', '\\'] <+: r := by
  unfold leadsWithDot
  split
  · next c r =>
    simp only [Bool.or_eq_true, beq_iff_eq, List.cons_prefix_cons, List.nil_prefix, true_and,
      and_true, eq_comm (b := c)]
  · next h =>
    refine iff_of_false Bool.false_ne_true ?_
    rintro (⟨t, rfl⟩ | ⟨t, rfl⟩)
    · exact h _ _ rfl
    · exact h _ _ rfl

theorem Ast.state_ofSegments (options : Options) (pattern : List Char) (ls : List Lexeme) :
    let a := Ast.ofSegments options pattern ls
    a.state =
      { separatorCount := a.kinds.count .slash
        isDotfile := (a.nodes.filterMap (·.shape.dotfiles?)).getLast?.getD false
        hasWildcardStar := a.kinds.contains .star
        hasGlobstar := a.kinds.contains .globstar
        hasMetachar := [Kind.qmark, .globstar, .star].any a.kinds.contains
        hasQmark := a.kinds.contains .qmark
        strictOpen := Lexeme.leadsWithDot pattern && options.strictOpen
        addPrefix := Lexeme.leadsWithDot pattern } := by
  intro a
  have hread : a.nodes.map Node.toLexeme = Lexeme.inPlaces options [] ls := map_toLexeme_layOut _ _
  have hdots : a.nodes.filterMap (·.shape.dotfiles?) =
      (Lexeme.inPlaces options [] ls).filterMap (·.shape.dotfiles?) := by
    rw [← hread, List.filterMap_map]
    rfl
  rw [show a.state = _ from ScanState.recordAll_eq _ _, ScanState.opening_eq, hdots,
    Ast.kinds_ofSegments]
  simp only [Nat.zero_add, Bool.false_or]

theorem Segments.value_eq_nil_iff {options : Options} {pattern : List Char} {ls : List Lexeme}
    (h : Segments pattern ls) {before later : List Node} {n : Node}
    (hn : (Ast.ofSegments options pattern ls).nodes = before ++ n :: later) (hk : n.kind = .not) :
    n.value = [] ↔ before = [] ∧ (n.raw.length % 2 = 0 ∨ options.noNegate = false) := by
  have hread : (Ast.ofSegments options pattern ls).nodes.map Node.toLexeme =
      Lexeme.inPlaces options [] ls := map_toLexeme_layOut _ _
  rw [hn, List.map_append, List.map_cons] at hread
  obtain ⟨front, behind, rfl, hbefore, hbehind⟩ :=
    Lexeme.exists_of_inPlaces_eq_append hread.symm
  cases behind with
  | nil => cases hbehind
  | cons m behind =>
    have hraw := h.raw_ne_nil
    rw [List.nil_append, Lexeme.inPlaces_cons, List.cons.injEq] at hbehind
    have hm : m.kind = .not := by
      rw [← Lexeme.kind_inPlace_eq_not_iff options, ← hbehind.1]
      exact hk
    have hfirst : Lexeme.covered front = [] ↔ before = [] := by
      rw [Lexeme.covered_eq_nil_iff fun l hl => hraw l (List.mem_append_left _ hl)]
      cases front <;> cases before <;> simp_all
    rw [hbehind.1, Lexeme.raw_inPlace, ← hfirst]
    exact Lexeme.value_inPlace_eq_nil_iff hm (hraw m (by simp))

/-- The state and the wrap of a pattern are what its nodes say: the number of slashes, the kinds of
wildcards that occur, and the last dot. Besides that they only tell whether the pattern begins with
a dot and a separator, and whether it begins with an odd run of `!`. -/
structure Ast.SummedUp (options : Options) (a : Ast) : Prop where
  separatorCount : a.state.separatorCount = a.kinds.count .slash
  hasQmark : a.state.hasQmark = true ↔ .qmark ∈ a.kinds
  hasGlobstar : a.state.hasGlobstar = true ↔ .globstar ∈ a.kinds
  hasWildcardStar : a.state.hasWildcardStar = true ↔ .star ∈ a.kinds
  hasMetachar : a.state.hasMetachar = true ↔
    .qmark ∈ a.kinds ∨ .globstar ∈ a.kinds ∨ .star ∈ a.kinds
  isDotfile : a.state.isDotfile = (a.nodes.filterMap (·.shape.dotfiles?)).getLast?.getD false
  addPrefix : a.state.addPrefix = true ↔ ['.', '/'] <+: a.pattern ∨ ['.', '\\'] <+: a.pattern
  strictOpen : a.state.strictOpen = (a.state.addPrefix && options.strictOpen)
  paths : a.state.paths = []
  contexts : a.state.contexts = []
  wrap : (a.opening, a.closing) =
    if options.noNegate = false ∧ (a.pattern.takeWhile (· == '!')).length % 2 = 1 then
      (some Wrap.negation.opening, Wrap.negation.closing)
    else (none, "")
  emptyNot : ∀ before n later, a.nodes = before ++ n :: later → n.kind = .not →
    (n.value = [] ↔ before = [] ∧ (n.raw.length % 2 = 0 ∨ options.noNegate = false))

/-- **The state and the wrap of every pattern sum up its nodes.** -/
theorem tokenize_summedUp (options : Options) (pattern : List Char) :
    ∃ a, tokenize .unchanged options pattern = .ok a ∧ a.pattern = pattern ∧
      a.SummedUp options := by
  obtain ⟨ls, h⟩ := exists_segments pattern
  refine ⟨_, tokenize_of_segments h options, rfl, ?_⟩
  have hstate := Ast.state_ofSegments options pattern ls
  generalize ha : Ast.ofSegments options pattern ls = a at hstate
  dsimp only at hstate
  have hwrap : a.wrap = if options.noNegate = false ∧ (Lexeme.run '!' pattern).length % 2 = 1 then
      some Wrap.negation else none := by
    rw [← ha, Ast.ofSegments]
    simp only [h.any_wraps_iff]
  have hpattern : a.pattern = pattern := by rw [← ha]; rfl
  constructor
  case separatorCount => rw [hstate]
  case hasQmark => rw [hstate]; exact List.contains_iff_mem
  case hasGlobstar => rw [hstate]; exact List.contains_iff_mem
  case hasWildcardStar => rw [hstate]; exact List.contains_iff_mem
  case hasMetachar => rw [hstate]; simp
  case isDotfile => rw [hstate]
  case addPrefix => rw [hstate, hpattern]; exact Lexeme.leadsWithDot_iff pattern
  case strictOpen => rw [hstate]
  case paths => rw [hstate]
  case contexts => rw [hstate]
  case wrap =>
    rw [Ast.opening, Ast.closing, hwrap, hpattern, Lexeme.run]
    split <;> rfl
  case emptyNot =>
    intro before n later hn hk
    exact h.value_eq_nil_iff (ha ▸ hn) hk

end GlobPattern
