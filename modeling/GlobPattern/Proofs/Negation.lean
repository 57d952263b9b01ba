import GlobPattern.Proofs.Suffix

/-!
# What a negation wraps

A run of `!` in front of a pattern makes one node, and the rest is cut as it is without the run.
What is read differently is what asks whether anything stands in front: a single dot no longer opens
the first path segment, and a dot and a separator are no longer taken note of. The rest of the nodes
and of the state is the same, and only an odd run wraps.

* `Shape.negated`, `Node.Negated`: a node of a pattern, and the same node behind a run of `!`;
* `Segments.negate`: the segments of a pattern with a run of `!` in front;
* `Node.Negated.getLast?_dotfiles?`: the last dot, when the first node no longer opens a segment;
* `Segments.forall₂_negated`, `Segments.state_negate`: the nodes and the state behind a run of `!`;
* **`tokenize_negated`**: the nodes, the wrap and the state of a negated pattern.
-/

namespace GlobPattern

variable {options : Options} {pattern : List Char} {ls : List Lexeme}

/-- What a shape becomes behind a run of `!`, where only the `first` node asks about it. -/
def Shape.negated (bangs : List Char) (first : Bool) : Shape → Shape
  | .dot opensSegment => .dot (opensSegment && !first)
  | .qmark parsed => .qmark (bangs ++ parsed)
  | .globstar parsed inside => .globstar (bangs ++ parsed) inside
  | shape => shape

/-- A node `m` of a pattern, and the node `n` that it is behind a run of `!`. -/
structure Node.Negated (bangs : List Char) (m n : Node) : Prop where
  kind_eq : n.kind = m.kind
  raw_eq : n.raw = m.raw
  value_eq : n.value = m.value
  shape_eq : n.shape = m.shape.negated bangs (m.span.start.offset == 0)
  start_eq : n.span.start.offset = bangs.length + m.span.start.offset
  stop_eq : n.span.stop.offset = bangs.length + m.span.stop.offset

theorem Segments.negate (h : Segments pattern ls) (hp : pattern.head? ≠ some '!') {n : Nat}
    (hn : 0 < n) : Segments (List.replicate n '!' ++ pattern)
      (Lexeme.negation false true (List.replicate n '!') :: ls) := by
  have hfront : List.replicate n '!' ++ pattern =
      '!' :: (List.replicate (n - 1) '!' ++ pattern) := by
    rw [← List.cons_append, ← List.replicate_succ, Nat.sub_add_cancel hn]
  have hrun := Lexeme.run_replicate_append (k := n) hp
  rw [cons_iff]
  constructor
  · rw [hfront, Lexeme.ahead?_bang, ← hfront, hrun]
  · rw [Lexeme.negation, List.drop_left]
    exact h

theorem Segments.offset_ne_zero_of_kind_not (h : Segments pattern ls)
    (hp : pattern.head? ≠ some '!') : ∀ m ∈ (Ast.ofSegments options pattern ls).nodes,
      m.kind = .not → m.span.start.offset ≠ 0 := by
  intro m hm hk
  have hlater : m ∈ (Ast.ofSegments options pattern ls).nodes.tail → m.span.start.offset ≠ 0 :=
    h.offset_ne_zero_of_mem_tail m
  cases h with
  | nil => cases hm
  | @cons _ l ls hl rest =>
    rcases List.mem_cons.1 hm with rfl | hm
    · have hnot : l.kind = .not := (Lexeme.kind_inPlace_eq_not_iff options [] l).1 hk
      exact absurd (Lexeme.head?_of_ahead?_not hl hnot) hp
    · exact hlater hm

/-! ## Nodes behind a run -/

theorem Node.Negated.of_movedBehind {n : Nat} {m m' : Node}
    (hm : m.kind = .not → m.span.start.offset ≠ 0)
    (h : MovedBehind (List.replicate n '!') m m') : Negated (List.replicate n '!') m m' := by
  have hslash : (List.replicate n '!').getLast? ≠ some '/' := by
    intro hl
    have := List.eq_of_mem_replicate (List.mem_of_getLast? hl)
    cases this
  refine ⟨h.kind_eq, h.raw_eq, ?_, h.shape_eq.trans ?_, ?_, ?_⟩
  · rw [h.value_eq, if_neg fun hf => hm hf.1 hf.2]
  · have hm' : m.shape.kind = .not → m.span.start.offset ≠ 0 := hm
    cases hs : m.shape with
    | not wraps =>
      have hne : (m.span.start.offset == 0) = false := beq_eq_false_iff_ne.2 (hm' (by rw [hs]; rfl))
      rw [hne]
      simp [Shape.behindText, Shape.negated]
    | dot opensSegment =>
      cases hf : m.span.start.offset == 0 <;> simp [Shape.behindText, Shape.negated, hslash]
    | _ => rfl
  · exact h.start_eq
  · exact h.stop_eq

/-! ## The last dot -/

theorem Shape.dotfiles?_negated (bangs : List Char) (first : Bool) (shape : Shape) :
    (shape.negated bangs first).dotfiles? = shape.dotfiles?.map (· && !first) := by
  cases shape <;> rfl

theorem Shape.isSome_dotfiles? (shape : Shape) :
    shape.dotfiles?.isSome = (shape.kind == .dot) := by
  cases shape <;> rfl

theorem any_kind_dot (nodes : List Node) :
    nodes.any (·.kind == .dot) = !(nodes.filterMap (·.shape.dotfiles?)).isEmpty := by
  induction nodes with
  | nil => rfl
  | cons m nodes ih =>
    have hm : (m.kind == .dot) = m.shape.dotfiles?.isSome := m.shape.isSome_dotfiles?.symm
    rw [List.any_cons, hm, ih, List.filterMap_cons]
    cases m.shape.dotfiles? <;> rfl

/-- Behind a run of `!` the last dot is what it was, unless it was the first node. -/
theorem Node.Negated.getLast?_dotfiles? {bangs : List Char} {ms ns : List Node}
    (h : List.Forall₂ (Node.Negated bangs) ms ns)
    (hfirst : ∀ m ∈ ms.head?, m.span.start.offset = 0)
    (hlater : ∀ m ∈ ms.tail, m.span.start.offset ≠ 0) :
    (ns.filterMap (·.shape.dotfiles?)).getLast?.getD false =
      ((ms.filterMap (·.shape.dotfiles?)).getLast?.getD false && ms.tail.any (·.kind == .dot)) := by
  cases h with
  | nil => rfl
  | @cons m n ms ns hm hrest =>
    rw [List.tail_cons] at hlater ⊢
    have hsame : ns.filterMap (·.shape.dotfiles?) = ms.filterMap (·.shape.dotfiles?) := by
      refine filterMap_eq_of_forall₂ ((List.forall₂_and_left _ _).2 ⟨hlater, hrest⟩) ?_
      rintro a b ⟨ha, hab⟩
      rw [hab.shape_eq, Shape.dotfiles?_negated, beq_eq_false_iff_ne.2 ha]
      simp
    rw [any_kind_dot, List.filterMap_cons, List.filterMap_cons, hsame, hm.shape_eq,
      Shape.dotfiles?_negated]
    generalize ms.filterMap (·.shape.dotfiles?) = later
    have hzero : m.span.start.offset = 0 := hfirst m rfl
    cases m.shape.dotfiles? <;> cases later <;> simp [List.getLast?_cons, hzero]

/-! ## Patterns -/

theorem Segments.forall₂_negated (h : Segments pattern ls) (hp : pattern.head? ≠ some '!') {n : Nat}
    (hn : 0 < n) : List.Forall₂ (Node.Negated (List.replicate n '!'))
      (Ast.ofSegments options pattern ls).nodes
      (layOut (Position.start.after (List.replicate n '!'))
        (Lexeme.inPlaces options (List.replicate n '!') ls)) := by
  have hbangs : List.replicate n '!' ≠ [] := by
    rw [ne_eq, List.replicate_eq_nil_iff]
    omega
  have hoffset : (Position.start.after (List.replicate n '!')).offset =
      (List.replicate n '!').length + Position.start.offset :=
    (Position.offset_after _ _).trans (Nat.add_comm _ _)
  have hmoved : List.Forall₂ (Node.MovedBehind (List.replicate n '!'))
      (Ast.ofSegments options pattern ls).nodes _ :=
    Node.MovedBehind.of_inPlaces hbangs ls [] rfl hoffset
  rw [List.append_nil] at hmoved
  have hboth := (List.forall₂_and_left _ _).2 ⟨h.offset_ne_zero_of_kind_not hp, hmoved⟩
  exact hboth.imp fun m m' hm => .of_movedBehind hm.1 hm.2

/-- A run of `!` adds nothing to the state, but for what it keeps from being seen in front. -/
theorem Segments.state_negate (h : Segments pattern ls) (hp : pattern.head? ≠ some '!') {n : Nat}
    (hn : 0 < n) :
    let a := Ast.ofSegments options pattern ls
    (Ast.ofSegments options (List.replicate n '!' ++ pattern)
        (Lexeme.negation false true (List.replicate n '!') :: ls)).state =
      { a.state with
        isDotfile := a.state.isDotfile && a.nodes.tail.any (·.kind == .dot)
        addPrefix := false
        strictOpen := false } := by
  intro a
  have hkinds : (Ast.ofSegments options (List.replicate n '!' ++ pattern)
      (Lexeme.negation false true (List.replicate n '!') :: ls)).kinds = .not :: a.kinds := by
    rw [Ast.kinds_ofSegments, Ast.kinds_ofSegments, Lexeme.inPlaces_cons, List.map_cons,
      Lexeme.map_kind_inPlaces options _ []]
    rfl
  have hdots : (Ast.ofSegments options (List.replicate n '!' ++ pattern)
      (Lexeme.negation false true (List.replicate n '!') :: ls)).nodes.filterMap
        (·.shape.dotfiles?) =
      (layOut (Position.start.after (List.replicate n '!'))
        (Lexeme.inPlaces options (List.replicate n '!') ls)).filterMap (·.shape.dotfiles?) := rfl
  have hnodes : List.Forall₂ (Node.Negated (List.replicate n '!'))
      (Ast.ofSegments options pattern ls).nodes _ := h.forall₂_negated hp hn
  have hlast := Node.Negated.getLast?_dotfiles? hnodes
    (fun m hm => by rw [head?_layOut _ _ m hm]; rfl) h.offset_ne_zero_of_mem_tail
  have hlead : Lexeme.leadsWithDot (List.replicate n '!' ++ pattern) = false := by
    cases n with
    | zero => omega
    | succ n => rfl
  rw [Ast.state_ofSegments, Ast.state_ofSegments, hkinds, hdots, hlead, hlast]
  simp [a]

/-- **A run of `!` in front of a pattern wraps it, and hardly anything else.** It makes one node
without a value. The other nodes are those of the pattern, except that a single dot in front no
longer opens a segment. There is a wrap exactly if the run is odd. The state is that of the pattern,
except that a dot and a separator in front are not taken note of, and that a dot in front does not
count as the last one. -/
theorem tokenize_negated (options : Options) (hoptions : options.noNegate = false)
    (pattern : List Char) (hp : pattern.head? ≠ some '!') (n : Nat) (hn : 0 < n) :
    ∃ a b first rest, tokenize .unchanged options pattern = .ok a ∧
      tokenize .unchanged options (List.replicate n '!' ++ pattern) = .ok b ∧
      b.nodes = first :: rest ∧ first.kind = .not ∧ first.value = [] ∧
      first.raw = List.replicate n '!' ∧
      List.Forall₂ (Node.Negated (List.replicate n '!')) a.nodes rest ∧
      a.wrap = none ∧ b.wrap = (if n % 2 = 1 then some Wrap.negation else none) ∧
      b.state = { a.state with
        isDotfile := a.state.isDotfile && a.nodes.tail.any (·.kind == .dot)
        addPrefix := false
        strictOpen := false } := by
  obtain ⟨ls, h⟩ := exists_segments pattern
  have hneg := h.negate hp hn
  refine ⟨_, _, _, _, tokenize_of_segments h options, tokenize_of_segments hneg options, rfl, rfl,
    ?_, rfl, h.forall₂_negated hp hn, ?_, ?_, h.state_negate hp hn⟩
  · change (Lexeme.negation options.noNegate true (List.replicate n '!')).value = []
    simp [Lexeme.negation, hoptions]
  · have hrun : Lexeme.run '!' pattern = [] := Lexeme.run_eq_nil hp
    change (if _ then _ else _) = none
    simp [h.any_wraps_iff, hrun]
  · change (if _ then _ else _) = _
    simp only [hneg.any_wraps_iff, Lexeme.run_replicate_append hp, List.length_replicate, hoptions,
      true_and]

/-- A dot in front, behind three `!` and behind none. -/
theorem tokenize_negated_thrice :
    ({} : Options).noNegate = false ∧ "./a.[b".toList.head? ≠ some '!' ∧ 0 < 3 ∧
    ∃ a b first rest, tokenize .unchanged {} "./a.[b".toList = .ok a ∧
      tokenize .unchanged {} "!!!./a.[b".toList = .ok b ∧
      b.nodes = first :: rest ∧ first.kind = .not ∧ first.value = [] ∧
      first.raw = "!!!".toList ∧ List.Forall₂ (Node.Negated "!!!".toList) a.nodes rest ∧
      a.wrap = none ∧ b.wrap = some Wrap.negation ∧
      b.state = { a.state with
        isDotfile := a.state.isDotfile && a.nodes.tail.any (·.kind == .dot)
        addPrefix := false
        strictOpen := false } :=
  ⟨rfl, by decide, by decide,
    tokenize_negated {} rfl "./a.[b".toList (by decide) 3 (by decide)⟩

/-- A `!` in front of a dot and a separator changes more than the wrap: the dot no longer opens a
segment, and of the state three flags go out. -/
theorem tokenize_negated_dot_slash :
    (tokenize .unchanged { strictOpen := true } "./a".toList).toOption.map
        (fun a => (a.nodes.map (·.shape), a.state)) =
      some ([.dot true, .slash, .text],
        { separatorCount := 1, isDotfile := true, strictOpen := true, addPrefix := true }) ∧
    (tokenize .unchanged { strictOpen := true } "!./a".toList).toOption.map
        (fun b => (b.nodes.map (·.shape), b.state)) =
      some ([.not true, .dot false, .slash, .text], { separatorCount := 1 }) := by
  decide +kernel

end GlobPattern
