import GlobPattern.Proofs.Segmentation

/-!
# Boundaries of nodes

A boundary is a place of a pattern where a node ends, or the front of it. Cutting a pattern at a
boundary cuts its segments in two, and its nodes in those that begin before the cut and those that
begin at it or behind it.

* `Ast.boundaries`, `IsBoundary`, `Ast.nodesBefore`, `Ast.nodesFrom`;
* **`Segments.isBoundary_iff`**: boundaries are the places between segments;
* **`Segments.nodes_cut`**: the nodes on the two sides of a cut;
* `Segments.exists_ahead_of_mem`: what the text at the place of a node says of the node;
* **`exists_nodesFrom_of_isBoundary`**, `exists_nodesFrom_of_ahead?`, `exists_node_of_isBoundary`:
  the nodes from a boundary on, and the one that begins there.
-/

namespace GlobPattern

/-- The places where the nodes end, and the front of the pattern. -/
def Ast.boundaries (a : Ast) : List Nat := 0 :: a.nodes.map (·.span.stop.offset)

/-- The built-in rules cut the pattern at the place. -/
def IsBoundary (options : Options) (pattern : List Char) (k : Nat) : Prop :=
  ∃ a, tokenize .unchanged options pattern = .ok a ∧ k ∈ a.boundaries

instance (options : Options) (pattern : List Char) (k : Nat) :
    Decidable (IsBoundary options pattern k) :=
  decidable_of_iff
    ((tokenize .unchanged options pattern).toOption.any (k ∈ ·.boundaries) = true) (by
      rw [IsBoundary]
      cases tokenize .unchanged options pattern <;> simp [Except.toOption])

/-- The nodes that begin before a place. -/
def Ast.nodesBefore (a : Ast) (k : Nat) : List Node := a.nodes.filter (·.span.start.offset < k)

/-- The nodes that begin at a place or behind it. -/
def Ast.nodesFrom (a : Ast) (k : Nat) : List Node := a.nodes.filter (k ≤ ·.span.start.offset)

/-! ## Nodes laid out around a place -/

section LayOut

variable {q : Position} {ls ms : List Lexeme} {n : Node}

theorem bounds_of_mem_layOut (hl : ∀ l ∈ ls, l.raw ≠ []) (hn : n ∈ layOut q ls) :
    q.offset ≤ n.span.start.offset ∧ n.span.start.offset < n.span.stop.offset ∧
      n.span.stop.offset ≤ q.offset + (Lexeme.covered ls).length := by
  induction ls generalizing q with
  | nil => cases hn
  | cons l ls ih =>
    have hpos := List.length_pos_iff.2 (hl l List.mem_cons_self)
    rw [Lexeme.covered_cons, List.length_append]
    rcases List.mem_cons.1 hn with rfl | hn
    · have hstart : (l.nodeAt q).span.start.offset = q.offset := rfl
      have hstop : (l.nodeAt q).span.stop.offset = q.offset + l.raw.length := q.offset_after l.raw
      omega
    · have := ih (fun m hm => hl m (List.mem_cons_of_mem _ hm)) hn
      rw [Position.offset_after] at this
      omega

theorem pairwise_layOut (hl : ∀ l ∈ ls, l.raw ≠ []) :
    (layOut q ls).Pairwise fun m n => m.span.stop.offset ≤ n.span.start.offset := by
  induction ls generalizing q with
  | nil => exact .nil
  | cons l ls ih =>
    have hrest := fun m hm => hl m (List.mem_cons_of_mem _ hm)
    exact .cons (fun n hn => (bounds_of_mem_layOut hrest hn).1) (ih hrest)

theorem filter_layOut_append (hl : ∀ l ∈ ls ++ ms, l.raw ≠ []) {k : Nat}
    (hk : q.offset + (Lexeme.covered ls).length = k) :
    (layOut q (ls ++ ms)).filter (·.span.start.offset < k) = layOut q ls ∧
      (layOut q (ls ++ ms)).filter (k ≤ ·.span.start.offset) =
        layOut (q.after (Lexeme.covered ls)) ms := by
  have hbefore : ∀ n ∈ layOut q ls, n.span.start.offset < k := by
    intro n hn
    have := bounds_of_mem_layOut (fun l h => hl l (List.mem_append_left _ h)) hn
    omega
  have hfrom : ∀ n ∈ layOut (q.after (Lexeme.covered ls)) ms, k ≤ n.span.start.offset := by
    intro n hn
    have := bounds_of_mem_layOut (fun l h => hl l (List.mem_append_right _ h)) hn
    rw [Position.offset_after] at this
    omega
  rw [layOut_append, List.filter_append, List.filter_append]
  constructor
  · rw [List.filter_eq_self.2 fun n hn => decide_eq_true (hbefore n hn),
      List.filter_eq_nil_iff.2 fun n hn => by simpa using hfrom n hn, List.append_nil]
  · rw [List.filter_eq_self.2 fun n hn => decide_eq_true (hfrom n hn),
      List.filter_eq_nil_iff.2 fun n hn => by simpa using hbefore n hn, List.nil_append]

theorem mem_stops_layOut_iff {k : Nat} :
    k ∈ q.offset :: (layOut q ls).map (·.span.stop.offset) ↔
      ∃ before later, ls = before ++ later ∧ q.offset + (Lexeme.covered before).length = k := by
  induction ls generalizing q with
  | nil =>
    constructor
    · intro h
      exact ⟨[], [], rfl, (List.mem_singleton.1 h).symm⟩
    · rintro ⟨before, later, h, rfl⟩
      rw [(List.append_eq_nil_iff.1 h.symm).1]
      exact List.mem_cons_self
  | cons l ls ih =>
    have hstop : (l.nodeAt q).span.stop.offset = (q.after l.raw).offset := rfl
    rw [layOut, List.map_cons, hstop, List.mem_cons, ih, Position.offset_after]
    constructor
    · rintro (rfl | ⟨before, later, rfl, rfl⟩)
      · exact ⟨[], l :: ls, rfl, rfl⟩
      · exact ⟨l :: before, later, rfl, by rw [Lexeme.covered_cons, List.length_append]; omega⟩
    · rintro ⟨before, later, h, rfl⟩
      cases before with
      | nil => exact .inl rfl
      | cons m before =>
        rw [List.cons_append, List.cons.injEq] at h
        obtain ⟨rfl, rfl⟩ := h
        exact .inr ⟨before, later, rfl, by rw [Lexeme.covered_cons, List.length_append]; omega⟩

end LayOut

/-! ## Cutting a pattern -/

variable {options : Options} {pattern : List Char} {ls ms : List Lexeme}

/-- **The boundaries of a pattern are the places between its segments.** -/
theorem Segments.isBoundary_iff (h : Segments pattern ls) {k : Nat} :
    IsBoundary options pattern k ↔
      ∃ before later, ls = before ++ later ∧ (Lexeme.covered before).length = k := by
  have hmem : IsBoundary options pattern k ↔
      k ∈ (Ast.ofSegments options pattern ls).boundaries := by
    constructor
    · rintro ⟨a, ha, hk⟩
      rw [tokenize_of_segments h options, Except.ok.injEq] at ha
      rwa [ha]
    · intro hk
      exact ⟨_, tokenize_of_segments h options, hk⟩
  rw [hmem, Ast.boundaries, Ast.ofSegments]
  refine (mem_stops_layOut_iff (q := Position.start)).trans ?_
  constructor
  · rintro ⟨read, rest, hr, rfl⟩
    obtain ⟨before, later, rfl, rfl, -⟩ := Lexeme.exists_of_inPlaces_eq_append hr
    exact ⟨before, later, rfl, by rw [Lexeme.covered_inPlaces]; exact (Nat.zero_add _).symm⟩
  · rintro ⟨before, later, rfl, rfl⟩
    exact ⟨_, _, Lexeme.inPlaces_append, by rw [Lexeme.covered_inPlaces]; exact Nat.zero_add _⟩

theorem exists_segments_of_isBoundary {u v : List Char}
    (hb : IsBoundary options (u ++ v) u.length) :
    ∃ before later, Lexeme.covered before = u ∧ Segments (u ++ v) (before ++ later) ∧
      Segments v later := by
  obtain ⟨ls, h⟩ := exists_segments (u ++ v)
  obtain ⟨before, later, rfl, hlen⟩ := h.isBoundary_iff.1 hb
  have hcov := h.covered_eq
  rw [Lexeme.covered_append] at hcov
  obtain ⟨hu, hv⟩ := List.append_inj hcov hlen
  exact ⟨before, later, hu, h, hv ▸ h.of_append⟩

theorem raw_ne_nil_of_mem_inPlaces (options : Options) (front : List Char)
    (h : ∀ l ∈ ls, l.raw ≠ []) : ∀ l ∈ Lexeme.inPlaces options front ls, l.raw ≠ [] := by
  induction ls generalizing front with
  | nil => simp
  | cons l ls ih =>
    intro m hm
    rcases List.mem_cons.1 hm with rfl | hm
    · rw [Lexeme.raw_inPlace]
      exact h l List.mem_cons_self
    · exact ih _ (fun l hl => h l (List.mem_cons_of_mem _ hl)) m hm

theorem Segments.nodes_cut (h : Segments pattern (ls ++ ms)) :
    (Ast.ofSegments options pattern (ls ++ ms)).nodesBefore (Lexeme.covered ls).length =
        layOut Position.start (Lexeme.inPlaces options [] ls) ∧
      (Ast.ofSegments options pattern (ls ++ ms)).nodesFrom (Lexeme.covered ls).length =
        layOut (Position.start.after (Lexeme.covered ls))
          (Lexeme.inPlaces options (Lexeme.covered ls) ms) := by
  have hraw := raw_ne_nil_of_mem_inPlaces options [] h.raw_ne_nil
  rw [Lexeme.inPlaces_append, List.nil_append] at hraw
  have hcut := filter_layOut_append (q := Position.start) hraw rfl
  rw [Lexeme.covered_inPlaces] at hcut
  rw [Ast.nodesBefore, Ast.nodesFrom, Ast.ofSegments, Lexeme.inPlaces_append, List.nil_append]
  have hzero : Position.start.offset + (Lexeme.covered ls).length = (Lexeme.covered ls).length :=
    Nat.zero_add _
  rwa [hzero] at hcut

theorem Segments.offset_ne_zero_of_mem_tail (h : Segments pattern ls) :
    ∀ m ∈ (Ast.ofSegments options pattern ls).nodes.tail, m.span.start.offset ≠ 0 := by
  intro m hm
  cases h with
  | nil => cases hm
  | @cons _ l ls hl rest =>
    have hraw := (Lexeme.covers_of_ahead? hl).length_pos
    have hbounds := bounds_of_mem_layOut (raw_ne_nil_of_mem_inPlaces options _ rest.raw_ne_nil) hm
    rw [Position.offset_after, Lexeme.raw_inPlace] at hbounds
    omega

theorem Segments.exists_ahead_of_mem (h : Segments pattern ls) {n : Node}
    (hn : n ∈ (Ast.ofSegments options pattern ls).nodes) :
    ∃ l, Lexeme.ahead? (pattern.drop n.span.start.offset) = some l ∧
      n.toLexeme = l.inPlace options (pattern.take n.span.start.offset) := by
  suffices hs : ∀ front,
      n ∈ layOut (Position.start.after front) (Lexeme.inPlaces options front ls) →
      ∃ l, Lexeme.ahead? ((front ++ pattern).drop n.span.start.offset) = some l ∧
        n.toLexeme = l.inPlace options ((front ++ pattern).take n.span.start.offset) from hs [] hn
  clear hn
  induction h with
  | nil => exact fun front hn => nomatch hn
  | @cons r l ls hl _ ih =>
    intro front hn
    rcases List.mem_cons.1 hn with rfl | hn
    · have hplace : (Position.start.after front).offset = front.length :=
        (Position.offset_after _ _).trans (Nat.zero_add _)
      refine ⟨l, ?_, ?_⟩
      · rw [Lexeme.nodeAt, hplace, List.drop_left, hl]
      · rw [Lexeme.nodeAt, hplace, List.take_left]
    · rw [Lexeme.raw_inPlace, ← Position.after_append] at hn
      have := ih _ hn
      rwa [List.append_assoc, (Lexeme.covers_of_ahead? hl).append_drop] at this

theorem exists_nodesFrom_of_isBoundary {u v : List Char}
    (hb : IsBoundary options (u ++ v) u.length) : ∃ a later,
      tokenize .unchanged options (u ++ v) = .ok a ∧ Segments v later ∧
      a.nodesFrom u.length =
        layOut (Position.start.after u) (Lexeme.inPlaces options u later) := by
  obtain ⟨before, later, rfl, h, hlater⟩ := exists_segments_of_isBoundary hb
  exact ⟨_, later, tokenize_of_segments h options, hlater, h.nodes_cut.2⟩

theorem exists_nodesFrom_of_ahead? {u v : List Char} {l : Lexeme}
    (hb : IsBoundary options (u ++ v) u.length) (hl : Lexeme.ahead? v = some l) : ∃ a later,
      tokenize .unchanged options (u ++ v) = .ok a ∧ Segments (v.drop l.raw.length) later ∧
      a.nodesFrom u.length = (l.inPlace options u).nodeAt (Position.start.after u) ::
        layOut ((Position.start.after u).after (l.inPlace options u).raw)
          (Lexeme.inPlaces options (u ++ l.raw) later) := by
  obtain ⟨a, later, ha, hlater, hfrom⟩ := exists_nodesFrom_of_isBoundary hb
  obtain ⟨rest, rfl, hrest⟩ := hlater.exists_cons_of_ahead? hl
  exact ⟨a, rest, ha, hrest, hfrom⟩

theorem exists_node_of_isBoundary {u v : List Char} (hb : IsBoundary options (u ++ v) u.length)
    (hv : v ≠ []) : ∃ a l, tokenize .unchanged options (u ++ v) = .ok a ∧
      Lexeme.ahead? v = some l ∧
      (l.inPlace options u).nodeAt (Position.start.after u) ∈ a.nodes := by
  obtain ⟨l, hl⟩ := Lexeme.exists_ahead? hv
  obtain ⟨a, later, ha, -, hfrom⟩ := exists_nodesFrom_of_ahead? hb hl
  have hmem : (l.inPlace options u).nodeAt (Position.start.after u) ∈ a.nodesFrom u.length := by
    rw [hfrom]
    exact List.mem_cons_self
  exact ⟨a, l, ha, hl, List.mem_of_mem_filter hmem⟩

end GlobPattern
