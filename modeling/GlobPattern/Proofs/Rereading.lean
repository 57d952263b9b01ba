import GlobPattern.Proofs.Summary

/-!
# One pattern under two options

The options are looked at only after it is settled what a lexeme covers. Two options cut a pattern
alike, and what they read differs where they say so: globstars turn into stars, and an odd run of
`!` in front either wraps the pattern or stands for itself.

* `Node.Reread`: a node as two options read it;
* `ScanState.under`: what options make of the state that is found with every option off;
* `Ast.Reread`, **`tokenize_reread`**: how the readings of a pattern under two options are related.
-/

namespace GlobPattern

variable {o p : Options}

/-! ## Nodes -/

/-- A node as two options read it. Only a globstar, where one of them rules it out, and an odd run
of `!` in front are not the same for both. -/
inductive Node.Reread (o p : Options) : Node → Node → Prop
  | degraded {m : Node} (ho : o.noGlobstar = false) (hp : p.noGlobstar = true)
      (hm : m.kind = .globstar) : Reread o p m { m with shape := .star, value := ['*'] }
  | restored {n : Node} (ho : o.noGlobstar = true) (hp : p.noGlobstar = false)
      (hn : n.kind = .globstar) : Reread o p { n with shape := .star, value := ['*'] } n
  | negation {raw : List Char} {span : Span} (first : span.start.offset = 0)
      (odd : raw.length % 2 = 1) :
      Reread o p ⟨⟨.not (!o.noNegate), if o.noNegate then raw else [], raw⟩, span⟩
        ⟨⟨.not (!p.noNegate), if p.noNegate then raw else [], raw⟩, span⟩
  | same {m : Node} (hg : m.kind = .globstar → o.noGlobstar = false ∧ p.noGlobstar = false)
      (hn : m.kind = .not → m.span.start.offset = 0 → m.raw.length % 2 = 0) : Reread o p m m

namespace Node.Reread

variable {m n : Node}

theorem raw_eq (h : Reread o p m n) : n.raw = m.raw := by cases h <;> rfl

theorem span_eq (h : Reread o p m n) : n.span = m.span := by cases h <;> rfl

theorem eq_of_options (h : Reread o p m n) (hn : o.noNegate = p.noNegate)
    (hg : o.noGlobstar = p.noGlobstar) : n = m := by
  cases h with
  | degraded ho hp => rw [ho, hp] at hg; cases hg
  | restored ho hp => rw [ho, hp] at hg; cases hg
  | negation => rw [hn]
  | same => rfl

theorem of_inPlace (l : Lexeme) (front : List Char) {q : Position}
    (hq : q.offset = front.length) :
    Reread o p ((l.inPlace o front).nodeAt q) ((l.inPlace p front).nodeAt q) := by
  obtain ⟨shape, value, raw⟩ := l
  cases shape with
  | not w =>
    change Reread o p ((Lexeme.negation o.noNegate front.isEmpty raw).nodeAt q)
      ((Lexeme.negation p.noNegate front.isEmpty raw).nodeAt q)
    cases front with
    | nil =>
      rcases Nat.mod_two_eq_zero_or_one raw.length with heven | hodd
      · -- an even run in front stands for nothing, whatever the options are
        rw [List.isEmpty_nil, Lexeme.negation_of_even heven, Lexeme.negation_of_even heven]
        exact .same (fun h => nomatch h) fun _ _ => heven
      · rw [List.isEmpty_nil, Lexeme.negation_of_odd hodd, Lexeme.negation_of_odd hodd]
        exact .negation hq hodd
    | cons c front =>
      refine .same (fun h => nomatch h) fun _ h => ?_
      change q.offset = 0 at h
      rw [hq, List.length_cons] at h
      omega
  | globstar parsed inside =>
    change Reread o p
      (Lexeme.nodeAt ⟨if o.noGlobstar then .star else .globstar front inside,
        if o.noGlobstar then ['*'] else value, raw⟩ q)
      (Lexeme.nodeAt ⟨if p.noGlobstar then .star else .globstar front inside,
        if p.noGlobstar then ['*'] else value, raw⟩ q)
    cases ho : o.noGlobstar <;> cases hp : p.noGlobstar
    · exact .same (fun _ => ⟨ho, hp⟩) fun h => nomatch h
    · exact .degraded (m := Lexeme.nodeAt ⟨.globstar front inside, value, raw⟩ q) ho hp rfl
    · exact .restored (n := Lexeme.nodeAt ⟨.globstar front inside, value, raw⟩ q) ho hp rfl
    · exact .same (fun h => nomatch h) fun h => nomatch h
  | _ => exact .same (fun h => nomatch h) fun h => nomatch h

/-- **Lexemes laid out in their places under two options are the same nodes, read twice.** -/
theorem of_inPlaces (ls : List Lexeme) (front : List Char) {q : Position}
    (hq : q.offset = front.length) :
    List.Forall₂ (Reread o p) (layOut q (Lexeme.inPlaces o front ls))
      (layOut q (Lexeme.inPlaces p front ls)) := by
  refine forall₂_layOut_inPlaces (I := fun front q front' q' => front' = front ∧ q' = q ∧
    q.offset = front.length) ?_ ?_ ls ⟨rfl, rfl, hq⟩
  · rintro l front q _ _ ⟨rfl, rfl, hq⟩
    exact of_inPlace l _ hq
  · rintro raw front q _ _ ⟨rfl, rfl, hq⟩
    rw [Position.offset_after, List.length_append]
    exact ⟨rfl, rfl, by omega⟩

end Node.Reread

/-! ## The state -/

/-- What options make of a state that was found with every option off. -/
def ScanState.under (o : Options) (s : ScanState) : ScanState :=
  { s with
    strictOpen := s.addPrefix && o.strictOpen
    hasGlobstar := s.hasGlobstar && !o.noGlobstar
    hasWildcardStar := s.hasWildcardStar || s.hasGlobstar && o.noGlobstar }

theorem ScanState.record_under (o : Options) (s : ScanState) (l : Lexeme) (front : List Char) :
    (s.under o).record (l.inPlace o front).shape =
      (s.record (l.inPlace {} front).shape).under o := by
  obtain ⟨shape, value, raw⟩ := l
  cases shape with
  | globstar parsed inside =>
    cases ho : o.noGlobstar <;> simp [Lexeme.inPlace, record, under, ho]
  | star => cases ho : o.noGlobstar <;> simp [Lexeme.inPlace, record, under, ho]
  | _ => rfl

theorem ScanState.recordAll_under (o : Options) (s : ScanState) (ls : List Lexeme)
    (front : List Char) : (s.under o).recordAll (Lexeme.inPlaces o front ls) =
      (s.recordAll (Lexeme.inPlaces {} front ls)).under o := by
  induction ls generalizing s front with
  | nil => rfl
  | cons l ls ih =>
    change ((s.under o).record (l.inPlace o front).shape).recordAll _ =
      ((s.record (l.inPlace {} front).shape).recordAll _).under o
    rw [record_under, ih]

theorem Ast.state_ofSegments_eq_under (o : Options) (pattern : List Char) (ls : List Lexeme) :
    (Ast.ofSegments o pattern ls).state = (Ast.ofSegments {} pattern ls).state.under o := by
  have hopening : ScanState.opening o pattern = (ScanState.opening {} pattern).under o := by
    rw [ScanState.opening_eq, ScanState.opening_eq]
    simp [ScanState.under]
  change (ScanState.opening o pattern).recordAll _ = _
  rw [hopening, ScanState.recordAll_under]
  rfl

/-! ## Patterns -/

/-- A pattern as two options read it. What each option changes is said in a field of its own, under
the condition that the two differ in it; everything else is the same for both. -/
structure Ast.Reread (o p : Options) (a b : Ast) : Prop where
  pattern_eq : b.pattern = a.pattern
  raws_eq : b.nodes.map (·.raw) = a.nodes.map (·.raw)
  spans_eq : b.nodes.map (·.span) = a.nodes.map (·.span)
  nodes : List.Forall₂ (Node.Reread o p) a.nodes b.nodes
  nodes_eq : o.noNegate = p.noNegate → o.noGlobstar = p.noGlobstar → b.nodes = a.nodes
  wrap_eq : o.noNegate = p.noNegate → b.wrap = a.wrap
  state_eq : b.state = { a.state with
    strictOpen := b.state.strictOpen
    hasGlobstar := b.state.hasGlobstar
    hasWildcardStar := b.state.hasWildcardStar }
  strictOpen_eq : o.strictOpen = p.strictOpen → b.state.strictOpen = a.state.strictOpen
  stars_eq : o.noGlobstar = p.noGlobstar →
    b.state.hasGlobstar = a.state.hasGlobstar ∧ b.state.hasWildcardStar = a.state.hasWildcardStar
  globstarless : p.noGlobstar = true → b.state.hasGlobstar = false
  degraded : o.noGlobstar = false → p.noGlobstar = true →
    b.state.hasWildcardStar = (a.state.hasWildcardStar || a.state.hasGlobstar)

/-- **Options never change how a pattern is cut.** Under any two options a pattern has nodes with
the same raw texts and spans, and what they read differs only where an option says so. -/
theorem tokenize_reread (o p : Options) (pattern : List Char) :
    ∃ a b, tokenize .unchanged o pattern = .ok a ∧ tokenize .unchanged p pattern = .ok b ∧
      a.Reread o p b := by
  obtain ⟨ls, h⟩ := exists_segments pattern
  refine ⟨_, _, tokenize_of_segments h o, tokenize_of_segments h p, ?_⟩
  have hnodes : List.Forall₂ (Node.Reread o p) (Ast.ofSegments o pattern ls).nodes
      (Ast.ofSegments p pattern ls).nodes := Node.Reread.of_inPlaces ls [] rfl
  have hstate (o : Options) := Ast.state_ofSegments_eq_under o pattern ls
  constructor
  case pattern_eq => rfl
  case raws_eq => exact map_eq_of_forall₂ hnodes fun _ _ hm => hm.raw_eq
  case spans_eq => exact map_eq_of_forall₂ hnodes fun _ _ hm => hm.span_eq
  case nodes => exact hnodes
  case nodes_eq =>
    intro hn hg
    have := map_eq_of_forall₂ (f := id) hnodes fun _ _ hm => hm.eq_of_options hn hg
    rwa [List.map_id, List.map_id] at this
  case wrap_eq =>
    intro hn
    change (if _ then _ else _) = (if _ then _ else _)
    simp only [h.any_wraps_iff, hn]
  case state_eq => rw [hstate p, hstate o]; rfl
  case strictOpen_eq =>
    intro hs
    rw [hstate p, hstate o]
    simp only [ScanState.under, hs]
  case stars_eq =>
    intro hg
    rw [hstate p, hstate o]
    simp only [ScanState.under, hg, and_self]
  case globstarless =>
    intro hp
    rw [hstate p]
    simp only [ScanState.under, hp, Bool.not_true, Bool.and_false]
  case degraded =>
    intro ho hp
    rw [hstate p, hstate o]
    simp only [ScanState.under, ho, hp, Bool.not_false, Bool.and_true, Bool.and_false,
      Bool.or_false]

end GlobPattern
