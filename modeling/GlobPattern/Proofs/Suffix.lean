import GlobPattern.Proofs.Boundary
import GlobPattern.Proofs.Summary

/-!
# What is read behind a boundary

Behind a boundary a pattern is read as if it began there. Of the text in front a node keeps only
what it quotes, and only the first node asks about it at all: a run of `!` whether anything stands
in front, and a single dot whether a slash does.

* `Shape.behindText`, `Node.MovedBehind`: a node of a text, and the same node behind other text;
* **`tokenize_append`**: the nodes behind a boundary are those of the text behind it.
-/

namespace GlobPattern

/-- What a shape becomes when `u` is put in front of the text in which it was read, and in front of
the lexeme itself if that was the `first`. -/
def Shape.behindText (u : List Char) (first : Bool) (raw : List Char) : Shape → Shape
  | .not wraps => .not (wraps && !first)
  | .dot opensSegment =>
    .dot (if first then raw == ['.'] && u.getLast? == some '/' else opensSegment)
  | .qmark parsed => .qmark (u ++ parsed)
  | .globstar parsed inside => .globstar (u ++ parsed) inside
  | shape => shape

/-- A node `m` of a text, and the node `n` that it is when `u` stands in front of that text. -/
structure Node.MovedBehind (u : List Char) (m n : Node) : Prop where
  kind_eq : n.kind = m.kind
  raw_eq : n.raw = m.raw
  shape_eq : n.shape = m.shape.behindText u (m.span.start.offset == 0) m.raw
  value_eq : n.value = if m.kind = .not ∧ m.span.start.offset = 0 then m.raw else m.value
  start_eq : n.span.start.offset = u.length + m.span.start.offset
  stop_eq : n.span.stop.offset = u.length + m.span.stop.offset

namespace Lexeme

variable {options : Options} {u front : List Char} {l : Lexeme} {ls : List Lexeme}

theorem kind_inPlace_congr (options : Options) (front front' : List Char) (l : Lexeme) :
    (l.inPlace options front).kind = (l.inPlace options front').kind := by
  rw [kind_inPlace, kind_inPlace]

theorem map_kind_inPlaces (options : Options) (front front' : List Char) (ls : List Lexeme) :
    (inPlaces options front ls).map kind = (inPlaces options front' ls).map kind := by
  induction ls generalizing front front' with
  | nil => rfl
  | cons l ls ih =>
    rw [inPlaces_cons, inPlaces_cons, List.map_cons, List.map_cons,
      kind_inPlace_congr options front front', ih]

theorem shape_inPlace_append (hu : u ≠ []) : (l.inPlace options (u ++ front)).shape =
    (l.inPlace options front).shape.behindText u front.isEmpty l.raw := by
  have hempty : (u ++ front).isEmpty = false :=
    List.isEmpty_eq_false_iff.2 (List.append_ne_nil_of_left_ne_nil hu _)
  obtain ⟨shape, value, raw⟩ := l
  cases shape with
  | not =>
    change Shape.not ((u ++ front).isEmpty && _ && _) = Shape.not ((front.isEmpty && _ && _) && _)
    rw [hempty]
    cases front.isEmpty <;> simp
  | dot =>
    change Shape.dot (beginsSegment (u ++ front) && raw == ['.']) = Shape.dot (if _ then _ else _)
    cases front with
    | nil => rw [List.append_nil, beginsSegment_of_ne_nil hu, Bool.and_comm]; rfl
    | cons c front => rw [beginsSegment_append u (List.cons_ne_nil _ _)]; rfl
  | globstar => cases h : options.noGlobstar <;> simp [inPlace, Shape.behindText, h]
  | _ => rfl

theorem value_inPlace_append (hu : u ≠ []) : (l.inPlace options (u ++ front)).value =
    if (l.inPlace options front).kind = .not ∧ front = [] then l.raw
    else (l.inPlace options front).value := by
  obtain ⟨shape, value, raw⟩ := l
  cases shape with
  | not =>
    have hempty : (u ++ front).isEmpty = false :=
      List.isEmpty_eq_false_iff.2 (List.append_ne_nil_of_left_ne_nil hu _)
    change (negation _ (u ++ front).isEmpty raw).value = _
    rw [hempty]
    cases front with
    | nil => rfl
    | cons c front => rfl
  | globstar => cases h : options.noGlobstar <;> simp [inPlace, kind, Shape.kind, h]
  | _ => rfl

end Lexeme

namespace Node.MovedBehind

variable {options : Options} {u : List Char}

theorem of_inPlace (hu : u ≠ []) (l : Lexeme) (front : List Char) {q q' : Position}
    (hq : q.offset = front.length) (hq' : q'.offset = u.length + q.offset) :
    MovedBehind u ((l.inPlace options front).nodeAt q)
      ((l.inPlace options (u ++ front)).nodeAt q') := by
  have hfirst : front = [] ↔ q.offset = 0 := by rw [hq, List.length_eq_zero_iff]
  constructor
  case kind_eq => exact Lexeme.kind_inPlace_congr options _ _ l
  case raw_eq => exact Lexeme.raw_inPlace.trans Lexeme.raw_inPlace.symm
  case shape_eq =>
    have hempty : front.isEmpty = (q.offset == 0) := by
      rw [Bool.eq_iff_iff, List.isEmpty_iff, hfirst, beq_iff_eq]
    refine (Lexeme.shape_inPlace_append hu).trans ?_
    rw [hempty]
    simp only [Lexeme.nodeAt, Lexeme.raw_inPlace]
  case value_eq =>
    refine (Lexeme.value_inPlace_append hu).trans ?_
    simp only [hfirst, Lexeme.nodeAt, Lexeme.raw_inPlace]
    rfl
  case start_eq => exact hq'
  case stop_eq =>
    change (q'.after _).offset = u.length + (q.after _).offset
    rw [Position.offset_after, Position.offset_after, hq', Lexeme.raw_inPlace, Lexeme.raw_inPlace]
    omega

theorem of_inPlaces (hu : u ≠ []) (ls : List Lexeme) (front : List Char) {q q' : Position}
    (hq : q.offset = front.length) (hq' : q'.offset = u.length + q.offset) :
    List.Forall₂ (MovedBehind u) (layOut q (Lexeme.inPlaces options front ls))
      (layOut q' (Lexeme.inPlaces options (u ++ front) ls)) := by
  refine forall₂_layOut_inPlaces (I := fun front q front' q' => front' = u ++ front ∧
    q.offset = front.length ∧ q'.offset = u.length + q.offset) ?_ ?_ ls ⟨rfl, hq, hq'⟩
  · rintro l front q _ q' ⟨rfl, hq, hq'⟩
    exact of_inPlace hu l front hq hq'
  · rintro raw front q _ q' ⟨rfl, hq, hq'⟩
    rw [Position.offset_after, Position.offset_after, List.length_append]
    exact ⟨List.append_assoc _ _ _, by omega, by omega⟩

theorem of_start (options : Options) (hu : u ≠ []) (ls : List Lexeme) :
    List.Forall₂ (MovedBehind u) (layOut Position.start (Lexeme.inPlaces options [] ls))
      (layOut (Position.start.after u) (Lexeme.inPlaces options u ls)) := by
  have hq : (Position.start.after u).offset = u.length + Position.start.offset :=
    (Position.offset_after _ _).trans (Nat.add_comm _ _)
  have h : List.Forall₂ (MovedBehind u) (layOut Position.start (Lexeme.inPlaces options [] ls))
      (layOut (Position.start.after u) (Lexeme.inPlaces options (u ++ []) ls)) :=
    of_inPlaces hu ls [] rfl hq
  rwa [List.append_nil] at h

end Node.MovedBehind

/-- **Behind a boundary a pattern is read as if it began there.** The nodes from the boundary on are
those of the text behind it, moved; and the separators of the pattern are those in front of the
boundary and those of the text behind it. -/
theorem tokenize_append (options : Options) (u v : List Char) (hu : u ≠ [])
    (hb : IsBoundary options (u ++ v) u.length) :
    ∃ whole part, tokenize .unchanged options (u ++ v) = .ok whole ∧
      tokenize .unchanged options v = .ok part ∧
      List.Forall₂ (Node.MovedBehind u) part.nodes (whole.nodesFrom u.length) ∧
      whole.state.separatorCount =
        ((whole.nodesBefore u.length).map Node.kind).count .slash + part.state.separatorCount := by
  obtain ⟨before, later, rfl, h, hlater⟩ := exists_segments_of_isBoundary hb
  refine ⟨_, _, tokenize_of_segments h options, tokenize_of_segments hlater options, ?_, ?_⟩
  · rw [h.nodes_cut.2]
    exact Node.MovedBehind.of_start options hu later
  · rw [h.nodes_cut.1, Ast.state_ofSegments, Ast.state_ofSegments, Ast.kinds_ofSegments,
      Ast.kinds_ofSegments, Lexeme.inPlaces_append, List.map_append, List.count_append,
      Lexeme.map_kind_inPlaces options _ [] later, map_kind_layOut]

/-- The start of a text behind which a run of `!` no longer wraps and a dot opens a segment. -/
theorem tokenize_append_negated :
    "!a/".toList ≠ [] ∧ IsBoundary {} "!a/!?.**/x".toList 3 ∧
    ∃ whole part, tokenize .unchanged {} ("!a/".toList ++ "!?.**/x".toList) = .ok whole ∧
      tokenize .unchanged {} "!?.**/x".toList = .ok part ∧
      List.Forall₂ (Node.MovedBehind "!a/".toList) part.nodes (whole.nodesFrom 3) ∧
      whole.state.separatorCount =
        ((whole.nodesBefore 3).map Node.kind).count .slash + part.state.separatorCount :=
  ⟨by decide, by decide +kernel,
    tokenize_append {} "!a/".toList "!?.**/x".toList (by decide) (by decide +kernel)⟩

end GlobPattern
