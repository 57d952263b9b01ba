import GlobPattern.Diagnostic
import GlobPattern.Proofs.Boundary

/-!
# The ranges of diagnostics

A diagnostic says where it is by columns, which start anew behind every line feed. A pattern without
line feeds is a single line, and there the columns of a span are its offsets. So the diagnostics of
such a pattern are on its nodes, in order and apart. They are told if all their places can be.

* `Diagnostic.onNode`, `Diagnostic.onNodes`: findings on the characters of nodes, by their offsets;
* `Node.StandsIn.column_start`, `Node.StandsIn.column_stop`: columns within a line;
* `Segments.standsIn_of_mem`, `Segments.pairwise_nodes`: nodes stand in their pattern, in order and
  apart;
* **`Diagnostic.check_of_segments`**: the diagnostics of a pattern without line feeds;
* `Diagnostic.Told`, `Diagnostic.told_tell`: how it ends to tell of diagnostics.
-/

namespace GlobPattern

variable {options : Options} {pattern : List Char} {ls : List Lexeme} {n : Node}

/-! ## Columns within a line -/

namespace Node.StandsIn

theorem mem_source (h : n.StandsIn pattern) {c : Char} (hc : c ∈ n.raw) : c ∈ pattern := by
  rw [← h.take_drop] at hc
  exact List.mem_of_mem_drop (List.mem_of_mem_take hc)

theorem column_start (h : n.StandsIn pattern) (hp : '\n' ∉ pattern) :
    n.span.start.column = n.span.start.offset + 1 := by
  have hle : n.span.start.offset ≤ pattern.length := h.start_lt_stop.le.trans h.stop_le
  have hcolumn := congrArg Position.column h.start_eq
  rw [Position.column_after fun hm => hp (List.mem_of_mem_take hm), List.length_take,
    Nat.min_eq_left hle] at hcolumn
  rw [hcolumn, Nat.add_comm]
  rfl

theorem column_stop (h : n.StandsIn pattern) (hp : '\n' ∉ pattern) :
    n.span.stop.column = n.span.stop.offset + 1 := by
  have hcolumn := congrArg Position.column h.stop_eq
  rw [Position.column_after fun hm => hp (h.mem_source hm), h.column_start hp] at hcolumn
  rw [hcolumn, h.stop_offset]
  omega

end Node.StandsIn

/-- A finding on the characters of a node. -/
def Diagnostic.onNode (line : Int) (n : Node) (finding : Finding) : Diagnostic :=
  ⟨line, n.span.start.offset, n.span.stop.offset, finding⟩

theorem Diagnostic.ofNode?_eq (h : n.StandsIn pattern) (hp : '\n' ∉ pattern) (line : Int) :
    ofNode? line n = n.finding?.map (onNode line n) := by
  have hspan : ofSpan line n.span = onNode line n := by
    funext finding
    rw [ofSpan, onNode, h.column_start hp, h.column_stop hp]
    rfl
  rw [ofNode?, hspan]

/-- What there is to be said about some nodes, each on the characters of its node. -/
def Diagnostic.onNodes (line : Int) (nodes : List Node) : List Diagnostic :=
  nodes.filterMap fun n => n.finding?.map (onNode line n)

theorem Diagnostic.mem_onNodes {line : Int} {nodes : List Node} {d : Diagnostic} :
    d ∈ onNodes line nodes ↔ ∃ n ∈ nodes, ∃ f, n.finding? = some f ∧ onNode line n f = d := by
  simp only [onNodes, List.mem_filterMap, Option.map_eq_some_iff]

theorem Diagnostic.pairwise_onNodes {nodes : List Node}
    (h : nodes.Pairwise fun m n => m.span.stop.offset ≤ n.span.start.offset) (line : Int) :
    (onNodes line nodes).Pairwise fun d e => d.stop ≤ e.start := by
  refine List.Pairwise.filterMap _ ?_ h
  intro m n hmn d hd e he
  obtain ⟨f, -, rfl⟩ := Option.map_eq_some_iff.1 hd
  obtain ⟨g, -, rfl⟩ := Option.map_eq_some_iff.1 he
  exact hmn

/-! ## The nodes of a pattern -/

theorem Segments.standsIn_of_mem (h : Segments pattern ls)
    (hn : n ∈ (Ast.ofSegments options pattern ls).nodes) : n.StandsIn pattern := by
  have htiling := tiling_layOut (raw_ne_nil_of_mem_inPlaces options [] h.raw_ne_nil)
  rw [Lexeme.covered_inPlaces, h.covered_eq] at htiling
  exact htiling.stands n hn

theorem Segments.pairwise_nodes (h : Segments pattern ls) :
    (Ast.ofSegments options pattern ls).nodes.Pairwise
      fun m n => m.span.stop.offset ≤ n.span.start.offset :=
  pairwise_layOut (raw_ne_nil_of_mem_inPlaces options [] h.raw_ne_nil)

theorem Segments.apart_of_ne (h : Segments pattern ls) {m : Node}
    (hm : m ∈ (Ast.ofSegments options pattern ls).nodes)
    (hn : n ∈ (Ast.ofSegments options pattern ls).nodes) (hne : m ≠ n) :
    m.span.stop.offset ≤ n.span.start.offset ∨ n.span.stop.offset ≤ m.span.start.offset := by
  have hapart : (Ast.ofSegments options pattern ls).nodes.Pairwise fun m n =>
      m.span.stop.offset ≤ n.span.start.offset ∨ n.span.stop.offset ≤ m.span.start.offset :=
    h.pairwise_nodes.imp .inl
  have hsymm : Std.Symm fun m n : Node =>
      m.span.stop.offset ≤ n.span.start.offset ∨ n.span.stop.offset ≤ m.span.start.offset :=
    ⟨fun _ _ => Or.symm⟩
  exact hapart.forall hm hn hne

/-- **The diagnostics of a pattern without line feeds** are what there is to be said about its
nodes, each on the characters of its node. -/
theorem Diagnostic.check_of_segments {ε : Type} (refuse : Place → Option ε)
    (h : Segments pattern ls) (hp : '\n' ∉ pattern) (line : Int) :
    check refuse .unchanged pattern line =
      tell refuse (onNodes line (Ast.ofSegments {} pattern ls).nodes) := by
  rw [check, tokenize_of_segments h {}]
  exact congrArg (tell refuse) (List.filterMap_congr fun n hn =>
    ofNode?_eq (h.standsIn_of_mem hn) hp line)

/-! ## Places that cannot be told -/

/-- The places with numbers from zero up to the bound can be told, and no others. -/
def Place.AdmitsUpTo {ε : Type} (refuse : Place → Option ε) (bound : Nat) : Prop :=
  ∀ p, refuse p = none ↔ 0 ≤ p.line ∧ p.line ≤ bound ∧ p.character ≤ bound

theorem Place.outOfRange?_admitsUpTo (bound : Nat) : AdmitsUpTo (outOfRange? bound) bound := by
  intro p
  unfold outOfRange?
  split
  · next h => exact iff_of_false nofun (by omega)
  · split
    · next h => exact iff_of_false nofun (by omega)
    · exact iff_of_true rfl (by omega)

namespace Diagnostic

variable {ε : Type} {refuse : Place → Option ε} {found : List Diagnostic}

/-- How it ends to tell of diagnostics: with all of them, or with the reason why one of the places
that they name is refused, where all places before it can be told. -/
inductive Told (refuse : Place → Option ε) (found : List Diagnostic) :
    Except (CheckError ε) (List Diagnostic) → Prop
  | all (admitted : ∀ p ∈ found.flatMap ends, refuse p = none) : Told refuse found (.ok found)
  | untold {before behind : List Place} {p : Place} {e : ε}
      (split : found.flatMap ends = before ++ p :: behind)
      (admitted : ∀ q ∈ before, refuse q = none) (refused : refuse p = some e) :
      Told refuse found (.error (.untold e))

theorem told_tell (refuse : Place → Option ε) (found : List Diagnostic) :
    Told refuse found (tell refuse found) := by
  unfold tell
  cases h : (found.flatMap ends).findSome? refuse with
  | none => exact .all (List.findSome?_eq_none_iff.1 h)
  | some e =>
    obtain ⟨before, p, behind, hsplit, hrefused, hadmitted⟩ := List.findSome?_eq_some_iff.1 h
    exact .untold hsplit hadmitted hrefused

theorem Told.eq_ok_iff {result : Except (CheckError ε) (List Diagnostic)}
    (h : Told refuse found result) :
    result = .ok found ↔ ∀ p ∈ found.flatMap ends, refuse p = none := by
  cases h with
  | all hadmitted => exact iff_of_true rfl hadmitted
  | @untold before behind p e hsplit _ hrefused =>
    refine iff_of_false nofun fun hall => ?_
    have hnone := hall p (by rw [hsplit]; simp)
    rw [hrefused] at hnone
    cases hnone

theorem tell_append (refuse : Place → Option ε) (found later : List Diagnostic) :
    tell refuse (found ++ later) =
      match tell refuse found with
      | .error e => .error e
      | .ok found => (tell refuse later).map (found ++ ·) := by
  unfold tell
  rw [List.flatMap_append, List.findSome?_append]
  cases (found.flatMap ends).findSome? refuse with
  | some e => rfl
  | none => cases (later.flatMap ends).findSome? refuse <;> rfl

end Diagnostic

end GlobPattern
