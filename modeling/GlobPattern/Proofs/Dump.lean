import GlobPattern.Dump
import GlobPattern.Proofs.Text.OneLine

/-!
# Rows of dumps

Every row of a dump is one line of it: what comes from a pattern stands there as a quoted literal,
and what is around the literals is fixed or a number.

* `Shape.oneLine_remark`, `Node.oneLine_row`, `ScanState.oneLine_row`, `Ast.oneLine_rows`;
* `Ast.lines_dump`, **`Ast.dump_by_lines`**: the lines of a dump.
-/

namespace GlobPattern

open Text

/-! ## Rows -/

theorem Kind.oneLine_title (k : Kind) : OneLine k.title.toList := by
  cases k <;> decide

theorem Enclosure.oneLine_names (e : Enclosure) : OneLine (",".intercalate e.names).toList := by
  rw [String.toList_intercalate]
  rcases e with ⟨_ | _, _ | _⟩ <;> decide

theorem Shape.oneLine_remark (sh : Shape) : OneLine sh.remark := by
  unfold remark
  cases sh with
  | dot opensSegment => cases opensSegment <;> decide
  | globstar parsed inside =>
    dsimp only
    split
    · exact oneLine_nil
    · exact OneLine.append (by decide) inside.oneLine_names
  | bracket negated inner close =>
    have hsign := OneLine.append (by decide : OneLine " negated=".toList)
      (oneLine_quoted (negationSign negated))
    have hinner := (hsign.append (by decide : OneLine " inner=".toList)).append
      (oneLine_quoted inner)
    have hclose := (hinner.append (by decide : OneLine " close=".toList)).append
      (oneLine_quoted close)
    refine hclose.append ?_
    split <;> decide
  | qmark parsed =>
    dsimp only
    split
    · exact oneLine_nil
    · exact OneLine.append (by decide) (oneLine_quoted _)
  | _ => exact oneLine_nil

theorem Position.oneLine_label (p : Position) : OneLine p.label :=
  (oneLine_toString _).append ((oneLine_toString _).cons (by decide))

theorem Node.oneLine_row (n : Node) : OneLine n.row := by
  have htitle : OneLine ("  ".toList ++ n.kind.title.toList) :=
    OneLine.append (by decide) n.kind.oneLine_title
  have hvalue := htitle.append ((oneLine_quoted n.value).cons (by decide : isLineBreak '(' = false))
  have hremark := hvalue.append (n.shape.oneLine_remark.cons (by decide : isLineBreak ')' = false))
  have hstart := hremark.append
    (n.span.start.oneLine_label.cons (by decide : isLineBreak ' ' = false))
  exact hstart.append (n.span.stop.oneLine_label.cons (by decide))

theorem ScanState.oneLine_row (s : ScanState) : OneLine s.row := by
  have hname : ∀ f ∈ s.flags, OneLine f.1.toList := by
    rw [flags]
    simp only [List.forall_mem_cons]
    decide
  have hcount : OneLine ("  state slashes=".toList ++ (toString s.separatorCount).toList) :=
    OneLine.append (by decide) (oneLine_toString _)
  refine hcount.append (oneLine_flatMap fun f hf => ?_)
  dsimp only
  split
  · exact (hname f hf).cons (by decide)
  · exact oneLine_nil

namespace Ast

theorem oneLine_rows (a : Ast) : ∀ r ∈ a.rows, OneLine r := by
  rw [rows]
  simp only [List.forall_mem_append, List.forall_mem_cons, List.forall_mem_map]
  refine ⟨⟨⟨⟨?_, fun n _ => n.oneLine_row⟩, ?_⟩, ?_⟩, a.state.oneLine_row, List.forall_mem_nil _⟩
  · exact OneLine.append (by decide) (oneLine_quoted _)
  · intro r hr
    obtain ⟨t, -, rfl⟩ := Option.map_eq_some_iff.1 (Option.mem_toList.1 hr)
    exact OneLine.append (by decide) (oneLine_quoted _)
  · split
    · exact List.forall_mem_nil _
    · exact List.forall_mem_singleton.2 (OneLine.append (by decide) (oneLine_quoted _))

theorem length_rows (a : Ast) : a.rows.length =
    2 + a.nodes.length + (if a.opening.isSome then 1 else 0) +
      (if a.closing = "" then 0 else 1) := by
  have hopening : ∀ f : String → List Char,
      (a.opening.map f).toList.length = if a.opening.isSome then 1 else 0 := by
    cases a.opening <;> simp
  have hclosing : ∀ r : List Char,
      (if a.closing = "" then [] else [r]).length = if a.closing = "" then 0 else 1 := by
    intro r
    split <;> rfl
  rw [rows, List.length_append, List.length_append, List.length_append, List.length_cons,
    List.length_map, hopening, hclosing, List.length_singleton]
  omega

theorem getElem?_rows (a : Ast) {i : Nat} (h : i < a.nodes.length) :
    a.rows[i + 1]? = some a.nodes[i].row := by
  rw [rows, List.append_assoc, List.append_assoc, List.cons_append, List.getElem?_cons_succ,
    List.getElem?_append_left (by simpa using h), List.getElem?_map, List.getElem?_eq_getElem h]
  rfl

theorem lines_dump (a : Ast) : lines a.dump.toList = a.rows.map (⟨·, ['\n']⟩) := by
  rw [dump, String.toList_ofList]
  exact lines_flatMap_feed a.oneLine_rows

/-- **Nothing in a pattern adds, removes or merges lines of its dump**: a dump ends in a line feed
and has a line for the pattern and one for the state, between them one for each node, in order,
and one for each half of the wrap that is there. -/
theorem dump_by_lines (a : Ast) :
    a.dump.toList.getLast? = some '\n' ∧
    (lines a.dump.toList).length =
      2 + a.nodes.length + (if a.opening.isSome then 1 else 0) + (if a.closing = "" then 0 else 1) ∧
    ∀ (i : Nat) (h : i < a.nodes.length),
      (lines a.dump.toList)[i + 1]? = some ⟨a.nodes[i].row, ['\n']⟩ := by
  rw [lines_dump]
  refine ⟨?_, by rw [List.length_map, length_rows], fun i h => ?_⟩
  · rw [dump, String.toList_ofList, rows, List.flatMap_append, List.flatMap_singleton,
      ← List.append_assoc]
    exact List.getLast?_concat
  · rw [List.getElem?_map, a.getElem?_rows h]
    rfl

end Ast

end GlobPattern
