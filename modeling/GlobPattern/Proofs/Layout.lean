import GlobPattern.Ast
import GlobPattern.Cursor
import Mathlib.Data.List.Chain
import Mathlib.Data.List.Forall2

/-!
# Nodes laid out in a text

A lexeme put at a position is a node. Lexemes put one behind the other from the beginning of a
text tile what they cover; nodes with gaps between them are at least in order and apart.

* `Lexeme.nodeAt`, `layOut`, `coveredText`;
* `Node.StandsIn`: the node's raw text is what its source holds between the ends of its span;
* `Placed`: nodes that stand in a source, in order and apart, up to a bound; `Placed.snoc`;
* `Tiling`: nodes that follow each other from one end of a source to the other;
* **`tiling_layOut`**: lexemes laid out from the start tile the text that they cover.
-/

namespace GlobPattern

/-- The node of a lexeme at a position. -/
def Lexeme.nodeAt (l : Lexeme) (p : Position) : Node := ⟨l, ⟨p, p.after l.raw⟩⟩

/-- The nodes of lexemes that stand one behind the other, from a position on. -/
def layOut (p : Position) : List Lexeme → List Node
  | [] => []
  | l :: ls => l.nodeAt p :: layOut (p.after l.raw) ls

/-- The text that lexemes cover. -/
def Lexeme.covered (ls : List Lexeme) : List Char := ls.flatMap (·.raw)

/-- The text that nodes cover. -/
def coveredText (nodes : List Node) : List Char := nodes.flatMap (·.raw)

@[simp] theorem Lexeme.covered_nil : Lexeme.covered [] = [] := rfl

@[simp] theorem Lexeme.covered_cons (l : Lexeme) (ls : List Lexeme) :
    Lexeme.covered (l :: ls) = l.raw ++ Lexeme.covered ls := List.flatMap_cons

@[simp] theorem Lexeme.covered_append (ls ms : List Lexeme) :
    Lexeme.covered (ls ++ ms) = Lexeme.covered ls ++ Lexeme.covered ms := List.flatMap_append

@[simp] theorem coveredText_append (ns ms : List Node) :
    coveredText (ns ++ ms) = coveredText ns ++ coveredText ms := List.flatMap_append

@[simp] theorem coveredText_layOut (p : Position) (ls : List Lexeme) :
    coveredText (layOut p ls) = Lexeme.covered ls := by
  induction ls generalizing p with
  | nil => rfl
  | cons l ls ih =>
    change l.raw ++ coveredText (layOut (p.after l.raw) ls) = _
    rw [ih, Lexeme.covered_cons]

theorem layOut_append (p : Position) (ls ms : List Lexeme) :
    layOut p (ls ++ ms) = layOut p ls ++ layOut (p.after (Lexeme.covered ls)) ms := by
  induction ls generalizing p with
  | nil => rfl
  | cons l ls ih =>
    rw [List.cons_append, layOut, layOut, ih, Lexeme.covered_cons, Position.after_append,
      List.cons_append]

theorem map_toLexeme_layOut (p : Position) (ls : List Lexeme) :
    (layOut p ls).map Node.toLexeme = ls := by
  induction ls generalizing p with
  | nil => rfl
  | cons l ls ih => rw [layOut, List.map_cons, ih]; rfl

theorem map_kind_layOut (p : Position) (ls : List Lexeme) :
    (layOut p ls).map Node.kind = ls.map Lexeme.kind := by
  conv_rhs => rw [← map_toLexeme_layOut p ls, List.map_map]
  rfl

theorem map_eq_of_forall₂ {α : Type} {R : Node → Node → Prop} {ms ns : List Node}
    (h : List.Forall₂ R ms ns) {f : Node → α} (hf : ∀ m n, R m n → f n = f m) :
    ns.map f = ms.map f := by
  induction h with
  | nil => rfl
  | cons hm _ ih => rw [List.map_cons, List.map_cons, hf _ _ hm, ih]

theorem filterMap_eq_of_forall₂ {α : Type} {R : Node → Node → Prop} {ms ns : List Node}
    (h : List.Forall₂ R ms ns) {f : Node → Option α} (hf : ∀ m n, R m n → f n = f m) :
    ns.filterMap f = ms.filterMap f := by
  have hid (l : List Node) : l.filterMap f = (l.map f).filterMap id := by
    rw [List.filterMap_map, Function.id_comp]
  rw [hid, hid, map_eq_of_forall₂ h hf]

/-! ## Nodes in their source -/

/-- The raw text of a node is not empty and stands in the source between the ends of its span,
which are the positions of those places. -/
structure Node.StandsIn (source : List Char) (n : Node) : Prop where
  nonempty : n.raw ≠ []
  raw_eq : n.raw = Text.slice source n.span.start.offset n.span.stop.offset
  start_eq : n.span.start = Position.start.after (source.take n.span.start.offset)
  stop_eq : n.span.stop = n.span.start.after n.raw
  stop_le : n.span.stop.offset ≤ source.length

namespace Node.StandsIn

variable {source : List Char} {n : Node}

theorem stop_offset (h : n.StandsIn source) :
    n.span.stop.offset = n.span.start.offset + n.raw.length := by
  rw [h.stop_eq, Position.offset_after]

theorem start_lt_stop (h : n.StandsIn source) : n.span.start.offset < n.span.stop.offset := by
  have := List.length_pos_iff.2 h.nonempty
  rw [h.stop_offset]
  omega

end Node.StandsIn

theorem Lexeme.standsIn_nodeAt {l : Lexeme} (hl : l.raw ≠ []) (before behind : List Char) :
    (l.nodeAt (Position.start.after before)).StandsIn (before ++ l.raw ++ behind) where
  nonempty := hl
  raw_eq := by
    have h := Text.slice_append before l.raw behind
    simpa [nodeAt, Position.start] using h.symm
  start_eq := by simp [nodeAt, Position.start, List.append_assoc]
  stop_eq := rfl
  stop_le := by simp [nodeAt, Position.start]

theorem Node.StandsIn.take_drop {source : List Char} {n : Node} (h : n.StandsIn source) :
    (source.drop n.span.start.offset).take n.raw.length = n.raw := by
  have hs := h.start_lt_stop
  have hp : Text.place source.length n.span.start.offset = n.span.start.offset :=
    Text.place_of_le (by have := h.stop_le; omega)
  have hq : Text.place source.length n.span.stop.offset = n.span.stop.offset :=
    Text.place_of_le h.stop_le
  have hr := h.raw_eq
  rw [Text.slice, hp, hq, List.drop_take] at hr
  rw [show n.raw.length = n.span.stop.offset - n.span.start.offset by rw [h.stop_offset]; omega]
  exact hr.symm

theorem Node.StandsIn.consume_eq {source : List Char} {n : Node} (h : n.StandsIn source) :
    ((Cursor.start source).advance n.span.start.offset).consume n.raw.length =
      .ok (n.raw, (Cursor.start source).advance n.span.stop.offset) := by
  have hl : n.raw.length ≤
      ((Cursor.start source).advance n.span.start.offset).remaining.length := by
    have h1 := h.stop_le
    have h2 := h.stop_offset
    rw [Cursor.remaining_advance, Cursor.remaining_start, List.length_drop]
    omega
  rw [Cursor.consume_natCast hl, Cursor.remaining_advance, Cursor.remaining_start, h.take_drop,
    Cursor.advance_advance, ← h.stop_offset]

/-! ## Nodes with gaps between them -/

/-- Nodes that stand in a source in order, none reaching into the next or behind `bound`. -/
structure Placed (source : List Char) (bound : Nat) (nodes : List Node) : Prop where
  stands : ∀ n ∈ nodes, n.StandsIn source
  within : ∀ n ∈ nodes, n.span.stop.offset ≤ bound
  apart : nodes.Pairwise fun m n => m.span.stop.offset ≤ n.span.start.offset

namespace Placed

variable {source : List Char} {bound bound' : Nat} {nodes : List Node}

theorem nil : Placed source bound [] := ⟨by simp, by simp, .nil⟩

theorem mono (h : Placed source bound nodes) (hb : bound ≤ bound') :
    Placed source bound' nodes :=
  ⟨h.stands, fun n hn => (h.within n hn).trans hb, h.apart⟩

theorem snoc (h : Placed source bound nodes) {n : Node} (hn : n.StandsIn source)
    (hs : bound ≤ n.span.start.offset) (he : n.span.stop.offset ≤ bound') :
    Placed source bound' (nodes ++ [n]) := by
  have hb : bound ≤ bound' := by have := hn.start_lt_stop; omega
  refine ⟨?_, ?_, ?_⟩
  · intro m hm
    rcases List.mem_append.1 hm with hm | hm
    · exact h.stands m hm
    · rw [List.mem_singleton.1 hm]; exact hn
  · intro m hm
    rcases List.mem_append.1 hm with hm | hm
    · exact (h.within m hm).trans hb
    · rw [List.mem_singleton.1 hm]; exact he
  · refine List.pairwise_append.2 ⟨h.apart, List.pairwise_singleton _ _, ?_⟩
    intro m hm k hk
    rw [List.mem_singleton.1 hk]
    exact (h.within m hm).trans hs

end Placed

/-! ## Nodes without gaps -/

/-- Nodes that follow each other from the beginning of the source to its end. -/
structure Tiling (source : List Char) (nodes : List Node) : Prop where
  covers : coveredText nodes = source
  stands : ∀ n ∈ nodes, n.StandsIn source
  first : ∀ n ∈ nodes.head?, n.span.start = Position.start
  next : nodes.IsChain fun m n => n.span.start = m.span.stop
  last : ∀ n ∈ nodes.getLast?, n.span.stop = Position.start.after source

theorem head?_layOut (p : Position) (ls : List Lexeme) :
    ∀ n ∈ (layOut p ls).head?, n.span.start = p := by
  cases ls with
  | nil => simp [layOut]
  | cons l ls => simp [layOut, Lexeme.nodeAt]

theorem isChain_layOut (p : Position) (ls : List Lexeme) :
    (layOut p ls).IsChain fun m n => n.span.start = m.span.stop := by
  induction ls generalizing p with
  | nil => exact .nil
  | cons l ls ih => exact (ih _).cons fun n hn => head?_layOut _ ls n hn

theorem getLast?_layOut (p : Position) (ls : List Lexeme) :
    ∀ n ∈ (layOut p ls).getLast?, n.span.stop = p.after (Lexeme.covered ls) := by
  induction ls generalizing p with
  | nil => simp [layOut]
  | cons l ls ih =>
    cases ls with
    | nil => simp [layOut, Lexeme.nodeAt]
    | cons m ls =>
      intro n hn
      rw [Lexeme.covered_cons, Position.after_append]
      exact ih _ n (by simpa [layOut] using hn)

theorem standsIn_of_mem_layOut {ls : List Lexeme} (hl : ∀ l ∈ ls, l.raw ≠ [])
    (before behind : List Char) {n : Node} (hn : n ∈ layOut (Position.start.after before) ls) :
    n.StandsIn (before ++ Lexeme.covered ls ++ behind) := by
  induction ls generalizing before with
  | nil => simp [layOut] at hn
  | cons l ls ih =>
    rw [layOut, ← Position.after_append] at hn
    rw [Lexeme.covered_cons]
    rcases List.mem_cons.1 hn with rfl | hn
    · have h := Lexeme.standsIn_nodeAt (hl l List.mem_cons_self) before
        (Lexeme.covered ls ++ behind)
      simpa only [List.append_assoc] using h
    · have h := ih (fun m hm => hl m (List.mem_cons_of_mem _ hm)) (before ++ l.raw) hn
      simpa only [List.append_assoc] using h

/-- **Lexemes laid out from the start tile the text that they cover.** -/
theorem tiling_layOut {ls : List Lexeme} (hl : ∀ l ∈ ls, l.raw ≠ []) :
    Tiling (Lexeme.covered ls) (layOut Position.start ls) where
  covers := coveredText_layOut _ _
  stands n hn := by simpa using standsIn_of_mem_layOut hl [] [] hn
  first := head?_layOut _ _
  next := isChain_layOut _ _
  last := getLast?_layOut _ _

end GlobPattern
