import GlobPattern.Proofs.Boundary
import GlobPattern.Proofs.Lexeme.Lookahead
import GlobPattern.Proofs.Summary

/-!
# Globstars in a row

A globstar takes the `/**` that follow it as long as a further slash stands behind them, so `**/`
says the same however often it is repeated. What stands in front is read as before although quotes
and brackets look arbitrarily far ahead, since the repetitions bring no quote and no closing
bracket. What stands behind is read as before because the last thing in front of it is the same.

* `Lexeme.ahead?_congr`, **`Segments.of_congr`**: segments that end in front of a `**/` do not
  depend on what follows it, but for its quotes and closing brackets;
* `Segments.widen`: the segment of a globstar that is repeated;
* `Position.shift`, `Shape.mapParsed`, `Node.Widened`: a node when the globstar is repeated;
* **`tokenize_repeat_globstar`**: repeating a globstar preserves what a pattern means.
-/

namespace GlobPattern

open Lexeme (SameClosers)

variable {v v' w : List Char}

/-! ## What stands in front -/

theorem Scan.recognise?_congr (hc : SameClosers v v') (hw : w ≠ []) {kind : Kind}
    (h : ∀ l ∈ (Scan.start (w ++ '*' :: '*' :: '/' :: v) {}).recognise? kind,
      l.raw.length ≤ w.length) :
    (Scan.start (w ++ '*' :: '*' :: '/' :: v') {}).recognise? kind =
      (Scan.start (w ++ '*' :: '*' :: '/' :: v) {}).recognise? kind := by
  cases kind with
  | leadingDot => rfl
  | escape => exact Lexeme.escape?_congr
  | quoted => exact Lexeme.quoted?_congr hc hw h
  | not => exact Lexeme.not?_congr
  | dot => exact Lexeme.dot?_congr
  | plus => exact Lexeme.plus?_congr
  | qmark => exact Lexeme.qmark?_congr
  | globstar => exact Lexeme.globstar?_congr hw h
  | star => exact Lexeme.star?_congr
  | slash => exact Lexeme.slash?_congr
  | backslash => exact Lexeme.backslash?_congr
  | square => exact Lexeme.square?_congr
  | bracket => exact Lexeme.bracket?_congr (hc ']' (by decide)) hw h
  | text => exact Lexeme.text?_congr

theorem Lexeme.ahead?_congr (hc : SameClosers v v') {l : Lexeme}
    (h : ahead? (w ++ '*' :: '*' :: '/' :: v) = some l) (hl : l.raw.length ≤ w.length) :
    ahead? (w ++ '*' :: '*' :: '/' :: v') = some l := by
  have hw : w ≠ [] := by
    have := (covers_of_ahead? h).length_pos
    exact List.length_pos_iff.1 (by omega)
  obtain ⟨before, kind, after, hall, hk, hnone⟩ := List.findSome?_eq_some_iff.1 h
  refine List.findSome?_eq_some_iff.2 ⟨before, kind, after, hall, ?_, ?_⟩
  · rw [Scan.recognise?_congr hc hw]
    · exact hk
    · rw [hk]
      rintro m ⟨⟩
      exact hl
  · intro k hmem
    have hk := hnone k hmem
    rw [Scan.recognise?_congr hc hw]
    · exact hk
    · rw [hk]
      rintro m ⟨⟩

/-- **Segments that end in front of a `**/` stay when what follows it is exchanged**, if that keeps
the quotes and the closing brackets. -/
theorem Segments.of_congr (hc : SameClosers v v') {ls ms ms' : List Lexeme}
    (h : Segments (Lexeme.covered ls ++ '*' :: '*' :: '/' :: v) (ls ++ ms))
    (h' : Segments ('*' :: '*' :: '/' :: v') ms') :
    Segments (Lexeme.covered ls ++ '*' :: '*' :: '/' :: v') (ls ++ ms') := by
  induction ls with
  | nil => exact h'
  | cons l ls ih =>
    rw [List.cons_append, cons_iff] at h ⊢
    obtain ⟨hl, rest⟩ := h
    have hlen : l.raw.length ≤ (Lexeme.covered (l :: ls)).length := by
      rw [Lexeme.covered_cons, List.length_append]
      omega
    refine ⟨Lexeme.ahead?_congr hc hl hlen, ?_⟩
    rw [Lexeme.covered_cons, List.append_assoc, List.drop_left] at rest ⊢
    exact ih rest

/-! ## The globstar -/

/-- Repetitions of `**/`. -/
def globstars (n : Nat) : List Char := (List.replicate n ['*', '*', '/']).flatten

theorem globstars_succ (n : Nat) : globstars (n + 1) = '*' :: '*' :: '/' :: globstars n := rfl

theorem globstars_append (n : Nat) (v : List Char) :
    globstars n ++ '*' :: '*' :: '/' :: v = '*' :: '*' :: '/' :: (globstars n ++ v) := by
  induction n with
  | zero => rfl
  | succ n ih => rw [globstars_succ, List.cons_append, List.cons_append, List.cons_append, ih]; rfl

theorem eq_of_mem_globstars {c : Char} {n : Nat} (h : c ∈ globstars n) : c = '*' ∨ c = '/' := by
  obtain ⟨s, hs, hc⟩ := List.mem_flatten.1 h
  rw [List.eq_of_mem_replicate hs] at hc
  simpa using hc

theorem sameClosers_globstars (n : Nat) (v : List Char) : SameClosers v (globstars n ++ v) := by
  intro c hc
  have hother : ¬ (c = '*' ∨ c = '/') := by
    simp only [List.mem_cons, List.not_mem_nil, or_false] at hc
    rcases hc with rfl | rfl | rfl <;> decide
  rw [List.mem_append, or_iff_right fun h => hother (eq_of_mem_globstars h)]

theorem Lexeme.repeats_globstars (n : Nat) (v : List Char) :
    '*' :: '*' :: repeats ('/' :: (globstars n ++ v)) =
      globstars n ++ '*' :: '*' :: repeats ('/' :: v) := by
  induction n with
  | zero => rfl
  | succ n ih =>
    rw [globstars_succ, List.cons_append, List.cons_append, List.cons_append, List.cons_append,
      List.cons_append, List.cons_append, ← ih]
    simp [repeats]

theorem Segments.widen {l : Lexeme} {ms : List Lexeme}
    (h : Segments ('*' :: '*' :: '/' :: v) (l :: ms)) (n : Nat) :
    Segments ('*' :: '*' :: '/' :: (globstars n ++ v))
      ({ l with raw := globstars n ++ l.raw } :: ms) := by
  rw [cons_iff, Lexeme.ahead?_globstar (t := '/' :: v) rfl, Option.some.injEq] at h
  obtain ⟨rfl, rest⟩ := h
  rw [cons_iff, Lexeme.ahead?_globstar (t := '/' :: (globstars n ++ v)) rfl,
    Lexeme.repeats_globstars]
  refine ⟨rfl, ?_⟩
  rw [← globstars_append, List.length_append, List.drop_length_add_append]
  exact rest

/-! ## Positions and nodes -/

/-- Where a place is when `k` more characters stand in front of it in a given line. -/
def Position.shift (k line : Nat) (p : Position) : Position :=
  ⟨p.line, if p.line = line then p.column + k else p.column, p.offset + k⟩

/-- The text that a shape quotes, changed. -/
def Shape.mapParsed (f : List Char → List Char) : Shape → Shape
  | .qmark parsed => .qmark (f parsed)
  | .globstar parsed inside => .globstar (f parsed) inside
  | shape => shape

/-- Text put in at a place of another. -/
def insertAt (k : Nat) (folds parsed : List Char) : List Char :=
  parsed.take k ++ folds ++ parsed.drop k

/-- A node of a pattern, and the same node when the globstar at `place` is repeated. Nodes in front
of it are the same. The globstar itself takes the repetitions into its raw text; `**/` in front of
its stars makes the same text as `/**` behind them. Nodes behind it have moved, and where they quote
the text in front of them that has the repetitions too. -/
inductive Node.Widened (place : Position) (folds : List Char) : Node → Node → Prop
  | before {m : Node} (h : m.span.stop.offset ≤ place.offset) : Widened place folds m m
  | globstar {m : Node} (h : m.span.start = place) : Widened place folds m
      { m with
        raw := folds ++ m.raw
        span := ⟨place, m.span.stop.shift folds.length place.line⟩ }
  | later {m : Node} (h : place.offset < m.span.start.offset) : Widened place folds m
      { m with
        shape := m.shape.mapParsed (insertAt place.offset folds)
        span := ⟨m.span.start.shift folds.length place.line,
          m.span.stop.shift folds.length place.line⟩ }

namespace Position

theorem next_shift {k line : Nat} {p : Position} (h : line ≤ p.line) (c : Char) :
    (p.shift k line).next c = (p.next c).shift k line := by
  by_cases hc : c = '\n'
  · have hne : p.line + 1 ≠ line := by omega
    simp only [next, if_pos hc, shift, if_neg hne, mk.injEq, true_and]
    omega
  · simp only [next, if_neg hc, shift, mk.injEq, true_and]
    split <;> omega

theorem line_le_next (p : Position) (c : Char) : p.line ≤ (p.next c).line := by
  unfold next
  split
  · exact Nat.le_succ _
  · exact Nat.le_refl _

/-- What is put in into a line moves the rest of this line, and the offsets of all that follows. -/
theorem after_shift {k line : Nat} {p : Position} (h : line ≤ p.line) (t : List Char) :
    (p.shift k line).after t = (p.after t).shift k line := by
  induction t generalizing p with
  | nil => rfl
  | cons c t ih => rw [after_cons, after_cons, next_shift h, ih (h.trans (p.line_le_next c))]

theorem after_of_no_newline {p : Position} {t : List Char} (h : '\n' ∉ t) :
    p.after t = p.shift t.length p.line :=
  calc p.after t = ⟨(p.after t).line, (p.after t).column, (p.after t).offset⟩ := rfl
    _ = p.shift t.length p.line := by
      rw [line_after, column_after h, offset_after, List.count_eq_zero.2 h, shift, if_pos rfl,
        Nat.add_zero]

end Position

/-! ## Nodes in their places -/

namespace Lexeme

variable {options : Options} {u folds front : List Char} {l : Lexeme}

theorem inPlace_insert (hf : front ≠ []) : l.inPlace options (u ++ folds ++ front) =
    { l.inPlace options (u ++ front) with
      shape := (l.inPlace options (u ++ front)).shape.mapParsed (insertAt u.length folds) } := by
  have hinsert : insertAt u.length folds (u ++ front) = u ++ folds ++ front := by
    rw [insertAt, List.take_left, List.drop_left]
  have hempty (t : List Char) : (t ++ front).isEmpty = false :=
    List.isEmpty_eq_false_iff.2 (List.append_ne_nil_of_right_ne_nil t hf)
  obtain ⟨shape, value, raw⟩ := l
  cases shape with
  | not => simp only [inPlace, negation, Shape.mapParsed, hempty]
  | dot => simp only [inPlace, Shape.mapParsed, beginsSegment_append _ hf]
  | qmark => simp only [inPlace, Shape.mapParsed, hinsert]
  | globstar => cases h : options.noGlobstar <;> simp [inPlace, Shape.mapParsed, hinsert, h]
  | _ => rfl

end Lexeme

namespace Node.Widened

variable {options : Options} {place : Position} {u folds front : List Char} {m n : Node}

theorem of_inPlace (hu : place.offset = u.length) (hf : front ≠ []) (l : Lexeme) {q : Position}
    (hline : place.line ≤ q.line) (hq : place.offset < q.offset) :
    Widened place folds ((l.inPlace options (u ++ front)).nodeAt q)
      ((l.inPlace options (u ++ folds ++ front)).nodeAt (q.shift folds.length place.line)) := by
  simp only [Lexeme.inPlace_insert hf, Lexeme.nodeAt, Position.after_shift hline, ← hu]
  exact .later hq

theorem of_inPlaces (hu : place.offset = u.length) (hf : front ≠ []) (ls : List Lexeme)
    {q : Position} (hline : place.line ≤ q.line) (hq : place.offset < q.offset) :
    List.Forall₂ (Widened place folds) (layOut q (Lexeme.inPlaces options (u ++ front) ls))
      (layOut (q.shift folds.length place.line)
        (Lexeme.inPlaces options (u ++ folds ++ front) ls)) := by
  refine forall₂_layOut_inPlaces (I := fun f q f' q' => ∃ t ≠ [], f = u ++ t ∧
    f' = u ++ folds ++ t ∧ q' = q.shift folds.length place.line ∧ place.line ≤ q.line ∧
    place.offset < q.offset) ?_ ?_ ls ⟨front, hf, rfl, rfl, rfl, hline, hq⟩
  · rintro l _ q _ _ ⟨t, ht, rfl, rfl, rfl, hline, hq⟩
    exact of_inPlace hu ht l hline hq
  · rintro raw _ q _ _ ⟨t, ht, rfl, rfl, rfl, hline, hq⟩
    refine ⟨t ++ raw, List.append_ne_nil_of_left_ne_nil ht raw, List.append_assoc _ _ _,
      List.append_assoc _ _ _, Position.after_shift hline raw, ?_, ?_⟩
    · rw [Position.line_after]
      omega
    · rw [Position.offset_after]
      omega

theorem of_inPlace_globstar {g : Lexeme} (hg : g.kind = .globstar) (hfolds : '\n' ∉ folds) :
    Widened place folds ((g.inPlace options u).nodeAt place)
      ((Lexeme.inPlace options u { g with raw := folds ++ g.raw }).nodeAt place) := by
  have hstop : place.after (folds ++ g.raw) =
      (place.after g.raw).shift folds.length place.line := by
    rw [Position.after_append, Position.after_of_no_newline hfolds,
      Position.after_shift (Nat.le_refl _)]
  obtain ⟨shape, value, raw⟩ := g
  cases shape with
  | globstar parsed inside =>
    rw [Lexeme.nodeAt, Lexeme.nodeAt, Lexeme.raw_inPlace, Lexeme.raw_inPlace, hstop]
    exact globstar rfl
  | _ => cases hg

/-- **The nodes around a globstar whose raw text is put behind further text.** -/
theorem of_globstar (options : Options) {before : List Lexeme}
    (hbefore : ∀ l ∈ before, l.raw ≠ []) {g : Lexeme} (hg : g.kind = .globstar)
    (hraw : g.raw ≠ []) (hfolds : '\n' ∉ folds) (later : List Lexeme) :
    List.Forall₂ (Widened (Position.start.after (Lexeme.covered before)) folds)
      (layOut Position.start (Lexeme.inPlaces options [] (before ++ g :: later)))
      (layOut Position.start (Lexeme.inPlaces options []
        (before ++ { g with raw := folds ++ g.raw } :: later))) := by
  rw [Lexeme.inPlaces_append, Lexeme.inPlaces_append, layOut_append, layOut_append,
    Lexeme.covered_inPlaces, List.nil_append]
  have hzero : Position.start.offset = 0 := rfl
  have hplace : (Position.start.after (Lexeme.covered before)).offset =
      (Lexeme.covered before).length := by
    rw [Position.offset_after, hzero, Nat.zero_add]
  generalize Position.start.after (Lexeme.covered before) = place at hplace ⊢
  refine List.rel_append ?_ (.cons (of_inPlace_globstar hg hfolds) ?_)
  · rw [List.forall₂_same]
    intro m hm
    have hm := bounds_of_mem_layOut (raw_ne_nil_of_mem_inPlaces options [] hbefore) hm
    rw [Lexeme.covered_inPlaces] at hm
    exact .before (by omega)
  · rw [Lexeme.raw_inPlace, Lexeme.raw_inPlace, Position.after_append,
      Position.after_of_no_newline hfolds, Position.after_shift (Nat.le_refl _),
      ← List.append_assoc]
    refine of_inPlaces hplace hraw later ?_ ?_
    · rw [Position.line_after]
      omega
    · have := List.length_pos_iff.2 hraw
      rw [Position.offset_after]
      omega

theorem kind_eq (h : Widened place folds m n) : n.kind = m.kind := by
  cases h with
  | before | globstar => rfl
  | later =>
    change (m.shape.mapParsed _).kind = m.shape.kind
    cases m.shape <;> rfl

theorem dotfiles?_eq (h : Widened place folds m n) : n.shape.dotfiles? = m.shape.dotfiles? := by
  cases h with
  | before | globstar => rfl
  | later =>
    change (m.shape.mapParsed _).dotfiles? = m.shape.dotfiles?
    cases m.shape <;> rfl

end Node.Widened

/-! ## Patterns -/

theorem Lexeme.leadsWithDot_congr :
    leadsWithDot (w ++ '*' :: '*' :: '/' :: v') = leadsWithDot (w ++ '*' :: '*' :: '/' :: v) := by
  obtain ⟨a, b, c, t, h⟩ := exists_first_three w
  rw [h, h]
  by_cases ha : a = '.' <;> simp [leadsWithDot, ha]

theorem Ast.state_ofSegments_congr {options : Options} {p q : List Char} {ls ms : List Lexeme}
    (hkinds : (Ast.ofSegments options q ms).kinds = (Ast.ofSegments options p ls).kinds)
    (hdots : (Ast.ofSegments options q ms).nodes.map (·.shape.dotfiles?) =
      (Ast.ofSegments options p ls).nodes.map (·.shape.dotfiles?))
    (hlead : Lexeme.leadsWithDot q = Lexeme.leadsWithDot p) :
    (Ast.ofSegments options q ms).state = (Ast.ofSegments options p ls).state := by
  have hlast (a : Ast) : a.nodes.filterMap (·.shape.dotfiles?) =
      (a.nodes.map (·.shape.dotfiles?)).filterMap id := by
    rw [List.filterMap_map]
    rfl
  rw [Ast.state_ofSegments, Ast.state_ofSegments, hlast, hlast, hkinds, hdots, hlead]

/-- Repetitions of `/**` between two stars and a slash are repetitions of `**/`. -/
theorem fold_eq (u v : List Char) (n : Nat) :
    u ++ "**".toList ++ (List.replicate n "/**".toList).flatten ++ "/".toList ++ v =
      u ++ '*' :: '*' :: '/' :: (globstars n ++ v) := by
  have h : (List.replicate n "/**".toList).flatten ++ '/' :: v = '/' :: (globstars n ++ v) := by
    induction n with
    | zero => rfl
    | succ n ih =>
      rw [List.replicate_succ, List.flatten_cons, List.append_assoc, ih]
      rfl
  rw [List.append_assoc, List.append_assoc, List.append_assoc]
  exact congrArg (u ++ '*' :: '*' :: ·) h

/-- **Repeating a globstar preserves what a pattern means.** Where a pattern has a boundary in front
of `**/`, it has one there with any number of `/**` behind the two stars, and node by node the same
kinds, values and fields. The raw text and the span of the globstar grow, the nodes behind it move,
and the text that they quote grows too; the wrap and the state are the same. -/
theorem tokenize_repeat_globstar (options : Options) (u v : List Char) (n : Nat)
    (hb : IsBoundary options (u ++ "**/".toList ++ v) u.length) :
    let folded := u ++ "**".toList ++ (List.replicate n "/**".toList).flatten ++ "/".toList ++ v
    IsBoundary options folded u.length ∧
    ∃ a b, tokenize .unchanged options (u ++ "**/".toList ++ v) = .ok a ∧
      tokenize .unchanged options folded = .ok b ∧
      List.Forall₂ (Node.Widened (Position.start.after u) (List.replicate n "**/".toList).flatten)
        a.nodes b.nodes ∧
      b.wrap = a.wrap ∧ b.state = a.state := by
  intro folded
  have hplain : u ++ "**/".toList ++ v = u ++ '*' :: '*' :: '/' :: v := List.append_assoc _ _ _
  have hfolded : folded = u ++ '*' :: '*' :: '/' :: (globstars n ++ v) := fold_eq u v n
  rw [hplain] at hb ⊢
  rw [hfolded]
  obtain ⟨before, later, rfl, h, hlater⟩ := exists_segments_of_isBoundary hb
  rcases later with - | ⟨g, later⟩
  · cases hlater
  have hseg := h.of_congr (sameClosers_globstars n v) (hlater.widen n)
  obtain ⟨hg, -⟩ := Segments.cons_iff.1 hlater
  rw [Lexeme.ahead?_globstar (t := '/' :: v) rfl, Option.some.injEq] at hg
  have hnewline : '\n' ∉ globstars n := fun h => absurd (eq_of_mem_globstars h) (by decide)
  have hnodes := Node.Widened.of_globstar options
    (fun l hl => h.raw_ne_nil l (List.mem_append_left _ hl)) (by rw [← hg]; rfl)
    (h.raw_ne_nil g (by simp)) hnewline later
  refine ⟨hseg.isBoundary_iff.2 ⟨before, _, rfl, rfl⟩, _, _, tokenize_of_segments h options,
    tokenize_of_segments hseg options, hnodes, ?_, ?_⟩
  · have hrun (v : List Char) : Lexeme.run '!' (Lexeme.covered before ++ '*' :: v) =
        Lexeme.run '!' (Lexeme.covered before) := Lexeme.run_append_cons (by decide)
    change (if _ then _ else _) = (if _ then _ else _)
    simp only [h.any_wraps_iff, hseg.any_wraps_iff, hrun]
  · exact Ast.state_ofSegments_congr (map_eq_of_forall₂ hnodes fun _ _ hm => hm.kind_eq)
      (map_eq_of_forall₂ hnodes fun _ _ hm => hm.dotfiles?_eq) Lexeme.leadsWithDot_congr

/-- A quote in front looks over the globstar, and what stands behind begins with a globstar too. -/
theorem tokenize_repeat_globstar_twice :
    IsBoundary {} "!'a/**/**/?.b".toList 4 ∧ IsBoundary {} "!'a/**/**/**/**/?.b".toList 4 ∧
    ∃ a b, tokenize .unchanged {} "!'a/**/**/?.b".toList = .ok a ∧
      tokenize .unchanged {} "!'a/**/**/**/**/?.b".toList = .ok b ∧
      List.Forall₂ (Node.Widened (Position.start.after "!'a/".toList) "**/**/".toList)
        a.nodes b.nodes ∧
      b.wrap = a.wrap ∧ b.state = a.state :=
  ⟨by decide +kernel,
    tokenize_repeat_globstar {} "!'a/".toList "**/?.b".toList 2 (by decide +kernel)⟩

end GlobPattern
