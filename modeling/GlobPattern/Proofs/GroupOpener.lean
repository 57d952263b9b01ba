import GlobPattern.Proofs.Boundary
import GlobPattern.Proofs.Lexeme.Language
import GlobPattern.Proofs.Lexer.Outcome
import GlobPattern.Proofs.Summary

/-!
# Runs of stars, and markers in front of groups

A run of stars that no group claims is one node. Two stars at the end of a path segment or of the
alternative of a group are a globstar, which takes the `/**` behind it as long as a further slash
follows; any other run is a star of that length. What follows begins with another character, so the
next node is neither of the two.

A group takes one marker. Of a run of markers in front of a parenthesis the last one begins plain
text, and those before it are wildcards as they would be elsewhere. So no wildcard stands in front
of a parenthesis, whatever the rules are.

* `Lexeme.SegmentEnd`: where two stars are a globstar;
* `Lexeme.globstar?_run`, `Lexeme.ahead?_run`: what is seen in front of a run of stars;
* `Segments.kind_head?_layOut`: a node that is some stars begins with one;
* `Node.ReadsStars`, **`tokenize_star_run`**: the node of a run of stars, and what follows it;
* `Lexeme.wildcards`, `Lexeme.groupOpener`: what such a run is read as;
* `Segments.exists_wildcards`, `Segments.exists_groupOpener`: the segments that it falls into;
* `Scan.head?_behind_wildcard`: what stands behind a wildcard that is recognised;
* **`tokenize_group_opener`**: the nodes of such a run, and what stands behind any wildcard.
-/

namespace GlobPattern

/-! ## Runs of stars -/

namespace Lexeme

variable {t : List Char} {k : Nat}

/-- A path segment or the alternative of a group ends in front of `t`. -/
def SegmentEnd (t : List Char) : Prop := ∀ c ∈ t.head?, c ∈ [',', ')', '/']

theorem endsSegment_iff : endsSegment t = true ↔ SegmentEnd t := by
  cases t <;> simp [endsSegment, SegmentEnd, or_assoc]

theorem SegmentEnd.head?_ne_star (h : SegmentEnd t) : t.head? ≠ some '*' := by
  intro ht
  exact absurd (h '*' ht) (by decide)

theorem exists_of_globstar?_ne_none {noGlobstar : Bool} {parsed r : List Char} {inside : Enclosure}
    (h : globstar? noGlobstar parsed inside r ≠ none) :
    ∃ t, r = List.replicate 2 '*' ++ t ∧ SegmentEnd t := by
  unfold globstar? at h
  split at h
  · next t =>
    split at h
    · next ht => exact ⟨t, rfl, endsSegment_iff.1 ht⟩
    · exact absurd rfl h
  · exact absurd rfl h

theorem globstar?_run (ht : t.head? ≠ some '*') (h : ¬ (k = 2 ∧ SegmentEnd t)) {noGlobstar : Bool}
    {parsed : List Char} {inside : Enclosure} :
    globstar? noGlobstar parsed inside (List.replicate k '*' ++ t) = none := by
  by_contra hne
  obtain ⟨u, htext, hu⟩ := exists_of_globstar?_ne_none hne
  -- one text is cut behind its first run in two ways
  have hrun := congrArg (run '*') htext
  rw [run_replicate_append ht, run_replicate_append hu.head?_ne_star] at hrun
  have hafter := congrArg (afterRun '*') htext
  rw [afterRun_replicate_append ht, afterRun_replicate_append hu.head?_ne_star] at hafter
  exact h ⟨by simpa using congrArg List.length hrun, hafter ▸ hu⟩

theorem ahead?_run (hk : 0 < k) (ht : ∀ c ∈ t.head?, c ∉ ['*', '('])
    (h : ¬ (k = 2 ∧ SegmentEnd t)) :
    ahead? (List.replicate k '*' ++ t) = some (plain .star (List.replicate k '*')) := by
  have hstar : t.head? ≠ some '*' := fun hc => ht '*' hc List.mem_cons_self
  have hrun : runBefore '*' ['('] (List.replicate k '*' ++ t) = List.replicate k '*' :=
    runBefore_replicate_append hstar fun c hc hmem => ht c hc (List.mem_cons_of_mem _ hmem)
  have hne : List.replicate k '*' ≠ [] := by
    rw [Ne, List.replicate_eq_nil_iff]
    omega
  rw [ahead?_star (globstar?_run hstar h) (by rwa [hrun]), hrun]

end Lexeme

theorem Segments.kind_head?_layOut {options : Options} {front r : List Char} {ls : List Lexeme}
    (h : Segments r ls) (hr : r.head? ≠ some '*') (q : Position) :
    ∀ n ∈ (layOut q (Lexeme.inPlaces options front ls)).head?,
      n.kind ∉ [Kind.star, .globstar] := by
  cases h with
  | nil => exact fun n hn => nomatch hn
  | @cons _ l ls hl rest =>
    rintro n ⟨⟩ hn
    have hkind : (l.inPlace options front).kind ∈ [Kind.star, .globstar] := hn
    rw [Lexeme.kind_inPlace] at hkind
    refine hr (Lexeme.head?_of_ahead?_stars hl ?_)
    split at hkind
    · next hg => rw [hg.1]; decide
    · exact hkind

/-- How `k` stars in front of `t` are read. Two of them at the end of a segment are a globstar, or a
star where globstars are off, with all repetitions that a further slash follows. -/
structure Node.ReadsStars (options : Options) (k : Nat) (t : List Char) (n : Node) : Prop where
  globstar : k = 2 ∧ Lexeme.SegmentEnd t →
    (n.kind, n.value) =
        (if options.noGlobstar then (.star, ['*']) else (.globstar, ['*', '*'])) ∧
      ∃ m, Lexeme.FoldCount t m ∧ n.raw = ['*', '*'] ++ Lexeme.folds m
  star : ¬ (k = 2 ∧ Lexeme.SegmentEnd t) →
    n.kind = .star ∧ n.value = List.replicate k '*' ∧ n.raw = List.replicate k '*'

/-- **A run of stars in front of another character than a parenthesis is one node**, a globstar or a
star, and the next node is neither. -/
theorem tokenize_star_run (options : Options) (front t : List Char) (k : Nat) (hk : 0 < k)
    (ht : ∀ c ∈ t.head?, c ∉ ['*', '('])
    (hb : IsBoundary options (front ++ (List.replicate k '*' ++ t)) front.length) :
    ∃ a n later, tokenize .unchanged options (front ++ (List.replicate k '*' ++ t)) = .ok a ∧
      a.nodesFrom front.length = n :: later ∧ n.span.start.offset = front.length ∧
      n.ReadsStars options k t ∧ ∀ next ∈ later.head?, next.kind ∉ [Kind.star, .globstar] := by
  have hplace : (Position.start.after front).offset = front.length :=
    (Position.offset_after _ _).trans (Nat.zero_add _)
  have hstar : t.head? ≠ some '*' := fun hc => ht '*' hc List.mem_cons_self
  by_cases h : k = 2 ∧ Lexeme.SegmentEnd t
  · obtain ⟨rfl, hend⟩ := h
    obtain ⟨m, hm, hfolds⟩ := Lexeme.exists_foldCount t
    have hseen : Lexeme.ahead? (List.replicate 2 '*' ++ t) =
        some ⟨.globstar [] {}, ['*', '*'], '*' :: '*' :: Lexeme.repeats t⟩ :=
      Lexeme.ahead?_globstar (Lexeme.endsSegment_iff.2 hend)
    obtain ⟨a, later, ha, hlater, hfrom⟩ := exists_nodesFrom_of_ahead? hb hseen
    have hbehind : (t.drop (Lexeme.repeats t).length).head? ≠ some '*' := by
      rwa [Lexeme.head?_behind_repeats]
    refine ⟨a, _, _, ha, hfrom, hplace, ⟨fun _ => ⟨?_, m, hm, ?_⟩, fun hn => absurd ⟨rfl, hend⟩ hn⟩,
      hlater.kind_head?_layOut hbehind _⟩
    · rw [Lexeme.inPlace]
      cases options.noGlobstar <;> rfl
    · exact congrArg (['*', '*'] ++ ·) hfolds
  · obtain ⟨a, later, ha, hlater, hfrom⟩ :=
      exists_nodesFrom_of_ahead? hb (Lexeme.ahead?_run hk ht h)
    rw [Lexeme.plain, List.drop_left] at hlater
    exact ⟨a, _, _, ha, hfrom, hplace, ⟨fun hg => absurd hg h, fun _ => ⟨rfl, rfl, rfl⟩⟩,
      hlater.kind_head?_layOut hstar _⟩

/-- Two stars in front of three repetitions, the last of which no slash follows. -/
theorem tokenize_star_run_folded :
    IsBoundary {} "a/**/**/**/**b".toList 2 ∧ ∃ a n later,
      tokenize .unchanged {} "a/**/**/**/**b".toList = .ok a ∧
      a.nodesFrom 2 = n :: later ∧ n.span.start.offset = 2 ∧
      n.ReadsStars {} 2 "/**/**/**b".toList ∧
      ∀ next ∈ later.head?, next.kind ∉ [Kind.star, .globstar] := by
  have hb : IsBoundary {} "a/**/**/**/**b".toList 2 := by decide +kernel
  have ht : ∀ c ∈ "/**/**/**b".toList.head?, c ∉ ['*', '('] := fun c hc => by cases hc; decide
  exact ⟨hb, tokenize_star_run {} "a/".toList "/**/**/**b".toList 2 Nat.two_pos ht hb⟩

/-! ## Markers in front of groups -/

/-- The kinds of wildcards that a parenthesis would turn into a group. -/
def Kind.wildcards : List Kind := [.star, .globstar, .qmark, .plus]

namespace Lexeme

/-- The wildcards that a number of markers is: as many pluses, or one run of stars or of question
marks, which is none if there are no markers. -/
def wildcards (front : List Char) (x : Char) : Nat → List Lexeme
  | 0 => []
  | k + 1 =>
    if x = '+' then List.replicate (k + 1) (plain .plus ['+'])
    else [plain (if x = '*' then .star else .qmark front) (List.replicate (k + 1) x)]

/-- The text in front of a group with `t` behind its parenthesis: the marker alone, and `*(` if
there is anything behind that. -/
def groupOpener (x : Char) (t : List Char) : List Char :=
  if x = '*' ∧ t ≠ [] then ['*', '('] else [x]

variable {options : Options} {front t : List Char} {x : Char} {k : Nat}

theorem ahead?_groupOpener (hx : x ∈ ['*', '?', '+']) :
    ahead? (x :: '(' :: t) = some (plain .text (groupOpener x t)) := by
  rw [ahead?_of_fallsThrough (List.cons_ne_nil _ _) (fallsThrough_cons.2 (.inr ⟨hx, rfl⟩))]
  simp only [List.mem_cons, List.not_mem_nil, or_false] at hx
  rcases hx with rfl | rfl | rfl
  · cases t <;> rfl
  · rfl
  · rfl

theorem ahead?_claimed_run (hx : x ∈ ['*', '?']) :
    ahead? (List.replicate (k + 1) x ++ x :: '(' :: t) =
      some (plain (if x = '*' then .star else .qmark []) (List.replicate (k + 1) x)) := by
  have hopen : (x :: '(' :: t) = List.replicate 1 x ++ '(' :: t := rfl
  have htext : List.replicate (k + 1) x ++ x :: '(' :: t =
      List.replicate (k + 2) x ++ '(' :: t := by
    rw [hopen, ← List.append_assoc, List.replicate_append_replicate]
  have hne : '(' ≠ x := by
    rintro rfl
    exact absurd hx (by decide)
  have hrun : runBefore x ['('] (List.replicate (k + 2) x ++ '(' :: t) =
      List.replicate (k + 1) x := runBefore_replicate_claimed hne List.mem_cons_self
  have hseen : runBefore x ['('] (List.replicate (k + 2) x ++ '(' :: t) ≠ [] := by
    rw [hrun]
    exact List.cons_ne_nil _ _
  rw [htext]
  simp only [List.mem_cons, List.not_mem_nil, or_false] at hx
  rcases hx with rfl | rfl
  · have hend : ¬ (k + 2 = 2 ∧ SegmentEnd ('(' :: t)) := fun h => absurd (h.2 '(' rfl) (by decide)
    rw [ahead?_star (globstar?_run (by simp) hend) hseen, hrun, if_pos rfl]
  · rw [ahead?_qmark hseen, hrun, if_neg (by decide)]

theorem inPlaces_wildcards :
    inPlaces options front (wildcards [] x k) = wildcards front x k := by
  cases k with
  | zero => rfl
  | succ k =>
    by_cases hplus : x = '+'
    · simp only [wildcards, if_pos hplus]
      refine inPlaces_eq_self fun l hl => ?_
      rw [List.eq_of_mem_replicate hl]
      decide
    · simp only [wildcards, if_neg hplus]
      by_cases hstar : x = '*'
      · simp only [if_pos hstar]
        rfl
      · simp only [if_neg hstar]
        rfl

end Lexeme

/-! ### The segments of a run of markers -/

namespace Segments

variable {t : List Char} {x : Char} {ls : List Lexeme}

open Lexeme (wildcards groupOpener plain)

theorem exists_pluses {k : Nat} (h : Segments (List.replicate k '+' ++ '+' :: '(' :: t) ls) :
    ∃ ms, ls = List.replicate k (plain .plus ['+']) ++ ms ∧ Segments ('+' :: '(' :: t) ms := by
  induction k generalizing ls with
  | zero => exact ⟨ls, rfl, h⟩
  | succ k ih =>
    have hplus : (List.replicate k '+' ++ '+' :: '(' :: t).head? ≠ some '(' := by
      cases k <;> exact nofun
    obtain ⟨rest, rfl, hrest⟩ := h.exists_cons_of_ahead? (Lexeme.ahead?_plus hplus)
    obtain ⟨ms, rfl, hms⟩ := ih hrest
    exact ⟨ms, rfl, hms⟩

theorem exists_wildcards (hx : x ∈ ['*', '?', '+']) {k : Nat}
    (h : Segments (List.replicate k x ++ x :: '(' :: t) ls) :
    ∃ ms, ls = wildcards [] x k ++ ms ∧ Segments (x :: '(' :: t) ms := by
  cases k with
  | zero => exact ⟨ls, rfl, h⟩
  | succ k =>
    by_cases hplus : x = '+'
    · subst hplus
      exact h.exists_pluses
    · have hrun : x ∈ ['*', '?'] := by simpa [hplus] using hx
      obtain ⟨ms, rfl, hms⟩ := h.exists_cons_of_ahead? (Lexeme.ahead?_claimed_run hrun)
      rw [Lexeme.plain, List.drop_left] at hms
      exact ⟨ms, by rw [wildcards, if_neg hplus]; rfl, hms⟩

/-- **Of a run of markers in front of a parenthesis the last one begins plain text.** -/
theorem exists_groupOpener (hx : x ∈ ['*', '?', '+']) {k : Nat}
    (h : Segments (List.replicate (k + 1) x ++ '(' :: t) ls) :
    ∃ rest, ls = wildcards [] x k ++ plain .text (groupOpener x t) :: rest := by
  rw [List.replicate_succ', List.append_assoc] at h
  obtain ⟨ms, rfl, hms⟩ := h.exists_wildcards hx
  obtain ⟨rest, rfl, -⟩ := hms.exists_cons_of_ahead? (Lexeme.ahead?_groupOpener hx)
  exact ⟨rest, rfl⟩

end Segments

/-! ### What stands behind a wildcard -/

namespace Lexeme

variable {r : List Char} {l : Lexeme}

theorem head?_behind_plus (h : plus? r = some l) : (r.drop l.raw.length).head? ≠ some '(' := by
  unfold plus? at h
  split at h
  · cases h
  · next t hopen =>
    cases h
    intro ht
    obtain ⟨u, hu⟩ := List.head?_eq_some_iff.1 ht
    exact hopen u hu
  · cases h

theorem head?_behind_globstar {noGlobstar : Bool} {parsed : List Char} {inside : Enclosure}
    (h : globstar? noGlobstar parsed inside r = some l) :
    (r.drop l.raw.length).head? ≠ some '(' := by
  unfold globstar? at h
  split at h
  · next t =>
    split at h
    · next hend =>
      have hraw : l.raw = '*' :: '*' :: repeats t := by
        rw [← Option.some.inj h]
        split <;> rfl
      have hbehind : (t.drop (repeats t).length).head? ≠ some '(' := by
        rw [head?_behind_repeats]
        exact fun ht => absurd (endsSegment_iff.1 hend '(' ht) (by decide)
      rw [hraw]
      exact hbehind
    · cases h
  · cases h

theorem head?_behind_claimed_run {c : Char} {shape : Shape} (hc : c ≠ '(')
    (h : plain? shape (runBefore c ['('] r) = some l) :
    (r.drop l.raw.length).head? ≠ some '(' := by
  obtain ⟨hne, rfl⟩ := plain?_eq_some.1 h
  exact head?_behind_runBefore (by simpa using hc) List.mem_cons_self hne

end Lexeme

/-- **No wildcard that a rule recognises stands in front of a parenthesis**, whatever the state. -/
theorem Scan.head?_behind_wildcard {s : Scan} {kind : Kind} {l : Lexeme}
    (h : s.recognise? kind = some l) (hl : l.kind ∈ Kind.wildcards) :
    (s.cursor.remaining.drop l.raw.length).head? ≠ some '(' := by
  have hkind : kind ∈ Kind.wildcards := by
    rcases kind_of_recognise? h with hk | ⟨-, hk⟩ | ⟨rfl, -⟩
    · exact hk ▸ hl
    · rw [hk] at hl
      exact absurd hl (by decide)
    · decide
  simp only [Kind.wildcards, List.mem_cons, List.not_mem_nil, or_false] at hkind
  rcases hkind with rfl | rfl | rfl | rfl
  · have hstar : Lexeme.star? s.cursor.remaining = some l := h
    rw [Lexeme.star?] at hstar
    split at hstar
    · cases hstar
    · exact Lexeme.head?_behind_claimed_run (by decide) hstar
  · exact Lexeme.head?_behind_globstar h
  · exact Lexeme.head?_behind_claimed_run (by decide) h
  · exact Lexeme.head?_behind_plus h

theorem Node.Made.head?_behind_wildcard {pattern : List Char} {n : Node} (h : n.Made pattern)
    (hn : n.kind ∈ Kind.wildcards) :
    (pattern.drop n.span.stop.offset).head? ≠ some '(' := by
  rcases h with htext | ⟨s, kind, l, rfl, hl, rfl⟩
  · rw [htext] at hn
    exact absurd hn (by decide)
  · have hstop : (l.nodeAt s.cursor.position).span.stop.offset =
        s.cursor.parsed.length + l.raw.length := by
      rw [Lexeme.nodeAt, Position.offset_after, ← s.cursor.offset_eq_length, Cursor.offset]
    rw [hstop, Cursor.source, List.drop_length_add_append]
    exact Scan.head?_behind_wildcard hl hn

/-- **A group takes one marker.** Wherever a run of markers in front of a parenthesis begins with a
node, the last of them begins plain text and those before it are wildcards; and no wildcard of any
pattern that is read to its end, with whatever rules, stands in front of a parenthesis. -/
theorem tokenize_group_opener (options : Options) :
    (∀ front x k t, x ∈ ['*', '?', '+'] →
      IsBoundary options (front ++ (List.replicate (k + 1) x ++ '(' :: t)) front.length →
      ∃ a later,
        tokenize .unchanged options (front ++ (List.replicate (k + 1) x ++ '(' :: t)) = .ok a ∧
        a.nodesFrom front.length = layOut (Position.start.after front)
          (Lexeme.wildcards front x k ++ [.plain .text (Lexeme.groupOpener x t)]) ++ later) ∧
    ∀ extend pattern a, tokenize extend options pattern = .ok a →
      ∀ n ∈ a.nodes, n.kind ∈ Kind.wildcards →
        (pattern.drop n.span.stop.offset).head? ≠ some '(' := by
  constructor
  · intro front x k t hx hb
    obtain ⟨a, ls, ha, hls, hfrom⟩ := exists_nodesFrom_of_isBoundary hb
    obtain ⟨rest, rfl⟩ := hls.exists_groupOpener hx
    rw [Lexeme.inPlaces_append, Lexeme.inPlaces_wildcards, Lexeme.inPlaces_cons,
      List.append_cons, layOut_append] at hfrom
    exact ⟨a, _, ha, hfrom⟩
  · intro extend pattern a ha n hn
    exact (made_of_tokenize ha n hn).head?_behind_wildcard

/-- Three stars in front of a parenthesis: two of them are a wildcard, and the third one goes with
the parenthesis. -/
theorem tokenize_group_opener_stars :
    IsBoundary {} "a***(b".toList 1 ∧ ∃ a later, tokenize .unchanged {} "a***(b".toList = .ok a ∧
      a.nodesFrom 1 = layOut (Position.start.after ['a'])
        [.plain .star ['*', '*'], .plain .text ['*', '(']] ++ later ∧
      ∀ n ∈ a.nodes, n.kind ∈ Kind.wildcards →
        ("a***(b".toList.drop n.span.stop.offset).head? ≠ some '(' := by
  have hb : IsBoundary {} "a***(b".toList 1 := by decide +kernel
  obtain ⟨a, later, ha, hfrom⟩ := (tokenize_group_opener {}).1 ['a'] '*' 2 ['b'] (by decide) hb
  exact ⟨hb, a, later, ha, hfrom, (tokenize_group_opener {}).2 _ _ a ha⟩

end GlobPattern
