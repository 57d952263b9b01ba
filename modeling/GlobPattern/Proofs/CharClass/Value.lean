import GlobPattern.Proofs.CharClass.Extent
import Mathlib.Data.List.Chain

/-!
# What a class stands for

The first run of backslashes in the body of a class is collapsed to two, in the inner text and in
the value. The value is collapsed as a whole, so a run that ends the body takes along a backslash
that closes the class: the value then lacks what closes it.

* `Lexeme.Unpaired`, `Lexeme.Clear`: texts without a run of backslashes, and those in front of one;
* `Lexeme.collapse_of_unpaired`, `Lexeme.collapse_append`, `Lexeme.collapse_run`: what collapsing
  does to a text without a run, in front of a run, and to the run;
* `Lexeme.RunReachesClose`: the first run of a class goes on over what closes it;
* **`tokenize_class_value`**: the value of a class in terms of its other fields.
-/

namespace GlobPattern

namespace Lexeme

/-! ## The first run of backslashes -/

/-- No two backslashes stand next to each other. -/
def Unpaired (s : List Char) : Prop := s.IsChain fun c d => c = '\\' → d ≠ '\\'

/-- A text that a first run of backslashes may follow: with a backslash behind it, it is still
unpaired. -/
def Clear (s : List Char) : Prop := Unpaired (s ++ ['\\'])

instance : DecidablePred Unpaired := fun s => inferInstanceAs (Decidable (s.IsChain _))

instance : DecidablePred Clear := fun s => inferInstanceAs (Decidable (Unpaired (s ++ ['\\'])))

section Runs

variable {c : Char} {r s u v : List Char} {k : Nat}

theorem unpaired_cons : Unpaired (c :: s) ↔ (c = '\\' → s.head? ≠ some '\\') ∧ Unpaired s := by
  rw [Unpaired, List.isChain_cons, Unpaired]
  refine and_congr_left fun _ => ⟨fun h hc hs => h _ hs hc rfl, ?_⟩
  rintro h d hd hc rfl
  exact h hc hd

theorem Clear.append (hu : Clear u) (hv : Clear v) : Clear (u ++ v) := by
  obtain ⟨hu, -, hlast⟩ := List.isChain_append.1 hu
  rw [Clear, List.append_assoc]
  refine List.isChain_append.2 ⟨hu, hv, ?_⟩
  intro c hc d _ hb
  exact absurd rfl (hlast c hc '\\' rfl hb)

theorem Clear.of_append (h : Clear (u ++ v)) : Clear v := by
  rw [Clear, List.append_assoc] at h
  exact (List.isChain_append.1 h).2.1

theorem collapse_cons (h : c = '\\' → s.head? ≠ some '\\') :
    collapse (c :: s) = c :: collapse s := by
  rw [collapse]
  rintro r rfl rfl
  exact h rfl rfl

theorem collapse_of_unpaired (h : Unpaired s) : collapse s = s := by
  induction s with
  | nil => rfl
  | cons c s ih =>
    obtain ⟨hc, hs⟩ := unpaired_cons.1 h
    rw [collapse_cons hc, ih hs]

theorem collapse_append (h : Clear u) : collapse (u ++ s) = u ++ collapse s := by
  induction u with
  | nil => rfl
  | cons c u ih =>
    obtain ⟨hc, hu⟩ := unpaired_cons.1 h
    have hhead : c = '\\' → (u ++ s).head? ≠ some '\\' := by
      intro hb
      cases u with
      | nil => exact absurd rfl (hc hb)
      | cons d u => exact hc hb
    rw [List.cons_append, collapse_cons hhead, ih hu, List.cons_append]

theorem collapse_run (hu : Clear u) (hr : r.head? ≠ some '\\') :
    collapse (u ++ (List.replicate (k + 2) '\\' ++ r)) = u ++ '\\' :: '\\' :: r := by
  rw [collapse_append hu, List.replicate_succ, List.replicate_succ, List.cons_append,
    List.cons_append, collapse, afterRun_replicate_append hr]

theorem length_collapse_run_lt (hu : Clear u) (hr : r.head? ≠ some '\\') :
    (collapse (u ++ (List.replicate (k + 3) '\\' ++ r))).length <
      (u ++ (List.replicate (k + 3) '\\' ++ r)).length := by
  rw [collapse_run (k := k + 1) hu hr]
  simp only [List.length_append, List.length_cons, List.length_replicate]
  omega

theorem unpaired_or_exists_run (s : List Char) : Unpaired s ∨ ∃ u k r,
    s = u ++ (List.replicate (k + 2) '\\' ++ r) ∧ Clear u ∧ r.head? ≠ some '\\' := by
  induction s with
  | nil => exact .inl .nil
  | cons c s ih =>
    by_cases hc : c = '\\' → s.head? ≠ some '\\'
    · obtain hs | ⟨u, k, r, rfl, hu, hr⟩ := ih
      · exact .inl (unpaired_cons.2 ⟨hc, hs⟩)
      · refine .inr ⟨c :: u, k, r, rfl, unpaired_cons.2 ⟨fun hb => ?_, hu⟩, hr⟩
        cases u with
        | nil => exact absurd rfl (hc hb)
        | cons d u => exact hc hb
    · -- The run begins here.
      obtain ⟨rfl, hs⟩ := Classical.not_imp.1 hc
      obtain ⟨t, rfl⟩ := List.head?_eq_some_iff.1 (not_not.1 hs)
      have hrun : run '\\' t = List.replicate (run '\\' t).length '\\' :=
        List.eq_replicate_iff.2 ⟨rfl, fun d => eq_of_mem_run⟩
      refine .inr ⟨[], (run '\\' t).length, afterRun '\\' t, ?_, by decide, ?_⟩
      · rw [List.replicate_succ, List.replicate_succ, ← hrun, List.cons_append, List.cons_append,
          run_append_afterRun]
        rfl
      · exact head?_behind_run (run_append_afterRun '\\' t)

/-- A text is left as it is unless its first run is longer than two. -/
theorem collapse_eq_self_or_exists_run (s : List Char) : collapse s = s ∨ ∃ u k r,
    s = u ++ (List.replicate (k + 3) '\\' ++ r) ∧ Clear u ∧ r.head? ≠ some '\\' := by
  obtain hs | ⟨u, _ | k, r, rfl, hu, hr⟩ := unpaired_or_exists_run s
  · exact .inl (collapse_of_unpaired hs)
  · exact .inl (collapse_run hu hr)
  · exact .inr ⟨u, k, r, rfl, hu, hr⟩

end Runs

/-! ## Runs in classes -/

/-- The sigil of a class. -/
def classSigil (negated : Bool) (raw : List Char) : List Char :=
  raw.tail.take (if negated then 1 else 0)

/-- The first run of backslashes in a class is the end of its body, three or more of them, together
with a backslash that closes it. -/
def RunReachesClose (raw close : List Char) : Prop :=
  close = ['\\'] ∧ ∃ front k, raw = front ++ List.replicate (k + 4) '\\' ∧ Clear front

section Classes

variable {l : Lexeme} {negated : Bool} {inner opening body close behind : List Char}

theorem RunReachesClose.exists_body (ho : Clear opening)
    (h : RunReachesClose (opening ++ body ++ close) close) :
    ∃ u k, body = u ++ List.replicate (k + 3) '\\' ∧ Clear u := by
  obtain ⟨rfl, front, k, hraw, hfront⟩ := h
  rw [List.replicate_succ', ← List.append_assoc, List.append_left_inj] at hraw
  obtain ⟨u, rfl, hbody⟩ | ⟨u, rfl, hrun⟩ := List.append_eq_append_iff.1 hraw
  · exact ⟨u, k, hbody, hfront.of_append⟩
  · -- The run begins in the body, because no opening ends in a backslash.
    obtain rfl | ⟨t, c, rfl⟩ := List.eq_nil_or_concat' u
    · exact ⟨[], k, hrun.symm, by decide⟩
    · have hc : c = '\\' := by
        refine List.eq_of_mem_replicate (n := k + 3) ?_
        rw [hrun]
        exact List.mem_append_left _ (List.mem_append_right _ (List.mem_singleton_self c))
      subst hc
      exact absurd (ho.of_append.of_append (u := t)) (by decide)

theorem ClassExtent.close_eq (h : ClassExtent body close behind) (hb : ¬ Unpaired body)
    (hc : close.head? = some '\\') : close = ['\\'] := by
  obtain ⟨-, -, rfl⟩ | ⟨-, -, ⟨c, rfl, -⟩, -⟩ | ⟨rfl, -⟩ := h
  · cases hc
  · rw [Option.some.inj hc]
  · exact absurd (by decide) hb

theorem value_of_not_reaches (ho : Clear opening) (hextent : ClassExtent body close behind)
    (h : ¬ RunReachesClose (opening ++ body ++ close) close) :
    (if (collapse body).length < body.length then collapse (opening ++ body ++ close)
      else opening ++ body ++ close) = opening ++ collapse body ++ close := by
  obtain hbody | ⟨u, k, r, rfl, hu, hr⟩ := collapse_eq_self_or_exists_run body
  · rw [hbody, if_neg (lt_irrefl _)]
  · have hlength := length_collapse_run_lt (k := k) hu hr
    have hpaired : ¬ Unpaired (u ++ (List.replicate (k + 3) '\\' ++ r)) :=
      fun hun => hlength.ne (congrArg List.length (collapse_of_unpaired hun))
    have hhead : (r ++ close).head? ≠ some '\\' := by
      cases r with
      | cons c r => exact hr
      | nil =>
        intro hc
        have hclose := hextent.close_eq hpaired hc
        refine h ⟨hclose, opening ++ u, k, ?_, ho.append hu⟩
        rw [hclose, List.replicate_succ' (n := k + 3)]
        simp only [List.append_assoc, List.nil_append]
    rw [if_pos hlength, collapse_run (k := k + 1) hu hr]
    have hwhole := collapse_run (k := k + 1) (ho.append hu) hhead
    simpa only [List.append_assoc, List.cons_append] using hwhole

theorem value_of_reaches (ho : Clear opening)
    (h : RunReachesClose (opening ++ body ++ close) close) :
    (if (collapse body).length < body.length then collapse (opening ++ body ++ close)
      else opening ++ body ++ close) = opening ++ collapse body := by
  obtain ⟨u, k, rfl, hu⟩ := h.exists_body ho
  have hbody := collapse_run (k := k + 1) (r := []) hu (by simp)
  have hlength := length_collapse_run_lt (k := k) (r := []) hu (by simp)
  rw [List.append_nil] at hbody hlength
  have hwhole := collapse_run (k := k + 2) (r := []) (ho.append hu) (by simp)
  rw [List.append_nil, List.replicate_succ' (n := k + 3)] at hwhole
  rw [if_pos hlength, hbody, h.1]
  simpa only [List.append_assoc] using hwhole

theorem IsClass.value_eq (h : l.IsClass negated inner close behind) :
    (¬ RunReachesClose l.raw close →
      l.value = '[' :: classSigil negated l.raw ++ inner ++ close) ∧
    (RunReachesClose l.raw close → l.value = '[' :: classSigil negated l.raw ++ inner) := by
  obtain ⟨hraw, hvalue, rfl, rfl, rfl⟩ | ⟨sigil, body, hs, hraw, rfl, hvalue, hextent⟩ := h
  · rw [hvalue, hraw]
    exact ⟨fun _ => rfl, fun h => nomatch h.1⟩
  · have hsigil : classSigil negated l.raw = sigil := by
      rw [hraw]
      rcases hs with ⟨rfl, rfl⟩ | ⟨rfl | rfl, rfl⟩ <;> rfl
    have hopening : Clear ('[' :: sigil) := by
      rcases hs with ⟨rfl, -⟩ | ⟨rfl | rfl, -⟩ <;> decide
    rw [hvalue, hsigil, hraw]
    exact ⟨value_of_not_reaches hopening hextent, value_of_reaches hopening⟩

end Classes

end Lexeme

/-- **The value of a class** is the bracket, the sigil, the inner text and what closes it, unless
the first run of backslashes goes on over what closes it: then the value ends with the inner
text. -/
theorem tokenize_class_value (options : Options) (pattern : List Char) :
    ∃ a, tokenize .unchanged options pattern = .ok a ∧
      ∀ n ∈ a.nodes, ∀ negated inner close, n.shape = .bracket negated inner close →
        (¬ Lexeme.RunReachesClose n.raw close →
          n.value = '[' :: Lexeme.classSigil negated n.raw ++ inner ++ close) ∧
        (Lexeme.RunReachesClose n.raw close →
          n.value = '[' :: Lexeme.classSigil negated n.raw ++ inner) := by
  obtain ⟨ls, h⟩ := exists_segments pattern
  refine ⟨_, tokenize_of_segments h options, ?_⟩
  intro n hn negated inner close hs
  exact (h.isClass_of_mem hn hs).value_eq

/-- The value of a bracket in front of four backslashes lacks the one that closes the class. -/
theorem tokenize_class_value_swallows :
    ∃ a, tokenize .unchanged {} "[a\\\\\\\\".toList = .ok a ∧
      ∃ n ∈ a.nodes, n.shape = .bracket false ['a', '\\', '\\'] ['\\'] ∧
        n.value ≠ '[' :: Lexeme.classSigil false n.raw ++ ['a', '\\', '\\'] ++ ['\\'] := by
  have h : Segments "[a\\\\\\\\".toList
      [⟨.bracket false ['a', '\\', '\\'] ['\\'], "[a\\\\".toList, "[a\\\\\\\\".toList⟩] :=
    .cons rfl .nil
  exact ⟨_, tokenize_of_segments h {}, _, List.mem_singleton_self _, rfl, by decide⟩

end GlobPattern
