import GlobPattern.Text.Lines
import Mathlib.Data.List.DropRight

/-!
# Ends of texts, and line breaks beside line feeds

What is taken off the end of a text reaches up to a character that stays. Lines end at many
characters, of which the line feed is one. A line break is stray if it is neither a line feed nor
the carriage return in front of one. As long as none is met there are as many lines as line feeds,
and behind the first one there is a line more.

* `Text.rdropWhile_append_of_forall`, `Text.rtakeWhile_append_of_forall`: an end of which all is
  taken off;
* `Text.prefix_rdropWhile`, `Text.rdropWhile_cons`: nothing goes that a character which stays stands
  behind or in front of;
* `Text.rdropWhile_append_cons`, `Text.exists_last`: the last character that stays;
* `Text.IsStray`, `Text.behindStray?`: the text behind the first stray break;
* `lines_cons_break`, `lines_cons_plain`: the lines of a text by its first character;
* **`drop_lines_append`**, **`drop_lines_stray`**: the lines behind as many as there are line feeds,
  in front of the first stray break and behind it;
* `lines_append_of_plain`: the first line;
* `text_mem_feedBreaks`: lines of carriage returns and line feeds alone are empty.
-/

namespace GlobPattern.Text

/-! ## The end of a text -/

section Ending

variable {q : Char → Bool} {s u v : List Char} {c : Char}

theorem rdropWhile_append_of_forall (h : ∀ c ∈ v, q c = true) :
    (u ++ v).rdropWhile q = u.rdropWhile q := by
  rw [List.rdropWhile, List.reverse_append,
    List.dropWhile_append_of_pos (by simpa using h), ← List.rdropWhile]

theorem rtakeWhile_append_of_forall (h : ∀ c ∈ v, q c = true) :
    (u ++ v).rtakeWhile q = u.rtakeWhile q ++ v := by
  rw [List.rtakeWhile, List.reverse_append,
    List.takeWhile_append_of_pos (by simpa using h), List.reverse_append, List.reverse_reverse,
    ← List.rtakeWhile]

theorem prefix_rdropWhile (h : ¬ q c = true) : u ++ [c] <+: (u ++ c :: v).rdropWhile q := by
  induction v using List.reverseRecOn with
  | nil => exact (List.rdropWhile_concat_neg _ _ _ h).symm ▸ List.prefix_rfl
  | append_singleton v d ih =>
    rw [← List.cons_append, ← List.append_assoc, List.rdropWhile_concat]
    split
    · exact ih
    · exact ⟨v ++ [d], by simp⟩

theorem rdropWhile_append_cons (h : ¬ q c = true) (hv : ∀ d ∈ v, q d = true) :
    (u ++ c :: v).rdropWhile q = u ++ [c] := by
  rw [List.append_cons, rdropWhile_append_of_forall hv, List.rdropWhile_concat_neg _ _ _ h]

theorem exists_last (h : ¬ q c = true) : ∃ u d v, c :: s = u ++ d :: v ∧ ¬ q d = true ∧
    ∀ e ∈ v, q e = true := by
  induction s using List.reverseRecOn with
  | nil => exact ⟨[], c, [], rfl, h, by simp⟩
  | append_singleton s d ih =>
    obtain ⟨u, e, v, hs, he, hv⟩ := ih
    by_cases hd : q d = true
    · refine ⟨u, e, v ++ [d], ?_, he, ?_⟩
      · rw [← List.cons_append, hs, List.append_assoc, List.cons_append]
      · simpa [or_imp, forall_and] using ⟨hv, hd⟩
    · exact ⟨c :: s, d, [], rfl, hd, by simp⟩

theorem rdropWhile_cons (h : ¬ q c = true) : (c :: s).rdropWhile q = c :: s.rdropWhile q := by
  induction s using List.reverseRecOn with
  | nil => simp [List.rdropWhile, h]
  | append_singleton s d ih =>
    rw [← List.cons_append, List.rdropWhile_concat, List.rdropWhile_concat, ih]
    split <;> rfl

end Ending

/-! ## Stray breaks -/

section StrayBreak

variable {a d e p r s t u : List Char} {b c : Char}

/-- The line break in front of a text is neither a line feed nor belongs to one. -/
structure IsStray (b : Char) (behind : List Char) : Prop where
  isLineBreak : isLineBreak b = true
  ne_feed : b ≠ '\n'
  not_pair : ¬ (b = '\r' ∧ behind.head? = some '\n')

/-- The text behind the first stray line break, if there is one. -/
def behindStray? : List Char → Option (List Char)
  | [] => none
  | '\r' :: '\n' :: r => behindStray? r
  | c :: r => if isLineBreak c ∧ c ≠ '\n' then some r else behindStray? r

/-- Nothing, or a text with a line feed at its end. -/
def EndsInFeed (u : List Char) : Prop := ∀ c ∈ u.getLast?, c = '\n'

/-! ### Lines by the first character -/

theorem lines_cons_break (hc : isLineBreak c = true) (h : ¬ (c = '\r' ∧ r.head? = some '\n')) :
    lines (c :: r) = ⟨[], [c]⟩ :: lines r := by
  rw [lines.eq_3 c r (by rintro s rfl rfl; exact h ⟨rfl, rfl⟩), if_pos hc]

theorem lines_cons_plain (hc : isLineBreak c = false) (r : List Char) :
    lines (c :: r) = match lines r with
      | [] => [⟨[c], []⟩]
      | l :: rest => { l with content := c :: l.content } :: rest := by
  have heq := lines.eq_3 c r (by rintro s rfl rfl; cases hc)
  rw [if_neg (by rw [hc]; decide)] at heq
  exact heq.trans (by cases lines r <;> rfl)

theorem drop_succ_lines_cons_plain (hc : isLineBreak c = false) (r : List Char) (k : Nat) :
    (lines (c :: r)).drop (k + 1) = (lines r).drop (k + 1) := by
  rw [lines_cons_plain hc]
  split <;> simp_all

theorem not_pair_of_forall (h : ∀ s, c = '\r' → r = '\n' :: s → False) :
    ¬ (c = '\r' ∧ r.head? = some '\n') := by
  rintro ⟨hc, hr⟩
  obtain ⟨s, rfl⟩ := List.head?_eq_some_iff.1 hr
  exact h s hc rfl

/-! ### The first stray break -/

theorem eq_feed_or_plain (h : ¬ (isLineBreak c = true ∧ c ≠ '\n')) :
    c = '\n' ∨ isLineBreak c = false := by
  by_cases hf : c = '\n'
  · exact .inl hf
  · exact .inr (Bool.not_eq_true _ ▸ fun hb => h ⟨hb, hf⟩)

theorem behindStray?_cons_of_not (h : ¬ (isLineBreak c = true ∧ c ≠ '\n')) (r : List Char) :
    behindStray? (c :: r) = behindStray? r := by
  rw [behindStray?.eq_3 c r (by rintro s rfl rfl; exact h (by decide)), if_neg h]

theorem IsStray.behindStray?_cons (h : IsStray b d) : behindStray? (b :: d) = some d := by
  rw [behindStray?.eq_3 b d (by rintro s rfl rfl; exact h.not_pair ⟨rfl, rfl⟩),
    if_pos ⟨h.isLineBreak, h.ne_feed⟩]

theorem exists_eq_of_behindStray? (h : behindStray? s = some d) :
    ∃ a b, s = a ++ b :: d ∧ behindStray? a = none ∧ IsStray b d := by
  fun_induction behindStray? s with
  | case1 => cases h
  | case2 r ih =>
    obtain ⟨a, b, rfl, ha, hb⟩ := ih h
    exact ⟨'\r' :: '\n' :: a, b, rfl, ha, hb⟩
  | case3 c r hpair hc =>
    cases h
    exact ⟨[], c, rfl, rfl, hc.1, hc.2, not_pair_of_forall hpair⟩
  | case4 c r _ hc ih =>
    obtain ⟨a, b, rfl, ha, hb⟩ := ih h
    exact ⟨c :: a, b, rfl, by rw [behindStray?_cons_of_not hc, ha], hb⟩

theorem behindStray?_append_cons (ha : behindStray? a = none) (hb : IsStray b d) :
    behindStray? (a ++ b :: d) = some d := by
  fun_induction behindStray? a with
  | case1 => exact hb.behindStray?_cons
  | case2 r ih => exact ih ha
  | case3 c r hpair hc => cases ha
  | case4 c r _ hc ih => rw [List.cons_append, behindStray?_cons_of_not hc, ih ha]

theorem IsStray.append (h : IsStray b d) (hd : d ≠ []) (t : List Char) : IsStray b (d ++ t) :=
  ⟨h.isLineBreak, h.ne_feed, by rw [List.head?_append_of_ne_nil _ hd]; exact h.not_pair⟩

theorem EndsInFeed.of_append (h : EndsInFeed (s ++ t)) : EndsInFeed t := by
  intro c hc
  apply h c
  rw [List.getLast?_append, hc]
  rfl

theorem EndsInFeed.of_cons (h : EndsInFeed (c :: r)) : EndsInFeed r :=
  of_append (s := [c]) h

theorem EndsInFeed.behind_stray (h : EndsInFeed (a ++ b :: d)) (hb : IsStray b d) :
    d ≠ [] ∧ EndsInFeed d := by
  refine ⟨?_, h.of_append.of_cons⟩
  rintro rfl
  exact hb.ne_feed (h.of_append b rfl)

/-- Behind a line feed the search for a stray break starts afresh. -/
theorem behindStray?_append (hu : EndsInFeed u) (t : List Char) :
    behindStray? (u ++ t) =
      match behindStray? u with
      | some d => some (d ++ t)
      | none => behindStray? t := by
  fun_induction behindStray? u with
  | case1 => rfl
  | case2 r ih => exact ih hu.of_cons.of_cons
  | case3 c r hpair hc =>
    -- the break is not the last character, so nothing of `t` makes a pair with it
    have hr : r ≠ [] := by
      rintro rfl
      exact hc.2 (hu c rfl)
    have hstray : IsStray c r := ⟨hc.1, hc.2, not_pair_of_forall hpair⟩
    exact (hstray.append hr t).behindStray?_cons
  | case4 c r _ hc ih =>
    rw [List.cons_append, behindStray?_cons_of_not hc]
    exact ih hu.of_cons

theorem isLineBreak_of_behindStray?_eq_none (hp : behindStray? p = none) (hf : '\n' ∉ p) :
    ∀ c ∈ p, isLineBreak c = false := by
  fun_induction behindStray? p with
  | case1 => simp
  | case2 r ih => simp at hf
  | case3 c r hpair hc => cases hp
  | case4 c r _ hc ih =>
    rw [List.mem_cons, not_or] at hf
    exact List.forall_mem_cons.2
      ⟨(eq_feed_or_plain hc).resolve_left (Ne.symm hf.1), ih hp hf.2⟩

/-! ### Lines and line feeds -/

theorem endsInFeed_rdropWhile (s : List Char) : EndsInFeed (s.rdropWhile (· != '\n')) := by
  intro c hc
  obtain ⟨h, rfl⟩ := List.mem_getLast?_eq_getLast hc
  simpa using List.rdropWhile_last_not _ _ h

theorem newline_notMem_rtakeWhile (s : List Char) : '\n' ∉ s.rtakeWhile (· != '\n') :=
  fun h => by simpa using List.mem_rtakeWhile_imp h

theorem count_rdropWhile (s : List Char) :
    (s.rdropWhile (· != '\n')).count '\n' = s.count '\n' := by
  conv_rhs => rw [← List.rdropWhile_append_rtakeWhile (p := (· != '\n')) (l := s)]
  rw [List.count_append, List.count_eq_zero.2 (newline_notMem_rtakeWhile s), Nat.add_zero]

theorem EndsInFeed.count_pos (h : EndsInFeed u) (hu : u ≠ []) : 0 < u.count '\n' := by
  obtain ⟨v, c, rfl⟩ := (List.eq_nil_or_concat' u).resolve_left hu
  obtain rfl : c = '\n' := h c (by simp)
  simp

/-- **Without stray breaks there are as many lines as line feeds.** -/
theorem drop_lines_append (hu : behindStray? u = none) (hl : EndsInFeed u) (t : List Char) :
    (lines (u ++ t)).drop (u.count '\n') = lines t := by
  fun_induction behindStray? u with
  | case1 => rfl
  | case2 r ih => simpa [lines] using ih hu hl.of_cons.of_cons
  | case3 c r hpair hc => cases hu
  | case4 c r _ hc ih =>
    have ih := ih hu hl.of_cons
    rcases eq_feed_or_plain hc with rfl | hplain
    · rw [List.cons_append, lines_cons_break (by decide) (by simp), List.count_cons_self,
        List.drop_succ_cons, ih]
    · have hf : c ≠ '\n' := by rintro rfl; cases hplain
      have hr : r ≠ [] := by
        rintro rfl
        exact hf (hl c rfl)
      have hpos := hl.of_cons.count_pos hr
      obtain ⟨k, hk⟩ := Nat.exists_eq_add_one.2 hpos
      rw [List.count_cons_of_ne hf, List.cons_append, hk,
        drop_succ_lines_cons_plain hplain, ← hk, ih]

/-- **The first stray break makes a line more than there are line feeds.** -/
theorem drop_lines_stray (ha : behindStray? a = none) (hb : IsStray b d) :
    (lines (a ++ b :: d)).drop (a.count '\n' + 1) = lines d := by
  fun_induction behindStray? a with
  | case1 => rw [List.nil_append, lines_cons_break hb.isLineBreak hb.not_pair]; rfl
  | case2 r ih => simpa [lines] using ih ha
  | case3 c r hpair hc => cases ha
  | case4 c r _ hc ih =>
    rcases eq_feed_or_plain hc with rfl | hplain
    · rw [List.cons_append, lines_cons_break (by decide) (by simp), List.count_cons_self,
        List.drop_succ_cons, ih ha]
    · have hf : c ≠ '\n' := by rintro rfl; cases hplain
      rw [List.count_cons_of_ne hf, List.cons_append, drop_succ_lines_cons_plain hplain, ih ha]

theorem lines_append_of_plain (hp : ∀ c ∈ p, isLineBreak c = false) {ending : List Char}
    {rest : List Line} (h : lines r = ⟨[], ending⟩ :: rest) :
    lines (p ++ r) = ⟨p, ending⟩ :: rest := by
  induction p with
  | nil => exact h
  | cons c p ih =>
    rw [List.forall_mem_cons] at hp
    rw [List.cons_append, lines_cons_plain hp.1, ih hp.2]

theorem lines_of_plain (hp : ∀ c ∈ p, isLineBreak c = false) (hne : p ≠ []) :
    lines p = [⟨p, []⟩] := by
  induction p with
  | nil => exact absurd rfl hne
  | cons c p ih =>
    rw [List.forall_mem_cons] at hp
    rw [lines_cons_plain hp.1]
    by_cases hnil : p = []
    · subst hnil
      rfl
    · rw [ih hp.2 hnil]

/-! ### Empty lines -/

/-- The lines that consist of a carriage return, a line feed or the pair of both. -/
def feedBreaks : List (List Char) := [['\n'], ['\r'], ['\r', '\n']]

theorem text_mem_feedBreaks (hs : ∀ c ∈ s, c = '\r' ∨ c = '\n') :
    ∀ l ∈ lines s, l.text ∈ feedBreaks := by
  fun_induction lines s with
  | case1 => simp
  | case2 r ih =>
    have ih := ih fun c hc => hs c (by simp [hc])
    simpa [Line.text, feedBreaks] using ih
  | case3 c r _ hc ih =>
    have ih := ih fun c hc => hs c (by simp [hc])
    rcases hs c (by simp) with rfl | rfl <;> simpa [Line.text, feedBreaks] using ih
  | case4 c r _ hc => rcases hs c (by simp) with rfl | rfl <;> exact absurd (by decide) hc
  | case5 c r _ hc => rcases hs c (by simp) with rfl | rfl <;> exact absurd (by decide) hc

/-- Carriage returns and line feeds in front of a text begin at least as many empty lines as there
are line feeds. -/
theorem text_mem_feedBreaks_of_take (he : ∀ c ∈ e, c = '\r' ∨ c = '\n') (hl : EndsInFeed e)
    (t : List Char) : ∀ l ∈ (lines (e ++ t)).take (e.count '\n'), l.text ∈ feedBreaks := by
  fun_induction lines e with
  | case1 => simp
  | case2 r ih =>
    have ih := ih (fun c hc => he c (by simp [hc])) hl.of_cons.of_cons
    simpa [lines, Line.text, feedBreaks] using ih
  | case3 c r hpair hc ih =>
    have ih := ih (fun c hc => he c (by simp [hc])) hl.of_cons
    rcases he c (by simp) with rfl | rfl
    · have hr : r ≠ [] := by
        rintro rfl
        exact absurd (hl '\r' rfl) (by decide)
      have hhead : ¬ ('\r' = '\r' ∧ (r ++ t).head? = some '\n') := by
        rw [List.head?_append_of_ne_nil _ hr]
        exact not_pair_of_forall hpair
      obtain ⟨k, hk⟩ := Nat.exists_eq_add_one.2 (hl.of_cons.count_pos hr)
      rw [hk] at ih
      rw [List.cons_append, lines_cons_break hc hhead, List.count_cons_of_ne (by decide), hk,
        List.take_succ_cons, List.forall_mem_cons]
      refine ⟨by decide, fun l hm => ih l ?_⟩
      exact (List.take_prefix_take_left (Nat.le_succ k)).subset hm
    · rw [List.cons_append, lines_cons_break hc (by simp), List.count_cons_self,
        List.take_succ_cons, List.forall_mem_cons]
      exact ⟨by decide, ih⟩
  | case4 c r _ hc => rcases he c (by simp) with rfl | rfl <;> exact absurd (by decide) hc
  | case5 c r _ hc => rcases he c (by simp) with rfl | rfl <;> exact absurd (by decide) hc

end StrayBreak

end GlobPattern.Text
