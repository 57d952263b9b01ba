import GlobPattern.Lexeme.CharClass
import GlobPattern.Lexeme.Recogniser
import Mathlib.Data.List.TakeWhile

/-!
# How far recognisers look ahead

Let a text `w` stand in front of `**/`, and another, the end, behind it. Most recognisers do not see
the end: they stop within three characters, or at a star or a slash. Three look on. A quote asks
whether it occurs again and where, a bracket looks for the one that closes it, or for the last
character that may, and a globstar takes all the repetitions that it finds. What these see does not
change with the end either, as long as it covers nothing behind `w` and the end keeps its quotes and
its closing brackets.

* `SameClosers`: two texts have the same quotes and closing brackets;
* `run_append_cons`, `runBefore_congr`: runs in front of another character;
* `escape?_congr` and its companions: recognisers that do not see the end;
* `globstar?_congr`, `quoted?_congr`, `bracket?_congr`: recognisers that look for it.
-/

namespace GlobPattern.Lexeme

/-- Two texts have the same quotes and closing brackets. -/
def SameClosers (v v' : List Char) : Prop := ∀ c ∈ ['"', '\'', ']'], c ∈ v' ↔ c ∈ v

variable {w v v' : List Char}

/-! ## Runs and their ends -/

section Runs

variable {c d : Char}

theorem takeWhile_append_cons {p : Char → Bool} (hd : p d = false) :
    (w ++ d :: v).takeWhile p = w.takeWhile p := by
  induction w with
  | nil => simp [hd]
  | cons c w ih => rw [List.cons_append, List.takeWhile_cons, List.takeWhile_cons, ih]

theorem run_append_cons (hd : d ≠ c) : run c (w ++ d :: v) = run c w :=
  takeWhile_append_cons (p := (· == c)) (beq_eq_false_iff_ne.2 hd)

theorem afterRun_append_cons (hd : d ≠ c) : afterRun c (w ++ d :: v) = afterRun c w ++ d :: v := by
  have h := run_append_afterRun c (w ++ d :: v)
  rw [run_append_cons hd] at h
  refine List.append_cancel_left (h.trans ?_)
  rw [← List.append_assoc, run_append_afterRun]

theorem runBefore_congr {claims : List Char} (hd : d ≠ c) :
    runBefore c claims (w ++ d :: v') = runBefore c claims (w ++ d :: v) := by
  unfold runBefore
  rw [run_append_cons hd, run_append_cons hd, afterRun_append_cons hd, afterRun_append_cons hd]
  cases afterRun c w <;> rfl

end Runs

/-! ## Recognisers that do not see the end -/

theorem exists_first_three (w : List Char) :
    ∃ a b c t, ∀ v, w ++ '*' :: '*' :: '/' :: v = a :: b :: c :: (t ++ v) := by
  rcases w with - | ⟨a, - | ⟨b, - | ⟨c, t⟩⟩⟩
  · exact ⟨'*', '*', '/', [], fun _ => rfl⟩
  · exact ⟨a, '*', '*', ['/'], fun _ => rfl⟩
  · exact ⟨a, b, '*', ['*', '/'], fun _ => rfl⟩
  · exact ⟨a, b, c, t ++ ['*', '*', '/'], fun v => by simp⟩

theorem escape?_congr {inBracket : Bool} : escape? inBracket (w ++ '*' :: '*' :: '/' :: v') =
    escape? inBracket (w ++ '*' :: '*' :: '/' :: v) := by
  obtain ⟨a, b, c, t, h⟩ := exists_first_three w
  rw [h, h]
  unfold escape?
  split
  · rfl
  · split <;> simp_all

theorem plus?_congr :
    plus? (w ++ '*' :: '*' :: '/' :: v') = plus? (w ++ '*' :: '*' :: '/' :: v) := by
  obtain ⟨a, b, c, t, h⟩ := exists_first_three w
  rw [h, h]
  by_cases ha : a = '+'
  · by_cases hb : b = '(' <;> simp [plus?, ha, hb]
  · simp [plus?, ha]

theorem slash?_congr :
    slash? (w ++ '*' :: '*' :: '/' :: v') = slash? (w ++ '*' :: '*' :: '/' :: v) := by
  obtain ⟨a, b, c, t, h⟩ := exists_first_three w
  rw [h, h]
  by_cases ha : a = '/' <;> simp [slash?, ha]

theorem square?_congr {inBracket : Bool} : square? inBracket (w ++ '*' :: '*' :: '/' :: v') =
    square? inBracket (w ++ '*' :: '*' :: '/' :: v) := by
  obtain ⟨a, b, c, t, h⟩ := exists_first_three w
  rw [h, h]
  by_cases ha : a = '['
  · by_cases hc : c = ']' <;> simp [square?, ha, hc]
  · simp [square?, ha]

theorem not?_congr {noNegate atStart : Bool} :
    not? noNegate atStart (w ++ '*' :: '*' :: '/' :: v') =
      not? noNegate atStart (w ++ '*' :: '*' :: '/' :: v) := by
  unfold not?
  rw [run_append_cons (by decide), run_append_cons (by decide)]

theorem dot?_congr {segmentStart : Bool} : dot? segmentStart (w ++ '*' :: '*' :: '/' :: v') =
    dot? segmentStart (w ++ '*' :: '*' :: '/' :: v) := by
  unfold dot?
  rw [run_append_cons (by decide), run_append_cons (by decide)]

theorem qmark?_congr {parsed : List Char} : qmark? parsed (w ++ '*' :: '*' :: '/' :: v') =
    qmark? parsed (w ++ '*' :: '*' :: '/' :: v) := by
  unfold qmark?
  rw [runBefore_congr (by decide)]

theorem backslash?_congr {inBracket : Bool} : backslash? inBracket (w ++ '*' :: '*' :: '/' :: v') =
    backslash? inBracket (w ++ '*' :: '*' :: '/' :: v) := by
  unfold backslash?
  rw [runBefore_congr (by decide)]

theorem star?_congr :
    star? (w ++ '*' :: '*' :: '/' :: v') = star? (w ++ '*' :: '*' :: '/' :: v) := by
  -- a run of stars may go on into the `**`, but it ends at the slash
  have h (v : List Char) : w ++ '*' :: '*' :: '/' :: v = (w ++ ['*', '*']) ++ '/' :: v := by simp
  have hs : ('/' : Char) ≠ '*' := by decide
  have hseg : isGlobstarSegment (w ++ ['*', '*'] ++ '/' :: v') =
      isGlobstarSegment (w ++ ['*', '*'] ++ '/' :: v) := by
    unfold isGlobstarSegment
    rw [run_append_cons hs, run_append_cons hs, afterRun_append_cons hs, afterRun_append_cons hs]
    cases afterRun '*' (w ++ ['*', '*']) <;> rfl
  rw [h, h, star?, star?, hseg, runBefore_congr hs]

theorem plainRun?_of_ne {a b : Char} {r : List Char} (h : ¬ (a = '*' ∧ b = '(')) :
    plainRun? (a :: b :: r) = if (a :: b :: r).takeWhile (!isStop ·) = [] then none
      else some ((a :: b :: r).takeWhile (!isStop ·)) := by
  rw [plainRun?]
  intro c t ht
  simp_all

theorem plainRun?_congr :
    plainRun? (w ++ '*' :: '*' :: '/' :: v') = plainRun? (w ++ '*' :: '*' :: '/' :: v) := by
  have h (v : List Char) : (w ++ '*' :: '*' :: '/' :: v).takeWhile (!isStop ·) =
      w.takeWhile (!isStop ·) := takeWhile_append_cons (by decide)
  have hw := h v'
  rw [← h v] at hw
  obtain ⟨a, b, c, t, hfirst⟩ := exists_first_three w
  rw [hfirst, hfirst] at hw ⊢
  by_cases hab : a = '*' ∧ b = '('
  · obtain ⟨rfl, rfl⟩ := hab
    rfl
  · rw [plainRun?_of_ne hab, plainRun?_of_ne hab, hw]

theorem text?_congr {inBracket : Bool} : text? inBracket (w ++ '*' :: '*' :: '/' :: v') =
    text? inBracket (w ++ '*' :: '*' :: '/' :: v) := by
  have h : (w ++ '*' :: '*' :: '/' :: v').take 1 = (w ++ '*' :: '*' :: '/' :: v).take 1 := by
    cases w <;> rfl
  rw [text?, text?, plainRun?_congr, h]

/-! ## Recognisers that look for the end -/

theorem repeats_cons {a b c : Char} {r : List Char} : repeats (a :: b :: c :: r) =
    if (a = '/' ∧ b = '*' ∧ c = '*') ∧ r.head? = some '/' then '/' :: '*' :: '*' :: repeats r
    else [] := by
  by_cases h : a = '/' ∧ b = '*' ∧ c = '*'
  · obtain ⟨rfl, rfl, rfl⟩ := h
    simp [repeats]
  · rw [if_neg fun hr => h hr.1, repeats]
    intro r hr
    simp_all

theorem repeats_congr {w : List Char}
    (h : (repeats (w ++ '*' :: '*' :: '/' :: v)).length ≤ w.length) :
    repeats (w ++ '*' :: '*' :: '/' :: v') = repeats (w ++ '*' :: '*' :: '/' :: v) := by
  match w with
  | [] => rfl
  | [a] =>
    change (repeats (a :: '*' :: '*' :: '/' :: v)).length ≤ 1 at h
    change repeats (a :: '*' :: '*' :: '/' :: v') = repeats (a :: '*' :: '*' :: '/' :: v)
    rw [repeats_cons] at h ⊢
    rw [repeats_cons]
    by_cases ha : a = '/'
    · simp [ha] at h
    · simp [ha]
  | [a, b] =>
    change repeats (a :: b :: '*' :: '*' :: '/' :: v') = repeats (a :: b :: '*' :: '*' :: '/' :: v)
    simp [repeats_cons]
  | a :: b :: c :: w =>
    simp only [List.cons_append] at h ⊢
    have hhead : (w ++ '*' :: '*' :: '/' :: v').head? = (w ++ '*' :: '*' :: '/' :: v).head? := by
      cases w <;> rfl
    rw [repeats_cons] at h
    rw [repeats_cons, repeats_cons, hhead]
    by_cases hr : (a = '/' ∧ b = '*' ∧ c = '*') ∧
        (w ++ '*' :: '*' :: '/' :: v).head? = some '/'
    · rw [if_pos hr] at h
      rw [if_pos hr, if_pos hr, repeats_congr (by simpa using h)]
    · rw [if_neg hr, if_neg hr]

theorem globstar?_congr {noGlobstar : Bool} {parsed : List Char} {inside : Enclosure} (hw : w ≠ [])
    (h : ∀ l ∈ globstar? noGlobstar parsed inside (w ++ '*' :: '*' :: '/' :: v),
      l.raw.length ≤ w.length) :
    globstar? noGlobstar parsed inside (w ++ '*' :: '*' :: '/' :: v') =
      globstar? noGlobstar parsed inside (w ++ '*' :: '*' :: '/' :: v) := by
  match w with
  | [] => exact absurd rfl hw
  | [a] =>
    have hnone (v : List Char) :
        globstar? noGlobstar parsed inside ([a] ++ '*' :: '*' :: '/' :: v) = none := by
      by_cases ha : a = '*' <;> simp [globstar?, endsSegment, ha]
    rw [hnone, hnone]
  | a :: b :: w =>
    have hends : endsSegment (w ++ '*' :: '*' :: '/' :: v') =
        endsSegment (w ++ '*' :: '*' :: '/' :: v) := by
      cases w <;> rfl
    by_cases hab : a = '*' ∧ b = '*'
    · obtain ⟨rfl, rfl⟩ := hab
      simp only [List.cons_append, globstar?, hends] at h ⊢
      by_cases he : endsSegment (w ++ '*' :: '*' :: '/' :: v) = true
      · rw [if_pos he] at h
        have hlen : (repeats (w ++ '*' :: '*' :: '/' :: v)).length ≤ w.length := by
          have := h _ rfl
          cases noGlobstar <;> simpa using this
        rw [repeats_congr hlen]
      · rw [if_neg he, if_neg he]
    · have hnone (r : List Char) : globstar? noGlobstar parsed inside (a :: b :: r) = none := by
        rw [globstar?]
        intro r hr
        simp_all
      exact (hnone _).trans (hnone _).symm

theorem quotation_congr {q : Char} {w : List Char}
    (h : (quotation q (w ++ '*' :: v)).2.length ≤ w.length) :
    quotation q (w ++ '*' :: v') = quotation q (w ++ '*' :: v) := by
  match w with
  | [] =>
    rw [List.nil_append, quotation_cons (by decide)] at h
    split at h <;> simp at h
  | a :: w =>
    rw [List.cons_append] at h ⊢
    rw [List.cons_append]
    by_cases ha : a = '\\'
    · subst ha
      cases w with
      | nil =>
        -- the backslash takes the star with it
        rw [List.nil_append, quotation_pair] at h
        simp at h
      | cons b w =>
        rw [List.cons_append, quotation_pair] at h
        rw [List.cons_append, List.cons_append, quotation_pair, quotation_pair,
          quotation_congr (by simpa using h)]
    · rw [quotation_cons ha] at h
      rw [quotation_cons ha, quotation_cons ha]
      by_cases hq : a = q
      · rw [if_pos hq, if_pos hq]
      · rw [if_neg hq] at h
        rw [if_neg hq, if_neg hq, quotation_congr (by simpa using h)]
termination_by w.length

theorem quoted?_congr (hc : SameClosers v v') (hw : w ≠ [])
    (h : ∀ l ∈ quoted? (w ++ '*' :: '*' :: '/' :: v), l.raw.length ≤ w.length) :
    quoted? (w ++ '*' :: '*' :: '/' :: v') = quoted? (w ++ '*' :: '*' :: '/' :: v) := by
  cases w with
  | nil => exact absurd rfl hw
  | cons q w =>
    rw [List.cons_append, quoted?] at h ⊢
    rw [List.cons_append, quoted?]
    by_cases hq : isQuote q = true
    · have hmem : q ∈ w ++ '*' :: '*' :: '/' :: v' ↔ q ∈ w ++ '*' :: '*' :: '/' :: v := by
        have : q ∈ ['"', '\'', ']'] := by
          rcases Bool.or_eq_true_iff.1 hq with hq | hq <;> simp [beq_iff_eq.1 hq]
        simp only [List.mem_append, List.mem_cons, hc q this]
      rw [if_pos hq] at h
      rw [if_pos hq, if_pos hq]
      by_cases hr : q ∈ w ++ '*' :: '*' :: '/' :: v
      · rw [if_pos hr] at h
        rw [if_pos hr, if_pos (hmem.2 hr)]
        have hlen := h _ rfl
        rw [quotation_congr (v := '*' :: '/' :: v) (by simpa using hlen)]
      · rw [if_neg hr, if_neg (mt hmem.1 hr)]
    · rw [if_neg hq, if_neg hq]

theorem exists_openBody? (w v : List Char) :
    ∃ b, openBody? (w ++ '*' :: '*' :: '/' :: v) = some b ∧
      w.length < (b.body ++ b.close).length := by
  have hdrop (s : List Char) : ∃ t, (s ++ '/' :: '*' :: '*' :: w.reverse).dropWhile isRepeater =
      t ++ '/' :: '*' :: '*' :: w.reverse := by
    induction s with
    | nil => exact ⟨[], rfl⟩
    | cons c s ih =>
      rw [List.cons_append, List.dropWhile_cons]
      split
      · exact ih
      · exact ⟨c :: s, rfl⟩
  obtain ⟨t, ht⟩ := hdrop v.reverse
  have hr : (w ++ '*' :: '*' :: '/' :: v).reverse =
      v.reverse ++ '/' :: '*' :: '*' :: w.reverse := by simp
  rw [openBody?, hr, ht]
  rcases t with - | ⟨c, - | ⟨d, t⟩⟩
  · exact ⟨_, rfl, by simp⟩
  · exact ⟨_, rfl, by simp⟩
  · exact ⟨_, rfl, by simp⟩

theorem hyphenClose?_congr : hyphenClose? (w ++ '*' :: v') = hyphenClose? (w ++ '*' :: v) := by
  have h : (w ++ '*' :: v').takeWhile (!isRepeater ·) =
      (w ++ '*' :: v).takeWhile (!isRepeater ·) := by
    rw [takeWhile_append_cons (by decide), takeWhile_append_cons (by decide)]
  cases w with
  | nil => rfl
  | cons a w =>
    by_cases ha : a = ']'
    · rw [ha]
      rfl
    · rw [List.cons_append, List.cons_append] at *
      rw [hyphenClose?, hyphenClose?, h]
      all_goals
        intro r hr
        exact ha (List.cons.inj hr).1

theorem classBody?_of_head? {s : List Char} (hs : s.head? ≠ some ']') : classBody? s =
    if ']' ∈ s then some ⟨s.takeWhile (· != ']'), [']']⟩ else openBody? s := by
  rw [classBody?]
  all_goals
    intro r hr
    rw [hr] at hs
    exact hs rfl

theorem takeWhile_bne_congr {c d : Char}
    (h : ((w ++ d :: v).takeWhile (· != c)).length < w.length) :
    (w ++ d :: v').takeWhile (· != c) = (w ++ d :: v).takeWhile (· != c) := by
  have hm : c ∈ w := by
    by_contra hm
    have hw : ∀ e ∈ w, (e != c) = true := fun e he => bne_iff_ne.2 fun hc => hm (hc ▸ he)
    rw [List.takeWhile_append_of_pos hw, List.length_append] at h
    omega
  obtain ⟨s, t, rfl⟩ := List.append_of_mem hm
  have hp : (c != c) = false := bne_self_eq_false c
  rw [List.append_assoc, List.append_assoc, List.cons_append, List.cons_append,
    takeWhile_append_cons (p := (· != c)) hp, takeWhile_append_cons (p := (· != c)) hp]

/-- A class that ends within a text ends there in front of every text with closing brackets, and in
front of every one without them. -/
theorem classBody?_congr (hc : ']' ∈ v' ↔ ']' ∈ v)
    (h : ∀ b ∈ classBody? (w ++ '*' :: '*' :: '/' :: v), (b.body ++ b.close).length ≤ w.length) :
    classBody? (w ++ '*' :: '*' :: '/' :: v') = classBody? (w ++ '*' :: '*' :: '/' :: v) := by
  by_cases hw : w.head? = some ']'
  · obtain ⟨w, rfl⟩ := List.head?_eq_some_iff.1 hw
    rcases w with - | ⟨b, w⟩
    · rfl
    · by_cases hb : b = '-'
      · rw [hb]
        change (hyphenClose? (w ++ _)).map _ = (hyphenClose? (w ++ _)).map _
        rw [hyphenClose?_congr (v := '*' :: '/' :: v)]
      · simp [classBody?, hb]
  · have hhead (v : List Char) : (w ++ '*' :: '*' :: '/' :: v).head? ≠ some ']' := by
      cases w with
      | nil => simp
      | cons a w => exact hw
    have hmem : ']' ∈ w ++ '*' :: '*' :: '/' :: v' ↔ ']' ∈ w ++ '*' :: '*' :: '/' :: v := by
      simp only [List.mem_append, List.mem_cons, hc]
    rw [classBody?_of_head? (hhead v)] at h
    rw [classBody?_of_head? (hhead v), classBody?_of_head? (hhead v')]
    by_cases hr : ']' ∈ w ++ '*' :: '*' :: '/' :: v
    · rw [if_pos hr] at h
      have hlen := h _ rfl
      rw [List.length_append] at hlen
      rw [if_pos hr, if_pos (hmem.2 hr), takeWhile_bne_congr (v := '*' :: '/' :: v) hlen]
    · rw [if_neg hr] at h
      obtain ⟨b, hb, hlong⟩ := exists_openBody? w v
      exact absurd (h b hb) (Nat.not_le.2 hlong)

theorem negatedClass?_congr (hc : ']' ∈ v' ↔ ']' ∈ v)
    (h : ∀ l ∈ negatedClass? (w ++ '*' :: '*' :: '/' :: v), l.raw.length ≤ w.length + 1) :
    negatedClass? (w ++ '*' :: '*' :: '/' :: v') = negatedClass? (w ++ '*' :: '*' :: '/' :: v) := by
  cases w with
  | nil => rfl
  | cons c w =>
    rw [List.cons_append, negatedClass?] at h ⊢
    rw [List.cons_append, negatedClass?]
    by_cases hs : isSigil c = true
    · rw [if_pos hs] at h
      rw [if_pos hs, if_pos hs, classBody?_congr hc]
      intro b hb
      have := h (ofClass ['[', c] true b) (by rw [hb]; rfl)
      simp [ofClass] at this ⊢
      omega
    · rw [if_neg hs, if_neg hs]

theorem bracket?_congr (hc : ']' ∈ v' ↔ ']' ∈ v) (hw : w ≠ [])
    (h : ∀ l ∈ bracket? (w ++ '*' :: '*' :: '/' :: v), l.raw.length ≤ w.length) :
    bracket? (w ++ '*' :: '*' :: '/' :: v') = bracket? (w ++ '*' :: '*' :: '/' :: v) := by
  cases w with
  | nil => exact absurd rfl hw
  | cons a w =>
    by_cases ha : a = '['
    · subst ha
      rw [List.cons_append, bracket?] at h ⊢
      rw [List.cons_append, bracket?]
      have hlen := h _ rfl
      have hn : negatedClass? (w ++ '*' :: '*' :: '/' :: v') =
          negatedClass? (w ++ '*' :: '*' :: '/' :: v) := by
        apply negatedClass?_congr hc
        intro l hl
        rw [hl] at hlen
        exact hlen
      rw [hn]
      cases hl : negatedClass? (w ++ '*' :: '*' :: '/' :: v) with
      | some l => rfl
      | none =>
        rw [hl, Option.getD_none] at hlen
        rw [Option.getD_none, Option.getD_none, classBody?_congr hc]
        intro b hb
        rw [hb] at hlen
        simp [ofClass] at hlen ⊢
        omega
    · have hnone (r : List Char) : bracket? (a :: r) = none := by
        rw [bracket?]
        intro r hr
        simp_all
      exact (hnone _).trans (hnone _).symm

end GlobPattern.Lexeme
