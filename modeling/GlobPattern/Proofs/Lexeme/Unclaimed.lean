import GlobPattern.Proofs.Lexeme.Language
import GlobPattern.Lexeme.Recogniser
import Mathlib.Data.List.TakeWhile

/-!
# What the recognisers leave

A recogniser that is silent in front of a character of its own says what follows: the end of the
pattern behind a backslash, and a parenthesis behind `?`, `+` and `*`. So little is left to the two
recognisers that take anything: backslashes are single and last, and plain text begins with a stop
character only in front of a parenthesis.

* `eq_nil_of_escape?_eq_none`, `head?_of_plus?_eq_none`, `head?_of_star?_eq_none`: what a silent
  recogniser says of the text;
* `plus?_eq_none_iff` and its companions: when a recogniser is silent in front of its character;
* **`inLanguage_of_backslash?`**, **`isPlain_of_text?`**.
-/

namespace GlobPattern.Lexeme

variable {front t r behind p : List Char} {l : Lexeme} {options : Options}

/-! ## Silent recognisers -/

theorem bracket?_ne_none : bracket? ('[' :: t) ≠ none := Option.some_ne_none _

theorem slash?_ne_none : slash? ('/' :: t) ≠ none := Option.some_ne_none _

theorem not?_ne_none {b a : Bool} : not? b a ('!' :: t) ≠ none := by
  rw [not?, run_cons_self]
  exact Option.some_ne_none _

theorem dot?_ne_none {b : Bool} : dot? b ('.' :: t) ≠ none := by
  rw [dot?, run_cons_self]
  exact Option.some_ne_none _

theorem quoted?_ne_none {q : Char} (hq : isQuote q = true) : quoted? (q :: t) ≠ none := by
  rw [quoted?, if_pos hq]
  split
  · exact Option.some_ne_none _
  · exact Option.some_ne_none _

theorem eq_nil_of_escape?_eq_none (h : escape? false ('\\' :: t) = none) : t = [] := by
  cases t with
  | nil => rfl
  | cons d t => cases h

theorem head?_of_plus?_eq_none (h : plus? ('+' :: t) = none) : t.head? = some '(' := by
  unfold plus? at h
  split at h
  · next hr =>
    cases hr
    rfl
  · cases h
  · next hn => exact absurd rfl (hn t)

theorem globstar?_ne_none {b : Bool} {e : Enclosure} (h : isGlobstarSegment r = true) :
    globstar? b p e r ≠ none := by
  obtain ⟨hrun, hafter⟩ := Bool.and_eq_true_iff.1 h
  have hr : r = '*' :: '*' :: afterRun '*' r := by
    have := run_append_afterRun '*' r
    rw [eq_of_beq hrun] at this
    exact this.symm
  have hends : endsSegment (afterRun '*' r) = true := by
    cases hc : afterRun '*' r with
    | nil => rfl
    | cons d u =>
      have hd : d = '/' := by simpa [hc] using hafter
      rw [hd]
      rfl
  rw [hr, globstar?, if_pos hends]
  exact Option.some_ne_none _

theorem head?_of_star?_eq_none {b : Bool} {e : Enclosure}
    (hg : globstar? b p e ('*' :: t) = none) (hs : star? ('*' :: t) = none) :
    t.head? = some '(' := by
  unfold star? at hs
  split at hs
  · next hseg => exact absurd hg (globstar?_ne_none hseg)
  · obtain ⟨d, hd, ht⟩ := exists_claim_of_runBefore_eq_nil (plain?_eq_none.1 hs)
    rwa [List.mem_singleton.1 hd] at ht

theorem escape?_anchor_eq_none_iff {b : Bool} {c : Char} (hc : c ∈ ['$', '^']) :
    escape? b (c :: t) = none ↔ b = true := by
  simp only [List.mem_cons, List.not_mem_nil, or_false] at hc
  rcases hc with rfl | rfl <;> cases b <;> simp [escape?]

theorem runBefore_eq_nil_iff {c : Char} {claims : List Char} (hc : c ∉ claims) :
    runBefore c claims (c :: t) = [] ↔ ∃ d ∈ claims, t.head? = some d := by
  refine ⟨exists_claim_of_runBefore_eq_nil, ?_⟩
  rintro ⟨d, hd, ht⟩
  obtain ⟨u, rfl⟩ := List.head?_eq_some_iff.1 ht
  have hne : (d == c) = false := beq_eq_false_iff_ne.2 fun h => hc (h ▸ hd)
  simp [runBefore, afterRun, run, hne, hd]

theorem plus?_eq_none_iff : plus? ('+' :: t) = none ↔ t.head? = some '(' := by
  refine ⟨head?_of_plus?_eq_none, fun h => ?_⟩
  obtain ⟨u, rfl⟩ := List.head?_eq_some_iff.1 h
  rfl

theorem qmark?_eq_none_iff : qmark? p ('?' :: t) = none ↔ t.head? = some '(' := by
  rw [qmark?, plain?_eq_none, runBefore_eq_nil_iff (by decide)]
  simp

theorem stars_eq_none_iff {b : Bool} {e : Enclosure} :
    (globstar? b p e ('*' :: t) = none ∧ star? ('*' :: t) = none) ↔ t.head? = some '(' := by
  refine ⟨fun h => head?_of_star?_eq_none h.1 h.2, fun h => ?_⟩
  obtain ⟨u, rfl⟩ := List.head?_eq_some_iff.1 h
  refine ⟨rfl, ?_⟩
  have hseg : isGlobstarSegment ('*' :: '(' :: u) = false := by simp [isGlobstarSegment, run]
  rw [star?, hseg, if_neg Bool.false_ne_true, plain?_eq_none, runBefore_eq_nil_iff (by decide)]
  exact ⟨'(', by decide, rfl⟩

/-- Outside of bracket contexts a backslash is taken with the character behind it, or alone. Inside
only a single backslash is left, to the character that keeps it. -/
theorem backslashes_eq_none_iff {b : Bool} :
    (escape? b ('\\' :: t) = none ∧ backslash? b ('\\' :: t) = none) ↔
      b = true ∧ ∃ d ∈ escapable, t.head? = some d := by
  cases b with
  | false =>
    refine iff_of_false ?_ (by simp)
    rintro ⟨he, hb⟩
    rw [eq_nil_of_escape?_eq_none he] at hb
    cases hb
  | true =>
    rw [← runBefore_eq_nil_iff (c := '\\') (by decide)]
    simp [escape?, backslash?]

/-! ## What is left -/

/-- **A backslash that escapes nothing is the last character.** -/
theorem inLanguage_of_backslash? (h : backslash? false r = some l)
    (he : escape? false r = none) (hr : l.raw ++ behind = r) :
    l.InLanguage options front behind := by
  have hraw : runBefore '\\' escapable r ≠ [] := by
    intro hn
    rw [backslash?, if_pos hn] at h
    cases h
  obtain ⟨t, rfl⟩ := exists_cons_of_run_ne_nil (run_ne_nil_of_runBefore_ne_nil hraw)
  obtain rfl := eq_nil_of_escape?_eq_none he
  cases h
  exact ⟨rfl, rfl, (List.cons.inj hr).2⟩

theorem isPlain_of_plainRun? {u : List Char} (h : plainRun? r = some u) (hr : u ++ behind = r) :
    IsPlain (plain .text u) behind := by
  refine ⟨rfl, ?_⟩
  have hu := (plainRun?_isPrefix h).1
  unfold plainRun? at h
  split at h
  · next d rest =>
    cases h
    have hb : behind = d :: rest := List.append_cancel_left hr
    exact .inr (.inl ⟨rfl, by rw [hb]; exact List.cons_ne_nil _ _⟩)
  · dsimp only at h
    split at h
    · cases h
    · cases h
      have hb : behind = r.dropWhile (!isStop ·) :=
        List.append_cancel_left (hr.trans List.takeWhile_append_dropWhile.symm)
      refine .inl ⟨hu, ?_, ?_⟩
      · intro c hc
        simpa using List.mem_takeWhile_imp hc
      · intro c hc
        have := List.head?_dropWhile_not (!isStop ·) r
        rw [← hb, Option.mem_def.1 hc] at this
        simpa using this

theorem isStop_of_plainRun?_eq_none {c : Char} (h : plainRun? (c :: t) = none) :
    isStop c = true := by
  by_contra hc
  unfold plainRun? at h
  split at h
  · cases h
  · simp [hc] at h

/-- **Plain text is plain**, if the other recognisers leave no text that begins with a stop
character, unless a marker of a group opens it. -/
theorem isPlain_of_text? (h : text? false r = some l) (hr : l.raw ++ behind = r)
    (hstop : ∀ c t, r = c :: t → isStop c = true →
      (c = '?' ∨ c = '+' ∨ c = '*') ∧ t.head? = some '(') : IsPlain l behind := by
  obtain ⟨hn, rfl⟩ := plain?_eq_some.1 h
  cases hp : plainRun? r with
  | some u =>
    rw [hp] at hr
    exact isPlain_of_plainRun? hp hr
  | none =>
    rw [hp] at hr hn
    cases r with
    | nil => exact absurd rfl hn
    | cons c t =>
      obtain rfl : behind = t := (List.cons.inj hr).2
      obtain ⟨hmark, hopen⟩ := hstop c behind rfl (isStop_of_plainRun?_eq_none hp)
      refine ⟨rfl, ?_⟩
      rcases hmark with rfl | rfl | rfl
      · exact .inr (.inr (.inl ⟨.inl rfl, hopen⟩))
      · exact .inr (.inr (.inl ⟨.inr rfl, hopen⟩))
      · -- in front of more text the parenthesis would be taken with the star
        refine .inr (.inr (.inr ⟨rfl, ?_⟩))
        obtain ⟨u, rfl⟩ := List.head?_eq_some_iff.1 hopen
        cases u with
        | nil => rfl
        | cons d u => cases hp

end GlobPattern.Lexeme
