import GlobPattern.Ast
import GlobPattern.Lexeme.CharClass
import GlobPattern.Lexeme.Recogniser
import Mathlib.Data.List.Infix
import Mathlib.Data.List.TakeWhile

/-!
# The language of lexemes

Each kind of lexeme has its own language: the raw texts that it may have, the value that each of
them stands for, and what may stand behind it. The languages are said here without the recognisers.
What a recogniser accepts in front of some text is in the language of its kind. Two recognisers are
missing: that of backslashes and that of plain text accept more, and only the rules before them keep
them within the language.

* `Lexeme.IsRun`, `Lexeme.IsGlobstar`: the raw texts of runs and of globstars;
* `Lexeme.FoldCount`: how many repetitions a globstar takes;
* `Lexeme.Unquotes`: what a text between quotes stands for;
* `Lexeme.IsEscape`, `Lexeme.IsQuotation`, `Lexeme.IsPlain`: escapes, quotations, plain text;
* `Lexeme.ClassExtent`, `Lexeme.IsClass`: character classes;
* `Lexeme.InLanguage`: the language of every kind;
* runs: `isRun_run`, `isRun_runBefore`, `head?_behind_run`, `head?_behind_runBefore`;
* globstars: `exists_foldCount`, `head?_behind_repeats`;
* quotations: `unquotes_quotation`;
* classes: `classExtent_of_classBody?`;
* `inLanguage_of_escape?` and its companions.
-/

namespace GlobPattern.Lexeme

/-! ## Languages -/

/-- One or more characters, all of them `c`. -/
def IsRun (c : Char) (raw : List Char) : Prop := raw ≠ [] ∧ ∀ d ∈ raw, d = c

/-- Two stars and any number of repetitions of `/**`. -/
def IsGlobstar (raw : List Char) : Prop :=
  ∃ n, raw = '*' :: '*' :: (List.replicate n ['/', '*', '*']).flatten

/-- Repetitions of `/**`. -/
def folds (m : Nat) : List Char := (List.replicate m ['/', '*', '*']).flatten

/-- The largest number of repetitions of `/**` in front of a further slash with which `t` begins,
zero if it begins with none. -/
structure FoldCount (t : List Char) (m : Nat) : Prop where
  starts : m = 0 ∨ folds m ++ ['/'] <+: t
  largest : ∀ j, folds j ++ ['/'] <+: t → j ≤ m

/-- A backslash with any character, which it stands for; one of the anchors `$` and `^`; or a quote
that does not occur again. -/
def IsEscape (l : Lexeme) (behind : List Char) : Prop :=
  (∃ c, l.raw = ['\\', c] ∧ l.value = [c]) ∨
  (l.value = l.raw ∧ (l.raw = ['$'] ∨ l.raw = ['^'])) ∨
  ∃ q, isQuote q = true ∧ l.raw = [q] ∧ l.value = [q] ∧ q ∉ behind

/-- A text in which `q` occurs only behind a backslash, with what it stands for: a backslash and
the character behind it stand for that character. -/
inductive Unquotes (q : Char) : List Char → List Char → Prop
  | nil : Unquotes q [] []
  | pair (c : Char) {body value : List Char} (h : Unquotes q body value) :
      Unquotes q ('\\' :: c :: body) (c :: value)
  | char {c : Char} {body value : List Char} (hq : c ≠ q) (hb : c ≠ '\\')
      (h : Unquotes q body value) : Unquotes q (c :: body) (c :: value)

/-- A quote, a text in which it occurs only behind a backslash, and the quote again. Without the
second quote the lexeme is the last one, and a lone backslash at its end stands for itself. -/
def IsQuotation (l : Lexeme) (behind : List Char) : Prop :=
  ∃ q body value, isQuote q = true ∧ Unquotes q body value ∧
    ((l.raw = q :: body ++ [q] ∧ l.value = value) ∨
      (l.raw = q :: body ∧ l.value = value ∧ behind = []) ∨
      (l.raw = q :: body ++ ['\\'] ∧ l.value = value ++ ['\\'] ∧ behind = []))

/-- How far a class reaches behind its bracket and its sigil: up to its first closing bracket; or,
if no closing bracket follows, up to the last character that is no repeater; or, if it begins with
`]-`, over one closing bracket or all characters up to a repeater. -/
def ClassExtent (body close behind : List Char) : Prop :=
  (body ≠ [] ∧ ']' ∉ body ∧ close = [']']) ∨
  (body ≠ [] ∧ ']' ∉ body ++ close ++ behind ∧ (∃ c, close = [c] ∧ isRepeater c = false) ∧
    ∀ d ∈ behind, isRepeater d = true) ∨
  (body = [']', '-'] ∧ (close = [']'] ∨
    (close ≠ [] ∧ close.head? ≠ some ']' ∧ (∀ d ∈ close, isRepeater d = false) ∧
      ∀ d ∈ behind.head?, isRepeater d = true)))

/-- Either a bracket that opens no class, or a bracket, possibly a sigil that negates, a body and
what closes it. The inner text is the body with its first run of backslashes collapsed, and the
value is the raw text, collapsed in the same way if that shortens the body. -/
def IsClass (l : Lexeme) (negated : Bool) (inner close behind : List Char) : Prop :=
  (l.raw = ['['] ∧ l.value = ['['] ∧ negated = false ∧ inner = [] ∧ close = []) ∨
  ∃ sigil body,
    ((sigil = [] ∧ negated = false) ∨ ((sigil = ['!'] ∨ sigil = ['^']) ∧ negated = true)) ∧
    l.raw = '[' :: sigil ++ body ++ close ∧ inner = collapse body ∧
    l.value = (if inner.length < body.length then collapse l.raw else l.raw) ∧
    ClassExtent body close behind

/-- A run without stop characters that is as long as it can be; `*(` in front of more text; or a
single marker of a group, `?` or `+` in front of a parenthesis and `*` in front of one that ends
the pattern. -/
def IsPlain (l : Lexeme) (behind : List Char) : Prop :=
  l.value = l.raw ∧
  ((l.raw ≠ [] ∧ (∀ c ∈ l.raw, isStop c = false) ∧ ∀ c ∈ behind.head?, isStop c = true) ∨
    (l.raw = ['*', '('] ∧ behind ≠ []) ∨
    ((l.raw = ['?'] ∨ l.raw = ['+']) ∧ behind.head? = some '(') ∨
    (l.raw = ['*'] ∧ behind = ['(']))

/-- The lexical grammar: what a lexeme between `front` and `behind` may look like. -/
def InLanguage (options : Options) (front : List Char) (l : Lexeme) (behind : List Char) : Prop :=
  match l.shape with
  | .escape => IsEscape l behind
  | .quoted => IsQuotation l behind
  | .not _ => IsRun '!' l.raw ∧ behind.head? ≠ some '!' ∧
      l.value = if front = [] ∧ (l.raw.length % 2 = 0 ∨ options.noNegate = false) then [] else l.raw
  | .dot _ => IsRun '.' l.raw ∧ behind.head? ≠ some '.' ∧ l.value = l.raw
  | .plus => l.raw = ['+'] ∧ l.value = ['+']
  | .qmark _ => IsRun '?' l.raw ∧ l.value = l.raw
  | .globstar _ _ => options.noGlobstar = false ∧ IsGlobstar l.raw ∧ l.value = ['*', '*']
  | .star => (IsRun '*' l.raw ∧ l.value = l.raw) ∨
      (options.noGlobstar = true ∧ IsGlobstar l.raw ∧ l.value = ['*'])
  | .slash => l.raw = ['/'] ∧ l.value = ['/']
  | .backslash => l.raw = ['\\'] ∧ l.value = ['\\'] ∧ behind = []
  | .square => ∃ c, c ∉ ['!', '^', '\\'] ∧ l.raw = ['[', c, ']'] ∧ l.value = [c]
  | .bracket negated inner close => IsClass l negated inner close behind ∧
      ∀ c, l.raw = ['[', c, ']'] → c ∈ ['!', '^', '\\']
  | .text => IsPlain l behind

/-! ## Recognised lexemes -/

variable {front r behind : List Char} {l : Lexeme} {options : Options}

/-! ### Runs -/

theorem eq_of_mem_run {c d : Char} (h : d ∈ run c r) : d = c := by
  simpa using List.mem_takeWhile_imp h

theorem isRun_run {c : Char} (h : run c r ≠ []) : IsRun c (run c r) :=
  ⟨h, fun _ hd => eq_of_mem_run hd⟩

theorem isRun_runBefore {c : Char} {claims : List Char} (h : runBefore c claims r ≠ []) :
    IsRun c (runBefore c claims r) := by
  refine ⟨h, fun d hd => eq_of_mem_run (r := r) ?_⟩
  unfold runBefore at hd
  split at hd
  · split at hd
    · exact List.mem_of_mem_dropLast hd
    · exact hd
  · exact hd

theorem head?_behind_run {c : Char} (h : run c r ++ behind = r) : behind.head? ≠ some c := by
  have hb : behind = afterRun c r :=
    List.append_cancel_left (h.trans (run_append_afterRun c r).symm)
  rw [hb, afterRun]
  intro hc
  have hd := List.head?_dropWhile_not (· == c) r
  rw [hc] at hd
  simp at hd

theorem head?_behind_runBefore {c d : Char} {claims : List Char} (hc : c ∉ claims)
    (hd : d ∈ claims) (h : runBefore c claims r ≠ []) :
    (r.drop (runBefore c claims r).length).head? ≠ some d := by
  have hne := run_ne_nil_of_runBefore_ne_nil h
  have hlast : (run c r).dropLast ++ [c] = run c r := by
    have hc := eq_of_mem_run (List.getLast_mem hne)
    have happend := List.dropLast_append_getLast hne
    rwa [hc] at happend
  unfold runBefore
  split
  · next e rest he =>
    split
    · -- the last character of the run stays
      have hr := run_append_afterRun c r
      rw [he, ← hlast, List.append_assoc] at hr
      have hcut := congrArg (List.drop (run c r).dropLast.length) hr
      rw [List.drop_left] at hcut
      rw [← hcut]
      exact fun hcd => hc (Option.some.inj hcd ▸ hd)
    · next hmem =>
      rw [drop_length_run, he]
      exact fun hed => hmem (Option.some.inj hed ▸ hd)
  · next he =>
    rw [drop_length_run, he]
    exact nofun

/-! ### Markers -/

theorem inLanguage_of_escape? {b : Bool} (h : escape? b r = some l) :
    l.InLanguage options front behind := by
  unfold escape? at h
  split at h
  · cases h
  · split at h <;> cases h
    · exact .inl ⟨_, rfl, rfl⟩
    · exact .inr (.inl ⟨rfl, .inl rfl⟩)
    · exact .inr (.inl ⟨rfl, .inr rfl⟩)

theorem inLanguage_of_not? {first : Bool} (hf : first = true ↔ front = [])
    (h : not? options.noNegate first r = some l) (hr : l.raw ++ behind = r) :
    l.InLanguage options front behind := by
  unfold not? at h
  dsimp only at h
  split at h
  · cases h
  · next hn =>
    cases h
    refine ⟨isRun_run hn, head?_behind_run hr, ?_⟩
    have hv : (first && !((run '!' r).length % 2 == 1 && options.noNegate)) = true ↔
        front = [] ∧ ((run '!' r).length % 2 = 0 ∨ options.noNegate = false) := by
      rw [← hf]
      cases options.noNegate <;> simp
    simp only [hv]

theorem inLanguage_of_dot? {b : Bool} (h : dot? b r = some l) (hr : l.raw ++ behind = r) :
    l.InLanguage options front behind := by
  obtain ⟨hn, rfl⟩ := plain?_eq_some.1 h
  exact ⟨isRun_run hn, head?_behind_run hr, rfl⟩

theorem inLanguage_of_plus? (h : plus? r = some l) : l.InLanguage options front behind := by
  unfold plus? at h
  split at h <;> cases h
  exact ⟨rfl, rfl⟩

theorem inLanguage_of_slash? (h : slash? r = some l) : l.InLanguage options front behind := by
  unfold slash? at h
  split at h <;> cases h
  exact ⟨rfl, rfl⟩

/-! ### Wildcards -/

theorem inLanguage_of_qmark? {p : List Char} (h : qmark? p r = some l) :
    l.InLanguage options front behind := by
  obtain ⟨hn, rfl⟩ := plain?_eq_some.1 h
  exact ⟨isRun_runBefore hn, rfl⟩

theorem folds_succ (m : Nat) : folds (m + 1) = '/' :: '*' :: '*' :: folds m := rfl

theorem head?_folds_append (m : Nat) : (folds m ++ ['/']).head? = some '/' := by
  cases m <;> rfl

theorem head?_eq_of_folds {m : Nat} (h : folds m ++ ['/'] <+: r) : r.head? = some '/' := by
  obtain ⟨s, rfl⟩ := h
  rw [List.head?_append_of_ne_nil _ (by simp), head?_folds_append]

/-- **What is folded are all repetitions that a further slash follows.** -/
theorem exists_foldCount (r : List Char) : ∃ m, FoldCount r m ∧ repeats r = folds m := by
  fun_induction repeats r with
  | case1 r hr ih =>
    obtain ⟨m, hm, heq⟩ := ih
    obtain ⟨s, rfl⟩ := List.head?_eq_some_iff.1 hr
    refine ⟨m + 1, ⟨.inr ?_, ?_⟩, by rw [heq, folds_succ]⟩
    · have hstarts : folds m ++ ['/'] <+: '/' :: s := by
        rcases hm.starts with rfl | h
        · exact ⟨s, rfl⟩
        · exact h
      simpa [folds_succ] using hstarts
    · intro j hj
      cases j with
      | zero => exact Nat.zero_le _
      | succ j => exact Nat.succ_le_succ (hm.largest j (by simpa [folds_succ] using hj))
  | case2 r hr =>
    refine ⟨0, ⟨.inl rfl, fun j hj => ?_⟩, rfl⟩
    cases j with
    | zero => exact Nat.le_refl 0
    | succ j => exact absurd (head?_eq_of_folds (by simpa [folds_succ] using hj)) hr
  | case3 r hr =>
    refine ⟨0, ⟨.inl rfl, fun j hj => ?_⟩, rfl⟩
    cases j with
    | zero => exact Nat.le_refl 0
    | succ j =>
      obtain ⟨s, hs⟩ := hj
      exact absurd hs.symm (hr _)

theorem head?_behind_repeats (r : List Char) :
    (r.drop (repeats r).length).head? = r.head? := by
  fun_induction repeats r with
  | case1 r hr ih => exact ih.trans hr
  | case2 => rfl
  | case3 => rfl

theorem inLanguage_of_globstar? {p : List Char} {e : Enclosure}
    (h : globstar? options.noGlobstar p e r = some l) : l.InLanguage options front behind := by
  unfold globstar? at h
  split at h
  · next r =>
    dsimp only at h
    split at h
    · have hg : IsGlobstar ('*' :: '*' :: repeats r) := by
        obtain ⟨m, -, hm⟩ := exists_foldCount r
        exact ⟨m, by rw [hm, folds]⟩
      cases ho : options.noGlobstar <;> rw [ho] at h <;> cases h
      · exact ⟨ho, hg, rfl⟩
      · exact .inr ⟨ho, hg, rfl⟩
    · cases h
  · cases h

theorem inLanguage_of_star? (h : star? r = some l) : l.InLanguage options front behind := by
  unfold star? at h
  split at h
  · cases h
  · obtain ⟨hn, rfl⟩ := plain?_eq_some.1 h
    exact .inl ⟨isRun_runBefore hn, rfl⟩

/-! ### Quotations -/

theorem unquotes_quotation (q : Char) (r : List Char) :
    ∃ body value, Unquotes q body value ∧
      (((quotation q r).2 = body ++ [q] ∧ (quotation q r).1 = value) ∨
        ((quotation q r).2 = r ∧ r = body ∧ (quotation q r).1 = value) ∨
        ((quotation q r).2 = r ∧ r = body ++ ['\\'] ∧ (quotation q r).1 = value ++ ['\\'])) := by
  fun_induction quotation q r with
  | case1 => exact ⟨[], [], .nil, .inr (.inl ⟨rfl, rfl, rfl⟩)⟩
  | case2 c r value raw hv ih =>
    obtain ⟨body, v, hu, h⟩ := ih
    rw [hv] at h
    refine ⟨'\\' :: c :: body, c :: v, .pair c hu, ?_⟩
    simpa using h
  | case3 r hb =>
    exact ⟨[], [], .nil, .inl ⟨rfl, rfl⟩⟩
  | case4 c r hb hc value raw hv ih =>
    obtain ⟨body, v, hu, h⟩ := ih
    rw [hv] at h
    by_cases hs : c = '\\'
    · -- a backslash with nothing behind it
      cases r with
      | nil =>
        obtain ⟨rfl, rfl⟩ := Prod.mk.inj hv
        exact ⟨[], [], .nil, .inr (.inr ⟨rfl, by rw [hs]; rfl, by rw [hs]; rfl⟩)⟩
      | cons d r => exact absurd rfl (hb d r hs)
    · refine ⟨c :: body, c :: v, .char hc hs hu, ?_⟩
      simpa using h

theorem inLanguage_of_quoted? (h : quoted? r = some l) (hr : l.raw ++ behind = r) :
    l.InLanguage options front behind := by
  unfold quoted? at h
  split at h
  · cases h
  · next q r =>
    split at h
    · next hq =>
      split at h
      · obtain ⟨body, value, hu, hv⟩ := unquotes_quotation q r
        cases h
        rw [List.cons_append, List.cons.injEq] at hr
        refine ⟨q, body, value, hq, hu, ?_⟩
        rcases hv with ⟨h1, h2⟩ | ⟨h1, h2, h3⟩ | ⟨h1, h2, h3⟩
        · exact .inl ⟨by simp [h1], h2⟩
        · rw [h1, List.append_right_eq_self] at hr
          exact .inr (.inl ⟨by rw [h1, h2], h3, hr.2⟩)
        · rw [h1, List.append_right_eq_self] at hr
          exact .inr (.inr ⟨by rw [h1, h2]; rfl, h3, hr.2⟩)
      · next hn =>
        cases h
        simp only [plain, List.singleton_append, List.cons.injEq, true_and] at hr
        exact .inr (.inr ⟨q, hq, rfl, rfl, hr ▸ hn⟩)
    · cases h

/-! ### Classes -/

theorem inLanguage_of_square? {b : Bool} (h : square? b r = some l) :
    l.InLanguage options front behind := by
  unfold square? at h
  split at h
  · next c r =>
    split at h
    · cases h
    · next hc =>
      cases h
      refine ⟨c, ?_, rfl, rfl⟩
      simp only [Bool.or_eq_true, beq_iff_eq, not_or] at hc
      simp [hc.1.1.2, hc.1.2, hc.2]
  · cases h

theorem classExtent_of_openBody? {s : List Char} {b : ClassBody} (hs : ']' ∉ s)
    (h : openBody? s = some b) (hb : b.body ++ b.close ++ behind = s) :
    ClassExtent b.body b.close behind := by
  unfold openBody? at h
  split at h
  · next c d before hd =>
    cases h
    have hrev := List.takeWhile_append_dropWhile (p := isRepeater) (l := s.reverse)
    rw [hd] at hrev
    have hc : isRepeater c = false := by
      have := List.head?_dropWhile_not isRepeater s.reverse
      simpa [hd] using this
    have hs' : s = (d :: before).reverse ++ [c] ++ (s.reverse.takeWhile isRepeater).reverse := by
      have := congrArg List.reverse hrev
      simpa using this.symm
    have hbehind : behind = (s.reverse.takeWhile isRepeater).reverse :=
      List.append_cancel_left (hb.trans hs')
    refine .inr (.inl ⟨by simp, hb.symm ▸ hs, ⟨c, rfl, hc⟩, ?_⟩)
    intro e he
    rw [hbehind, List.mem_reverse] at he
    exact List.mem_takeWhile_imp he
  · cases h

theorem classExtent_of_hyphenClose? {s close : List Char} (h : hyphenClose? s = some close)
    (hs : close ++ behind = s) : ClassExtent [']', '-'] close behind := by
  unfold hyphenClose? at h
  split at h
  · cases h
    exact .inr (.inr ⟨rfl, .inl rfl⟩)
  · next r hn =>
    dsimp only at h
    split at h
    · cases h
    · next hc =>
      cases h
      refine .inr (.inr ⟨rfl, .inr ⟨hc, ?_, ?_, ?_⟩⟩)
      · cases s with
        | nil => exact absurd rfl hc
        | cons d s =>
          intro hd
          by_cases hr : isRepeater d = true
          · simp [hr] at hd
          · have : d = ']' := by simpa [hr] using hd
            exact hn s (by rw [this])
      · intro d hd
        simpa using List.mem_takeWhile_imp hd
      · have hbehind : behind = s.dropWhile (!isRepeater ·) :=
          List.append_cancel_left (hs.trans List.takeWhile_append_dropWhile.symm)
        intro d hd
        have := List.head?_dropWhile_not (!isRepeater ·) s
        rw [← hbehind, Option.mem_def.1 hd] at this
        simpa using this

theorem classExtent_of_classBody? {s : List Char} {b : ClassBody} (h : classBody? s = some b)
    (hb : b.body ++ b.close ++ behind = s) : ClassExtent b.body b.close behind := by
  unfold classBody? at h
  split at h
  · obtain ⟨close, hc, rfl⟩ := Option.map_eq_some_iff.1 h
    refine classExtent_of_hyphenClose? hc ?_
    simpa using hb
  · cases h
  · next hh hn =>
    split at h
    · next hm =>
      cases h
      refine .inl ⟨?_, ?_, rfl⟩
      · -- a class does not begin with a closing bracket
        cases s with
        | nil => simp at hm
        | cons d s =>
          have hd : d ≠ ']' := fun hd => hn s (by rw [hd])
          simp [hd]
      · intro hmem
        simpa using List.mem_takeWhile_imp hmem
    · next hm => exact classExtent_of_openBody? hm h hb

theorem isClass_ofClass {sigil : List Char} {negated : Bool} {b : ClassBody}
    (hs : (sigil = [] ∧ negated = false) ∨ ((sigil = ['!'] ∨ sigil = ['^']) ∧ negated = true))
    (hb : ClassExtent b.body b.close behind) :
    IsClass (ofClass ('[' :: sigil) negated b) negated (collapse b.body) b.close behind :=
  .inr ⟨sigil, b.body, hs, rfl, rfl, rfl, hb⟩

theorem mem_of_square?_eq_none (h : square? false r = none) (hr : l.raw ++ behind = r) {c : Char}
    (hc : l.raw = ['[', c, ']']) : c ∈ ['!', '^', '\\'] := by
  rw [hc] at hr
  subst hr
  by_contra hm
  simp [square?] at h hm
  exact hm.2.2 (h hm.1 hm.2.1)

theorem inLanguage_of_bracket? (h : bracket? r = some l) (hs : square? false r = none)
    (hr : l.raw ++ behind = r) : l.InLanguage options front behind := by
  have hone : ∀ c, l.raw = ['[', c, ']'] → c ∈ ['!', '^', '\\'] := fun c =>
    mem_of_square?_eq_none hs hr
  unfold bracket? at h
  split at h
  · next s =>
    cases h
    cases hn : negatedClass? s with
    | some m =>
      rw [hn, Option.getD_some] at hr hone
      unfold negatedClass? at hn
      split at hn
      · next c s =>
        split at hn
        · next hc =>
          obtain ⟨b, hb, rfl⟩ := Option.map_eq_some_iff.1 hn
          refine ⟨isClass_ofClass (.inr ⟨by simpa [isSigil] using hc, rfl⟩)
            (classExtent_of_classBody? hb ?_), hone⟩
          simpa [ofClass] using hr
        · cases hn
      · cases hn
    | none =>
      rw [hn, Option.getD_none] at hr hone
      cases hb : classBody? s with
      | some b =>
        rw [hb, Option.map_some, Option.getD_some] at hr hone
        refine ⟨isClass_ofClass (.inl ⟨rfl, rfl⟩) (classExtent_of_classBody? hb ?_), hone⟩
        simpa [ofClass] using hr
      | none => exact ⟨.inl ⟨rfl, rfl, rfl, rfl, rfl⟩, by simp [plain]⟩
  · cases h

end GlobPattern.Lexeme
