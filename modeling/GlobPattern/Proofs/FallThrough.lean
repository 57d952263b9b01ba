import GlobPattern.Proofs.Lexeme.Unclaimed
import GlobPattern.Proofs.Reading

/-!
# What the rules for structure leave

Thirteen rules look for their own characters and for what stands behind them, and plain text takes
the rest. What is left to it begins with a character that stops no plain text, or with the opener of
a group. Inside a bracket context the rules for escapes, single-character classes and plain text are
silent, and what the others leave there is an error.

* `Lexeme.OpensGroup`, `Lexeme.FallsThrough`, `Lexeme.StuckInBracket`: the texts that are left;
* `Kind.owners`: the kinds whose lexemes may begin with a character;
* `Scan.unclaimed_iff`: when all rules but the one for plain text are silent;
* `Lexer.step_of_lexeme?_eq_none`: a step in front of a text that no rule recognises;
* **`Lexer.fallThrough_default`**: what the default rules leave, in every state.
-/

namespace GlobPattern

namespace Lexeme

variable {t : List Char}

/-- The text begins with `*(`, `?(` or `+(`. -/
def OpensGroup (r : List Char) : Prop := ∃ c ∈ ['*', '?', '+'], [c, '('] <+: r

/-- What is left to plain text: it begins with a character that stops no plain text, or it opens a
group. -/
def FallsThrough (r : List Char) : Prop := (∃ c ∈ r.head?, c ∉ stopChars) ∨ OpensGroup r

/-- The characters that begin something inside a bracket context. -/
def bracketStops : List Char := ['"', '\'', '!', '.', '+', '?', '*', '/', '\\', '[']

/-- What is left inside a bracket context: it begins with a character that begins nothing there, it
opens a group, or it begins with a backslash in front of a character that keeps it. -/
def StuckInBracket (r : List Char) : Prop :=
  (∃ c ∈ r.head?, c ∉ bracketStops) ∨ OpensGroup r ∨
    ∃ d ∈ ['*', '+', '?', '(', ')', '{', '}', '[', ']', '\'', '"'], ['\\', d] <+: r

/-! ## The two descriptions -/

theorem pair_prefix_cons {a b c : Char} : [a, b] <+: c :: t ↔ a = c ∧ t.head? = some b := by
  rw [List.cons_prefix_cons, List.head?_eq_some_iff]
  simp [List.IsPrefix, eq_comm]

theorem opensGroup_cons {c : Char} :
    OpensGroup (c :: t) ↔ c ∈ ['*', '?', '+'] ∧ t.head? = some '(' := by
  simp only [OpensGroup, pair_prefix_cons]
  constructor
  · rintro ⟨_, hd, rfl, h⟩
    exact ⟨hd, h⟩
  · rintro ⟨hc, h⟩
    exact ⟨c, hc, rfl, h⟩

theorem fallsThrough_cons {c : Char} :
    FallsThrough (c :: t) ↔ c ∉ stopChars ∨ c ∈ ['*', '?', '+'] ∧ t.head? = some '(' := by
  rw [FallsThrough, opensGroup_cons]
  simp

theorem stuckInBracket_cons {c : Char} : StuckInBracket (c :: t) ↔
    c ∉ bracketStops ∨ (c ∈ ['*', '?', '+'] ∧ t.head? = some '(') ∨
      c = '\\' ∧ ∃ d ∈ escapable, t.head? = some d := by
  have hpair : (∃ d ∈ escapable, ['\\', d] <+: c :: t) ↔
      c = '\\' ∧ ∃ d ∈ escapable, t.head? = some d := by
    simp only [pair_prefix_cons, eq_comm (a := '\\')]
    constructor
    · rintro ⟨d, hd, hc, ht⟩
      exact ⟨hc, d, hd, ht⟩
    · rintro ⟨hc, d, hd, ht⟩
      exact ⟨d, hd, hc, ht⟩
  rw [← hpair, StuckInBracket, opensGroup_cons, escapable]
  simp

end Lexeme

/-! ## All rules together -/

/-- The kinds whose lexemes may begin with a character, plain text apart. -/
def Kind.owners (c : Char) : List Kind := all.filter (c ∈ ·.openers)

theorem Kind.owners_eq_nil {c : Char} (hc : c ∉ Lexeme.stopChars) : owners c = [] := by
  have h : ∀ k ∈ all, ∀ c ∈ k.openers, c ∈ Lexeme.stopChars := by
    simp [all, openers, Lexeme.stopChars]
  refine List.filter_eq_nil_iff.2 fun k hk ho => hc ?_
  exact h k hk c (of_decide_eq_true ho)

namespace Scan

variable {s : Scan} {c : Char} {t : List Char}

theorem unclaimed_iff_owners (hr : s.cursor.remaining = c :: t) :
    (∀ k, k ≠ Kind.text → s.recognise? k = none) ↔ ∀ k ∈ Kind.owners c, s.recognise? k = none := by
  constructor
  · intro h k hk
    refine h k ?_
    rintro rfl
    simp [Kind.owners, Kind.openers] at hk
  · intro h k hk
    cases hl : s.recognise? k with
    | none => rfl
    | some l =>
      obtain ⟨d, u, hr', hd⟩ := mem_openers_of_recognise? hl hk
      rw [hr, List.cons.injEq] at hr'
      rw [← hl]
      exact h k (List.mem_filter.2 ⟨k.mem_all, decide_eq_true (hr'.1 ▸ hd)⟩)

open Lexeme in
/-- **What all rules but the one for plain text leave**, inside of bracket contexts and outside. -/
theorem unclaimed_iff (hr : s.cursor.remaining = c :: t) :
    (∀ k, k ≠ Kind.text → s.recognise? k = none) ↔
      c ∉ stopChars ∨ (c ∈ ['*', '?', '+'] ∧ t.head? = some '(') ∨
        s.inBracket = true ∧ (c ∈ ['$', '^'] ∨ c = '\\' ∧ ∃ d ∈ escapable, t.head? = some d) := by
  rw [unclaimed_iff_owners hr]
  by_cases hc : c ∈ stopChars
  · simp only [hc, not_true_eq_false, false_or]
    simp only [stopChars, List.mem_cons, List.not_mem_nil, or_false] at hc
    rcases hc with rfl | rfl | rfl | rfl | rfl | rfl | rfl | rfl | rfl | rfl | rfl | rfl
    · rw [show Kind.owners '[' = [.square, .bracket] from rfl]
      simp [recognise?, hr, bracket?_ne_none]
    · rw [show Kind.owners '!' = [.not] from rfl]
      simp [recognise?, hr, not?_ne_none]
    · rw [show Kind.owners '*' = [.globstar, .star] from rfl]
      simp [recognise?, hr, stars_eq_none_iff]
    · rw [show Kind.owners '+' = [.plus] from rfl]
      simp [recognise?, hr, plus?_eq_none_iff]
    · rw [show Kind.owners '?' = [.qmark] from rfl]
      simp [recognise?, hr, qmark?_eq_none_iff]
    · rw [show Kind.owners '$' = [.escape] from rfl]
      simp [recognise?, hr, escape?_anchor_eq_none_iff]
    · rw [show Kind.owners '^' = [.escape] from rfl]
      simp [recognise?, hr, escape?_anchor_eq_none_iff]
    · rw [show Kind.owners '"' = [.quoted] from rfl]
      simp [recognise?, hr, quoted?_ne_none (q := '"') rfl]
    · rw [show Kind.owners '\'' = [.quoted] from rfl]
      simp [recognise?, hr, quoted?_ne_none (q := '\'') rfl]
    · rw [show Kind.owners '.' = [.dot] from rfl]
      simp [recognise?, hr, dot?_ne_none]
    · rw [show Kind.owners '\\' = [.escape, .backslash] from rfl]
      simp [recognise?, hr, backslashes_eq_none_iff]
    · rw [show Kind.owners '/' = [.slash] from rfl]
      simp [recognise?, hr, slash?_ne_none]
  · simp [Kind.owners_eq_nil hc, hc]

theorem unclaimed_iff_fallsThrough (hb : s.inBracket = false) (hr : s.cursor.remaining ≠ []) :
    (∀ k, k ≠ Kind.text → s.recognise? k = none) ↔ Lexeme.FallsThrough s.cursor.remaining := by
  obtain ⟨c, t, ht⟩ := List.exists_cons_of_ne_nil hr
  rw [unclaimed_iff ht, hb, ht, Lexeme.fallsThrough_cons]
  simp

theorem unclaimed_iff_stuckInBracket (hb : s.inBracket = true) (hr : s.cursor.remaining ≠ []) :
    (∀ k, k ≠ Kind.text → s.recognise? k = none) ↔ Lexeme.StuckInBracket s.cursor.remaining := by
  obtain ⟨c, t, ht⟩ := List.exists_cons_of_ne_nil hr
  -- the anchors `$` and `^` are stop characters that begin nothing inside a bracket context
  have hstop : c ∉ Lexeme.bracketStops ↔ c ∉ Lexeme.stopChars ∨ c ∈ ['$', '^'] := by
    have hor : ∀ c ∈ Lexeme.stopChars, c ∈ Lexeme.bracketStops ∨ c ∈ ['$', '^'] := by
      simp [Lexeme.stopChars, Lexeme.bracketStops]
    have hsub : ∀ c ∈ Lexeme.bracketStops, c ∈ Lexeme.stopChars ∧ c ∉ ['$', '^'] := by
      simp [Lexeme.stopChars, Lexeme.bracketStops]
    constructor
    · intro h
      by_cases hc : c ∈ Lexeme.stopChars
      · exact .inr ((hor c hc).resolve_left h)
      · exact .inl hc
    · rintro (h | h) hc
      · exact h (hsub c hc).1
      · exact (hsub c hc).2 h
  rw [unclaimed_iff ht, hb, ht, Lexeme.stuckInBracket_cons, hstop]
  tauto

theorem cursor_applyKind_eq_iff {kind : Kind} :
    (s.applyKind kind).1.cursor = s.cursor ↔ s.recognise? kind = none := by
  rcases s.applyKind_cases kind with ⟨rfl, h⟩ | ⟨l, _, hl, hc, h⟩ | ⟨_, hn, h⟩
  · rw [h]
    exact iff_of_true s.cursor_noteLeadingDot rfl
  · rw [h, hl]
    refine iff_of_false (fun he => ?_) (Option.some_ne_none l)
    have hoff := Cursor.offset_advance_raw hc
    rw [← cursor_accept, he] at hoff
    have := hc.length_pos
    omega
  · rw [h]
    exact iff_of_true rfl hn

theorem lexeme?_eq_none_iff_stuckInBracket (hb : s.inBracket = true)
    (hr : s.cursor.remaining ≠ []) :
    s.lexeme? = none ↔ Lexeme.StuckInBracket s.cursor.remaining := by
  rw [← unclaimed_iff_stuckInBracket hb hr, lexeme?, List.findSome?_eq_none_iff]
  have htext : s.recognise? .text = none := by
    rw [recognise?, hb]
    rfl
  constructor
  · intro h k _
    exact h k k.mem_all
  · intro h k _
    by_cases hk : k = .text
    · rw [hk, htext]
    · exact h k hk

end Scan

/-! ## The default rules -/

theorem Kind.name_eq_text_iff {k : Kind} : k.name = Kind.text.name ↔ k = .text := by
  cases k <;> decide

theorem RuleSet.default_stays_iff {s : Scan} :
    (∀ e ∈ RuleSet.default.entries, e.1 ≠ Kind.text.name → (e.2.apply s).1.cursor = s.cursor) ↔
      ∀ k, k ≠ Kind.text → s.recognise? k = none := by
  simp only [RuleSet.default, List.forall_mem_map, ne_eq, Kind.name_eq_text_iff, Rule.apply,
    Scan.cursor_applyKind_eq_iff]
  exact ⟨fun h k => h k k.mem_all, fun h k _ => h k⟩

namespace Lexer

variable {lx : Lexer}

theorem step_of_lexeme?_eq_none (hr : lx.rules = RuleSet.default) (hn : lx.lexeme? = none) :
    lx.step.2 = .error (lx.errorHere (.noRule lx.cursor.remaining.head?)) := by
  have h := tryRules_of_recognise?_eq_none [] lx (List.findSome?_eq_none_iff.1 hn)
  rw [List.append_nil] at h
  rw [step, hr, RuleSet.default, h, List.map_nil, tryRules]
  split
  · simp only [errorHere, withScan, Scan.cursor_noteLeadingDot]
  · rfl

theorem step_of_lexeme? (hr : lx.rules = RuleSet.default) {l : Lexeme}
    (hl : lx.lexeme? = some l) : lx.step.2 = .ok () := by
  rw [step_ofKinds Kind.admissible_all hr hl]

/-- **What the default rules leave, in every state.** Outside of bracket contexts the rules other
than that for plain text stay where they are in front of exactly the texts that fall through. Inside
of one a step fails, where it began, in front of exactly the texts that are stuck there, and it
succeeds in front of all others. So whatever other contexts are open, steps and runs of the default rules
succeed as long as no bracket context is. -/
theorem fallThrough_default (lx : Lexer) (hr : lx.rules = RuleSet.default)
    (hne : lx.cursor.remaining ≠ []) :
    (lx.inBracket = false →
      ((∀ e ∈ RuleSet.default.entries, e.1 ≠ Kind.text.name →
          (e.2.apply lx.toScan).1.cursor = lx.cursor) ↔
        Lexeme.FallsThrough lx.cursor.remaining)) ∧
    (lx.inBracket = true →
      (lx.step.2 = .error (lx.errorHere (.noRule lx.cursor.remaining.head?)) ↔
        Lexeme.StuckInBracket lx.cursor.remaining) ∧
      (lx.step.2 = .ok () ↔ ¬ Lexeme.StuckInBracket lx.cursor.remaining)) ∧
    (lx.inBracket = false → lx.step.2 = .ok () ∧ lx.run.2 = .ok ()) := by
  refine ⟨fun hb => ?_, fun hb => ?_, fun hb => ⟨?_, ?_⟩⟩
  · rw [RuleSet.default_stays_iff]
    exact Scan.unclaimed_iff_fallsThrough hb hne
  · rw [← Scan.lexeme?_eq_none_iff_stuckInBracket hb hne]
    cases hl : lx.lexeme? with
    | none => simp [step_of_lexeme?_eq_none hr hl]
    | some l => simp [step_of_lexeme? hr hl]
  · obtain ⟨l, hl⟩ := Scan.exists_lexeme? hb hne
    exact step_of_lexeme? hr hl
  · obtain ⟨ls, t, h, ht⟩ := Scan.exists_reads lx.toScan hb
    obtain ⟨lx', hrun, -⟩ := run_of_reads Kind.admissible_all h ht lx rfl hr
    rw [hrun]

/-- A backslash in front of a star, inside a bracket context. -/
theorem fallThrough_default_backslash :
    let lx : Lexer := { Lexer.start "\\*".toList {} .default with
      state := { contexts := ["brace", "bracket"] } }
    lx.rules = .default ∧ lx.cursor.remaining ≠ [] ∧ lx.inBracket = true ∧
      lx.step.2 = .error (lx.errorHere (.noRule (some '\\'))) :=
  ⟨rfl, by decide, by decide,
    ((fallThrough_default _ rfl (by decide)).2.1 (by decide)).1.2
      (.inr (.inr ⟨'*', by decide, by decide⟩))⟩

end Lexer

end GlobPattern
