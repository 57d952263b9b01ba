import GlobPattern.Lexer
import GlobPattern.Proofs.Rule

/-!
# What steps and runs can do

A step takes a lexeme and appends its node, drops some text, stalls where it began, or is refused
the closing of a context. A run is a number of steps that succeed, up to the end of the pattern or
to one step that fails; as each of them consumes text, there are at most as many as characters.

Whatever the rules are, a lexer has no node but those that its rules made: the built-in rules make a
node of the lexeme that they recognise where it stands, and all others make plain text.

* `Lexer.Outcome`, **`Lexer.outcome_step`**: the four things that a step can do;
* `Lexer.Steps`: a number of steps that succeed; `Lexer.Steps.length_le`, `Lexer.Steps.invariant`;
* `Lexer.run_of_atEnd`, `Lexer.run_of_step_ok`, `Lexer.run_of_step_error`: a run by its first step;
* **`Lexer.run_cases`**: how a run ends; `Lexer.exists_steps_of_tokenize`: what was read, by steps;
* `Node.Made`: a node that a rule may have made somewhere in a pattern; `Rule.made_of_apply`,
  `Lexer.made_of_tryRules`: a rule, and the attempt of some rules;
* **`made_of_tokenize`**: every node of every pattern that was read to its end.
-/

namespace GlobPattern.Lexer

/-- What the attempt of some rules can do to a lexer, with what it answers. -/
inductive Outcome (entries : List (String × Rule)) (lx : Lexer) :
    Lexer → Except Failure Unit → Prop
  | took {lx' : Lexer} (l : Lexeme) (hl : l.Covers lx.cursor.remaining)
      (hc : lx'.cursor = lx.cursor.advance l.raw.length)
      (hn : lx'.nodes = lx.nodes.push (l.nodeAt lx.cursor.position)) :
      Outcome entries lx lx' (.ok ())
  | dropped {lx' : Lexer} (l : Lexeme) (hd : ∃ e ∈ entries, e.2.drops = true)
      (hl : l.Covers lx.cursor.remaining) (hc : lx'.cursor = lx.cursor.advance l.raw.length)
      (hn : lx'.nodes = lx.nodes) : Outcome entries lx lx' (.ok ())
  | stalled {lx' : Lexer} (fault : LexFault) (hc : lx'.cursor = lx.cursor)
      (hn : lx'.nodes = lx.nodes) : Outcome entries lx lx' (.error (lx'.errorHere fault))
  | refused {lx' : Lexer} (e : ContextNotOpen) (k : Nat)
      (hc : lx'.cursor = lx.cursor.advance k) (hn : lx'.nodes = lx.nodes)
      (he : e.name ∉ lx'.state.contexts) : Outcome entries lx lx' (.error (.context e))

/-- What some rules can do behind a rule that was passed over, they can do in its place. -/
theorem Outcome.of_passed {entry : String × Rule} {entries : List (String × Rule)}
    {lx mid lx' : Lexer} {r : Except Failure Unit} (h : Outcome entries mid lx' r)
    (hc : mid.cursor = lx.cursor) (hn : mid.nodes = lx.nodes) :
    Outcome (entry :: entries) lx lx' r := by
  cases h with
  | took l hl hc' hn' =>
    rw [hc] at hl hc' hn'
    rw [hn] at hn'
    exact .took l hl hc' hn'
  | dropped l hd hl hc' hn' =>
    obtain ⟨e, he, hd⟩ := hd
    rw [hc] at hl hc'
    exact .dropped l ⟨e, List.mem_cons_of_mem _ he, hd⟩ hl hc' (hn'.trans hn)
  | stalled fault hc' hn' => exact .stalled fault (hc'.trans hc) (hn'.trans hn)
  | refused e k hc' hn' he =>
    rw [hc] at hc'
    exact .refused e k hc' (hn'.trans hn) he

theorem outcome_tryRules (entries : List (String × Rule)) (lx : Lexer) :
    Outcome entries lx (tryRules entries lx).1 (tryRules entries lx).2 := by
  induction entries generalizing lx with
  | nil => exact .stalled _ rfl rfl
  | cons entry rest ih =>
    obtain ⟨name, rule⟩ := entry
    have effect := rule.effect_apply lx.toScan
    rw [tryRules]
    generalize rule.apply lx.toScan = applied at effect
    obtain ⟨s, answer⟩ := applied
    dsimp only at effect
    cases effect with
    | passed hc =>
      have hs : ¬ lx.cursor.offset < s.cursor.offset := by rw [hc]; exact Nat.lt_irrefl _
      simp only [if_neg hs, Option.isSome_none, Bool.false_eq_true, if_false]
      exact (ih (lx.withScan s)).of_passed hc rfl
    | took l hl hc =>
      have hs : lx.cursor.offset < s.cursor.offset := by
        have := hl.length_pos
        rw [hc, Cursor.offset_advance_raw hl]
        omega
      simp only [if_pos hs]
      exact .took l hl hc rfl
    | dropped l hd hl hc =>
      have hs : lx.cursor.offset < s.cursor.offset := by
        have := hl.length_pos
        rw [hc, Cursor.offset_advance_raw hl]
        omega
      simp only [if_pos hs]
      exact .dropped l ⟨_, List.mem_cons_self, hd⟩ hl hc rfl
    | offered node hc =>
      have hs : ¬ lx.cursor.offset < s.cursor.offset := by rw [hc]; exact Nat.lt_irrefl _
      simp only [if_neg hs, Option.isSome_some, if_true]
      exact .stalled _ hc rfl
    | refused e k hc he => exact .refused e k hc rfl he

/-- **A step does one of four things.** -/
theorem outcome_step (lx : Lexer) : Outcome lx.rules.entries lx lx.step.1 lx.step.2 :=
  outcome_tryRules lx.rules.entries lx

@[simp] theorem rules_tryRules (entries : List (String × Rule)) (lx : Lexer) :
    (tryRules entries lx).1.rules = lx.rules := by
  fun_induction tryRules entries lx with
  | case1 lx => rfl
  | case2 => rfl
  | case3 _ _ _ _ _ node? => cases node? <;> rfl
  | case4 => rfl
  | case5 _ _ _ _ _ _ _ _ _ ih => exact ih

@[simp] theorem rules_step (lx : Lexer) : lx.step.1.rules = lx.rules :=
  rules_tryRules lx.rules.entries lx

theorem Outcome.source_eq {entries : List (String × Rule)} {lx lx' : Lexer}
    {r : Except Failure Unit} (h : Outcome entries lx lx' r) :
    lx'.cursor.source = lx.cursor.source := by
  cases h with
  | took l _ hc _ => rw [hc, Cursor.source_advance]
  | dropped l _ _ hc _ => rw [hc, Cursor.source_advance]
  | stalled _ hc _ => rw [hc]
  | refused e k hc _ _ => rw [hc, Cursor.source_advance]

theorem rules_of_step {lx lx' : Lexer} {r : Except Failure Unit} (h : lx.step = (lx', r)) :
    lx'.rules = lx.rules := by
  have hrules := rules_step lx
  rwa [h] at hrules

theorem source_of_step {lx lx' : Lexer} {r : Except Failure Unit} (h : lx.step = (lx', r)) :
    lx'.cursor.source = lx.cursor.source := by
  have hsource := (outcome_step lx).source_eq
  rwa [h] at hsource

/-! ## Steps in sequence -/

/-- A number of steps that succeed, none of them taken at the end of the pattern. -/
inductive Steps : Nat → Lexer → Lexer → Prop
  | refl (lx : Lexer) : Steps 0 lx lx
  | cons {n : Nat} {lx mid last : Lexer} (ha : lx.cursor.atEnd = false)
      (hs : lx.step = (mid, .ok ())) (rest : Steps n mid last) : Steps (n + 1) lx last

namespace Steps

variable {n : Nat} {lx last : Lexer}

theorem length_le (h : Steps n lx last) :
    n + last.cursor.remaining.length ≤ lx.cursor.remaining.length := by
  induction h with
  | refl lx => omega
  | cons _ hs _ ih =>
    have := step_shortens hs
    omega

theorem invariant {P : Lexer → Prop}
    (hP : ∀ lx, P lx → lx.cursor.atEnd = false → ∀ lx', lx.step = (lx', .ok ()) → P lx')
    (h : Steps n lx last) (h0 : P lx) : P last := by
  induction h with
  | refl lx => exact h0
  | cons ha hs _ ih => exact ih (hP _ h0 ha _ hs)

end Steps

/-! ## Runs -/

theorem run_of_atEnd {lx : Lexer} (ha : lx.cursor.atEnd = true) : lx.run = (lx, .ok ()) := by
  rw [run, if_pos ha]

theorem run_of_step_ok {lx mid : Lexer} (ha : ¬ lx.cursor.atEnd = true)
    (hs : lx.step = (mid, .ok ())) : lx.run = mid.run := by
  rw [run, if_neg ha]
  split
  · next h => rw [hs] at h; cases h; rfl
  · next h => rw [hs] at h; cases h

theorem run_of_step_error {lx lx' : Lexer} {e : Failure} (ha : ¬ lx.cursor.atEnd = true)
    (hs : lx.step = (lx', .error e)) : lx.run = (lx', .error e) := by
  rw [run, if_neg ha]
  split
  · next h => rw [hs] at h; cases h
  · next h => rw [hs] at h; cases h; rfl

/-- **A run ends at the end of the pattern, or with the one step that fails.** -/
theorem run_cases (lx : Lexer) : ∃ n last, Steps n lx last ∧
    ((last.cursor.atEnd = true ∧ lx.run = (last, .ok ())) ∨
      ∃ lx' e, last.cursor.atEnd = false ∧ last.step = (lx', .error e) ∧
        lx.run = (lx', .error e)) := by
  fun_induction run lx with
  | case1 lx ha => exact ⟨0, lx, .refl lx, .inl ⟨ha, rfl⟩⟩
  | case2 lx ha mid hs ih =>
    obtain ⟨n, last, steps, h⟩ := ih
    exact ⟨n + 1, last, .cons (by simpa using ha) hs steps, h⟩
  | case3 lx ha lx' e hs => exact ⟨0, lx, .refl lx, .inr ⟨lx', e, by simpa using ha, hs, rfl⟩⟩

theorem exists_steps_of_tokenize {rules : RuleSet} {options : Options} {pattern : List Char}
    {a : Ast} (h : rules.tokenize options pattern = .ok a) :
    ∃ n last, Steps n (start pattern options rules) last ∧ last.cursor.atEnd = true ∧
      a = last.ast := by
  obtain ⟨n, last, steps, hrun⟩ := (start pattern options rules).run_cases
  rw [RuleSet.tokenize] at h
  rcases hrun with ⟨ha, hrun⟩ | ⟨lx, e, -, -, hrun⟩ <;> rw [hrun] at h <;> cases h
  exact ⟨n, last, steps, ha, rfl⟩

end GlobPattern.Lexer

namespace GlobPattern

/-! ## Where nodes come from -/

/-- The node is plain text, or a built-in rule recognised it in the pattern where it stands,
whatever the state was there. -/
def Node.Made (pattern : List Char) (n : Node) : Prop :=
  n.kind = .text ∨ ∃ (s : Scan) (kind : Kind) (l : Lexeme), s.cursor.source = pattern ∧
    s.recognise? kind = some l ∧ n = l.nodeAt s.cursor.position

theorem Rule.made_of_apply {rule : Rule} {s s' : Scan} {n : Node}
    (h : rule.apply s = (s', .ok (some n))) : n.Made s.cursor.source := by
  cases rule with
  | builtin kind =>
    rcases s.applyKind_cases kind with ⟨-, ha⟩ | ⟨l, -, hl, -, ha⟩ | ⟨-, -, ha⟩ <;>
      rw [Rule.apply, ha] at h <;> cases h
    exact .inr ⟨s, kind, l, rfl, hl, rfl⟩
  | literal l =>
    rw [Rule.apply, Literal.apply] at h
    split at h
    · dsimp only at h
      split at h
      · split at h <;> cases h
        exact .inl rfl
      · cases h
    · cases h
  | stuck value =>
    cases h
    exact .inl rfl

namespace Lexer

variable {pattern : List Char} {lx lx' : Lexer}

/-- **Rules that are tried leave no node but those they made.** -/
theorem made_of_tryRules (entries : List (String × Rule)) (hs : lx.cursor.source = pattern)
    (hn : ∀ n ∈ lx.nodes.toList, n.Made pattern) :
    ∀ n ∈ (tryRules entries lx).1.nodes.toList, n.Made pattern := by
  induction entries generalizing lx with
  | nil => exact hn
  | cons entry rest ih =>
    obtain ⟨name, rule⟩ := entry
    have made (s : Scan) (n : Node) (h : rule.apply lx.toScan = (s, .ok (some n))) :
        n.Made pattern := hs ▸ rule.made_of_apply h
    obtain ⟨k, hk⟩ := rule.cursor_apply lx.toScan
    rw [tryRules]
    generalize rule.apply lx.toScan = applied at made hk
    obtain ⟨s, _ | node?⟩ := applied
    · exact hn
    · dsimp only
      split
      · -- the rule consumed text, and its node is appended
        cases node? with
        | none => exact hn
        | some node =>
          intro n hmem
          rw [append, Array.toList_push, List.mem_append, List.mem_singleton] at hmem
          rcases hmem with hmem | rfl
          · exact hn n hmem
          · exact made s n rfl
      · split
        · exact hn
        · have hsource : (lx.withScan s).cursor.source = pattern := by
            rw [withScan, hk, Cursor.source_advance, hs]
          exact ih hsource hn

theorem Steps.made {k : Nat} (h : Steps k lx lx') (hs : lx.cursor.source = pattern)
    (hn : ∀ n ∈ lx.nodes.toList, n.Made pattern) : ∀ n ∈ lx'.nodes.toList, n.Made pattern := by
  refine (h.invariant (P := fun a => a.cursor.source = pattern ∧
    ∀ n ∈ a.nodes.toList, n.Made pattern) ?_ ⟨hs, hn⟩).2
  rintro a ⟨ha, hmade⟩ - b hstep
  have hnodes := made_of_tryRules a.rules.entries ha hmade
  rw [← step, hstep] at hnodes
  exact ⟨(source_of_step hstep).trans ha, hnodes⟩

end Lexer

/-- **Every node was made by a rule.** -/
theorem made_of_tokenize {extend : RuleSet.Extension} {options : Options} {pattern : List Char}
    {a : Ast} (h : tokenize extend options pattern = .ok a) : ∀ n ∈ a.nodes, n.Made pattern := by
  rw [tokenize] at h
  split at h
  · cases h
  · next rules _ =>
    obtain ⟨k, last, steps, -, rfl⟩ := Lexer.exists_steps_of_tokenize h
    exact steps.made rfl fun _ hn => nomatch hn

end GlobPattern
