import GlobPattern.Proofs.Lexer.Outcome

/-!
# Rules that never apply

A rule that passes at every place of a pattern can stand anywhere among the rules: with it and
without it every step does the same, so every run does, up to the same end or the same failure. A
literal rule passes at every place of a pattern that its text does not occur in.

* `Rule.Passes`: a rule that passes at every place of a source; `Literal.passes`;
* `Lexer.withRules`: the lexer with other rules;
* `Lexer.tryRules_insert`, **`Lexer.run_insert`**: steps and runs with a rule more that passes;
* **`RuleSet.tokenize_insert_literal`**: a literal that does not occur makes no difference.
-/

namespace GlobPattern

/-- The rule passes at every place of a source, whatever else the scan holds. -/
def Rule.Passes (rule : Rule) (source : List Char) : Prop :=
  ∀ s : Scan, s.cursor.source = source → rule.apply s = (s, .ok none)

/-- A literal passes at every place of a source that its text does not occur in. -/
theorem Literal.passes {l : Literal} {source : List Char} (h : ¬ l.text <:+: source) :
    (Rule.literal l).Passes source := by
  intro s hs
  have hp : ¬ s.cursor.startsWith l.text = true := by
    intro hp
    apply h
    rw [← hs, Cursor.source]
    exact (List.isPrefixOf_iff_prefix.1 hp).isInfix.trans (List.suffix_append _ _).isInfix
  rw [Rule.apply, apply, if_neg hp]

namespace Lexer

variable {source : List Char} {entry : String × Rule} {lx : Lexer}

/-- The lexer with other rules. -/
def withRules (lx : Lexer) (rules : RuleSet) : Lexer := { lx with rules }

theorem tryRules_withRules (entries : List (String × Rule)) (lx : Lexer) (rules : RuleSet) :
    tryRules entries (lx.withRules rules) =
      ((tryRules entries lx).1.withRules rules, (tryRules entries lx).2) := by
  fun_induction tryRules entries lx with
  | case1 lx => rfl
  | case2 name rule rest lx s e hr =>
    rw [tryRules, show (lx.withRules rules).toScan = lx.toScan from rfl, hr]
    rfl
  | case3 name rule rest lx s node? hr hs =>
    rw [tryRules, show (lx.withRules rules).toScan = lx.toScan from rfl, hr]
    dsimp only
    rw [if_pos hs]
    cases node? <;> rfl
  | case4 name rule rest lx s node? hr hs hn =>
    rw [tryRules, show (lx.withRules rules).toScan = lx.toScan from rfl, hr]
    dsimp only
    rw [if_neg hs, if_pos hn]
    rfl
  | case5 name rule rest lx s node? hr hs hn ih =>
    rw [tryRules, show (lx.withRules rules).toScan = lx.toScan from rfl, hr]
    dsimp only
    rw [if_neg hs, if_neg hn]
    exact ih

theorem tryRules_insert (h : entry.2.Passes source) (front back : List (String × Rule))
    (lx : Lexer) (hs : lx.cursor.source = source) :
    tryRules (front ++ entry :: back) lx = tryRules (front ++ back) lx := by
  induction front generalizing lx with
  | nil =>
    obtain ⟨name, rule⟩ := entry
    rw [List.nil_append, List.nil_append, tryRules, h lx.toScan hs]
    simp only [if_neg (Nat.lt_irrefl _), Option.isSome_none, Bool.false_eq_true, if_false]
    rfl
  | cons first front ih =>
    obtain ⟨name, rule⟩ := first
    obtain ⟨k, hk⟩ := rule.cursor_apply lx.toScan
    rw [List.cons_append, List.cons_append, tryRules, tryRules]
    split
    · rfl
    · next s node? hr =>
      have hs' : (lx.withScan s).cursor.source = source := by
        rw [hr] at hk
        rw [show (lx.withScan s).cursor = lx.cursor.advance k from hk, Cursor.source_advance, hs]
      rw [ih (lx.withScan s) hs']

theorem step_insert (h : entry.2.Passes source) (front back : List (String × Rule))
    (hs : lx.cursor.source = source) (hr : lx.rules = ⟨front ++ back⟩) :
    (lx.withRules ⟨front ++ entry :: back⟩).step =
      (lx.step.1.withRules ⟨front ++ entry :: back⟩, lx.step.2) := by
  change tryRules (front ++ entry :: back) _ = _
  rw [tryRules_withRules, tryRules_insert h front back lx hs, step, hr]

/-- **A rule that passes makes no difference to a run**: it leaves the same lexer, but for the
rules, with the same outcome. -/
theorem run_insert (h : entry.2.Passes source) (front back : List (String × Rule)) (lx : Lexer)
    (hs : lx.cursor.source = source) (hr : lx.rules = ⟨front ++ back⟩) :
    (lx.withRules ⟨front ++ entry :: back⟩).run =
      (lx.run.1.withRules ⟨front ++ entry :: back⟩, lx.run.2) := by
  fun_induction run lx with
  | case1 lx ha => exact run_of_atEnd ha
  | case2 lx ha mid hmid ih =>
    have hsource : mid.cursor.source = source := (source_of_step hmid).trans hs
    have hrules : mid.rules = ⟨front ++ back⟩ := (rules_of_step hmid).trans hr
    have hstep := step_insert h front back hs hr
    rw [hmid] at hstep
    rw [← ih hsource hrules]
    exact run_of_step_ok ha hstep
  | case3 lx ha last e hlast =>
    have hstep := step_insert h front back hs hr
    rw [hlast] at hstep
    exact run_of_step_error ha hstep

end Lexer

/-- **A literal that does not occur in a pattern makes no difference to it**, wherever its rule
stands and whatever else it would do. With it and without it the pattern has the same nodes, the
same wrap and the same final state, or reading it ends with the same failure at the same place; and
in each case the scan and the nodes that are left behind are the same. -/
theorem RuleSet.tokenize_insert_literal {l : Literal} {pattern : List Char}
    (h : ¬ l.text <:+: pattern) (options : Options) (name : String)
    (front back : List (String × Rule)) :
    let extended : RuleSet := ⟨front ++ (name, .literal l) :: back⟩
    let plain : RuleSet := ⟨front ++ back⟩
    extended.tokenize options pattern = plain.tokenize options pattern ∧
      (Lexer.start pattern options extended).run.1.toScan =
        (Lexer.start pattern options plain).run.1.toScan ∧
      (Lexer.start pattern options extended).run.1.nodes =
        (Lexer.start pattern options plain).run.1.nodes := by
  intro extended plain
  have hpasses : ((name, .literal l) : String × Rule).2.Passes pattern := Literal.passes h
  have hrun : (Lexer.start pattern options extended).run = _ :=
    Lexer.run_insert hpasses front back (Lexer.start pattern options plain) rfl rfl
  refine ⟨?_, by rw [hrun]; rfl, by rw [hrun]; rfl⟩
  rw [RuleSet.tokenize, RuleSet.tokenize, hrun]
  obtain ⟨lx, _ | _⟩ := (Lexer.start pattern options plain).run <;> rfl

/-- A literal that would close a context, among rules that fail on the pattern inside of another. -/
theorem RuleSet.tokenize_insert_literal_pop :
    let l : Literal := { text := "~~".toList, pop? := some "brace", drop := true }
    let opener : Literal := { text := "<".toList, push? := some "bracket" }
    let extended : RuleSet :=
      ⟨[("open", .literal opener), ("close", .literal l), ("text", .builtin .text)]⟩
    let plain : RuleSet := ⟨[("open", .literal opener), ("text", .builtin .text)]⟩
    ¬ l.text <:+: "~<a~".toList ∧
      extended.tokenize {} "~<a~".toList = plain.tokenize {} "~<a~".toList :=
  ⟨by decide, (tokenize_insert_literal (by decide) {} "close" [("open", .literal _)]
    [("text", .builtin .text)]).1⟩

end GlobPattern
