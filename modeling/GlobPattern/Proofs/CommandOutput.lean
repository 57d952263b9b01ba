import GlobPattern.Command
import GlobPattern.Proofs.Reading
import Mathlib.Data.List.Forall2

/-!
# What the command prints

The command reads its patterns one after the other, each as if it were alone, and prints only when
all of them are read. So its output is put together from what each pattern gives on its own, and the
first pattern that the rule set fails on takes the place of everything else.

* `Command.tokenizeAll_eq_ok_iff`, `Command.tokenizeAll_eq_error_iff`: reading patterns in order, to
  the end or up to the first failure;
* `exists_tokenize_unchanged`, `Command.execute_unchanged`: the built-in rules stop no command;
* `RuleSet.Answers`: reading a pattern ends with its nodes or with a lexing error;
* `Command.AllOrNothing`, **`Command.run_all_or_nothing`**: the two outcomes of a command.
-/

namespace GlobPattern

theorem exists_tokenize_unchanged (options : Options) (pattern : List Char) :
    ∃ ast, tokenize .unchanged options pattern = .ok ast := by
  obtain ⟨ls, t, h, ht, _⟩ := Scan.exists_reads_start options pattern
  exact ⟨_, RuleSet.tokenize_ofKinds Kind.admissible_all h ht⟩

theorem tokenize_of_extend {extend : RuleSet.Extension} {rules : RuleSet}
    (h : extend RuleSet.default = .ok rules) : tokenize extend = rules.tokenize := by
  funext options pattern
  rw [tokenize, h]

/-- The rules end a pattern with its nodes or with a lexing error. -/
def RuleSet.Answers (rules : RuleSet) (options : Options) (pattern : List Char) : Prop :=
  (∃ ast, rules.tokenize options pattern = .ok ast) ∨
    ∃ e, rules.tokenize options pattern = .error (.lex e)

instance (rules : RuleSet) (options : Options) (pattern : List Char) :
    Decidable (rules.Answers options pattern) :=
  match h : rules.tokenize options pattern with
  | .ok ast => .isTrue (.inl ⟨ast, h⟩)
  | .error (.lex e) => .isTrue (.inr ⟨e, h⟩)
  | .error (.context e) => .isFalse (by simp [RuleSet.Answers, h])
  | .error (.rule e) => .isFalse (by simp [RuleSet.Answers, h])

namespace Command

variable {extend : RuleSet.Extension} {rules : RuleSet} {options : Options}
  {patterns : List String} {asts : List Ast} {e : Failure}

/-! ## Patterns in order -/

theorem exists_of_forall₂ {α β : Type} {R : α → β → Prop} {l : List α} {m : List β}
    (h : List.Forall₂ R l m) : ∀ a ∈ l, ∃ b, R a b :=
  ((List.forall₂_and_left l m).1 (h.imp fun _ b hb => ⟨⟨b, hb⟩, hb⟩)).1

theorem tokenizeAll_cons_of_ok {p : String} {ast : Ast}
    (h : tokenize extend options p.toList = .ok ast) :
    tokenizeAll extend options (p :: patterns) =
      (tokenizeAll extend options patterns).map (ast :: ·) := by
  rw [tokenizeAll, h]

theorem tokenizeAll_cons_of_error {p : String} (h : tokenize extend options p.toList = .error e) :
    tokenizeAll extend options (p :: patterns) = .error e := by
  rw [tokenizeAll, h]

theorem tokenizeAll_eq_ok_iff : tokenizeAll extend options patterns = .ok asts ↔
    List.Forall₂ (fun p ast => tokenize extend options p.toList = .ok ast) patterns asts := by
  induction patterns generalizing asts with
  | nil => simp [tokenizeAll, eq_comm]
  | cons p rest ih =>
    rw [List.forall₂_cons_left_iff]
    cases hp : tokenize extend options p.toList with
    | error e => simp [tokenizeAll_cons_of_error hp]
    | ok ast =>
      rw [tokenizeAll_cons_of_ok hp]
      constructor
      · intro h
        cases hrest : tokenizeAll extend options rest with
        | error e => rw [hrest] at h; cases h
        | ok others =>
          rw [hrest] at h
          cases h
          exact ⟨ast, others, rfl, ih.1 hrest, rfl⟩
      · rintro ⟨_, others, ⟨⟩, hothers, rfl⟩
        rw [ih.2 hothers]
        rfl

theorem tokenizeAll_eq_error_iff : tokenizeAll extend options patterns = .error e ↔
    ∃ before p later, patterns = before ++ p :: later ∧
      (∀ q ∈ before, ∃ ast, tokenize extend options q.toList = .ok ast) ∧
      tokenize extend options p.toList = .error e := by
  constructor
  · intro h
    induction patterns with
    | nil => cases h
    | cons p rest ih =>
      cases hp : tokenize extend options p.toList with
      | error e' =>
        rw [tokenizeAll_cons_of_error hp] at h
        cases h
        exact ⟨[], p, rest, rfl, by simp, hp⟩
      | ok ast =>
        rw [tokenizeAll_cons_of_ok hp] at h
        cases hrest : tokenizeAll extend options rest with
        | ok asts => rw [hrest] at h; cases h
        | error e' =>
          rw [hrest] at h
          cases h
          obtain ⟨before, q, later, rfl, hbefore, hq⟩ := ih hrest
          refine ⟨p :: before, q, later, rfl, ?_, hq⟩
          simpa [hp] using hbefore
  · rintro ⟨before, p, later, rfl, hbefore, hp⟩
    induction before with
    | nil => exact tokenizeAll_cons_of_error hp
    | cons q before ih =>
      obtain ⟨ast, hq⟩ := hbefore q List.mem_cons_self
      rw [List.cons_append, tokenizeAll_cons_of_ok hq,
        ih fun q hq => hbefore q (List.mem_cons_of_mem _ hq)]
      rfl

theorem tokenizeAll_unchanged (options : Options) (patterns : List String) :
    ∃ asts, tokenizeAll .unchanged options patterns = .ok asts := by
  cases h : tokenizeAll .unchanged options patterns with
  | ok asts => exact ⟨asts, rfl⟩
  | error e =>
    obtain ⟨_, p, _, _, _, hp⟩ := tokenizeAll_eq_error_iff.1 h
    obtain ⟨ast, hast⟩ := exists_tokenize_unchanged options p.toList
    cases hp.symm.trans hast

theorem execute_unchanged (s : Settings) :
    ∃ stdout, execute .unchanged s = .ok ⟨0, stdout, ""⟩ := by
  obtain ⟨asts, hasts⟩ := tokenizeAll_unchanged s.options s.patterns
  exact ⟨render s.asJson asts, by rw [execute, hasts]⟩

/-! ## Outcomes -/

/-- What a command should make of its patterns. If all of them are read, it ends with 0 and prints
what each gives alone, in order. If one fails, it ends with 1 and prints only how the first that
fails does. -/
structure AllOrNothing (rules : RuleSet) (s : Settings) (result : Except Crash Outcome) :
    Prop where
  printed : (∀ p ∈ s.patterns, ∃ ast, rules.tokenize s.options p.toList = .ok ast) →
    ∃ asts stdout,
      List.Forall₂ (fun p ast => rules.tokenize s.options p.toList = .ok ast) s.patterns asts ∧
      result = .ok ⟨0, stdout, ""⟩ ∧
      (s.asJson = false → stdout = String.join (asts.map Ast.dump)) ∧
      (s.asJson = true → stdout = (Json.arr (asts.map Ast.toJson)).text ++ "\n")
  failed : (∃ p ∈ s.patterns, ∃ e, rules.tokenize s.options p.toList = .error (.lex e)) →
    ∃ before p later e, s.patterns = before ++ p :: later ∧
      (∀ q ∈ before, ∃ ast, rules.tokenize s.options q.toList = .ok ast) ∧
      rules.tokenize s.options p.toList = .error (.lex e) ∧
      result = .ok ⟨1, "", e.text ++ "\n"⟩

theorem execute_allOrNothing {s : Settings} (hrules : extend RuleSet.default = .ok rules)
    (hends : ∀ p ∈ s.patterns, rules.Answers s.options p.toList) :
    AllOrNothing rules s (execute extend s) := by
  rw [execute]
  cases h : tokenizeAll extend s.options s.patterns with
  | ok asts =>
    rw [tokenizeAll_eq_ok_iff, tokenize_of_extend hrules] at h
    refine ⟨fun _ => ⟨asts, _, h, rfl, ?_, ?_⟩, ?_⟩
    · intro hs
      rw [render, hs, if_neg Bool.false_ne_true]
    · intro hs
      rw [render, hs, if_pos rfl]
    · rintro ⟨p, hp, e, he⟩
      obtain ⟨ast, hast⟩ := exists_of_forall₂ h p hp
      cases he.symm.trans hast
  | error e =>
    rw [tokenizeAll_eq_error_iff, tokenize_of_extend hrules] at h
    obtain ⟨before, p, later, hsplit, hbefore, hp⟩ := h
    have hmem : p ∈ s.patterns := by rw [hsplit]; simp
    obtain ⟨ast, hast⟩ | ⟨e', he'⟩ := hends p hmem
    · cases hp.symm.trans hast
    · obtain rfl : e = .lex e' := Except.error.inj (hp.symm.trans he')
      refine ⟨fun hall => ?_, fun _ => ⟨before, p, later, e', hsplit, hbefore, hp, rfl⟩⟩
      obtain ⟨ast, hast⟩ := hall p hmem
      cases hp.symm.trans hast

theorem run_of_settings {stack : Toml.Stack} {read : Config.Reader} {argv : List String}
    {a : Arguments} {s : Settings} (hargs : Arguments.parse argv = .ok a)
    (hset : resolve stack read "." a = .ok s) :
    run stack read extend argv = execute extend s := by
  rw [run, hargs]
  dsimp only
  rw [hset]

/-- **A command prints what each of its patterns gives alone, or nothing but the first failure.**
For every command line and configuration file that ask for something, and every rule set that ends
each pattern with its nodes or with a lexing error. The built-in rules fail on no pattern. -/
theorem run_all_or_nothing {stack : Toml.Stack} {read : Config.Reader} {argv : List String}
    {a : Arguments} {s : Settings} (hargs : Arguments.parse argv = .ok a)
    (hset : resolve stack read "." a = .ok s)
    (hrules : extend RuleSet.default = .ok rules)
    (hends : ∀ p ∈ s.patterns, rules.Answers s.options p.toList) :
    AllOrNothing rules s (run stack read extend argv) ∧
      (rules = RuleSet.default → (∀ p ∈ s.patterns, ∀ e,
          rules.tokenize s.options p.toList ≠ .error (.lex e)) ∧
        ∃ stdout, run stack read extend argv = .ok ⟨0, stdout, ""⟩) := by
  rw [run_of_settings hargs hset]
  have outcome := execute_allOrNothing hrules hends
  refine ⟨outcome, ?_⟩
  rintro rfl
  have hread : ∀ p ∈ s.patterns, ∃ ast, RuleSet.default.tokenize s.options p.toList = .ok ast :=
    fun p _ => exists_tokenize_unchanged s.options p.toList
  constructor
  · intro p hp e he
    obtain ⟨ast, hast⟩ := hread p hp
    cases hast.symm.trans he
  · obtain ⟨asts, stdout, -, hresult, -⟩ := outcome.printed hread
    exact ⟨stdout, hresult⟩

/-- Without the rule for plain text the second of two patterns fails. -/
theorem run_all_or_nothing_second_fails :
    let a : Arguments := { patterns := ["*", "!a"], noNegate := true }
    let s : Settings := ⟨["*", "!a"], { noNegate := true }, false⟩
    let rules : RuleSet := .ofKinds Kind.all.dropLast
    Arguments.parse ["--nonegate", "*", "!a"] = .ok a ∧
      resolve .unlimited (fun _ => .ok none) "." a = .ok s ∧
      RuleSet.Extension.ofEdits [.remove "text"] RuleSet.default = .ok rules ∧
      (∀ p ∈ s.patterns, rules.Answers s.options p.toList) ∧
      AllOrNothing rules s
        (run .unlimited (fun _ => .ok none) (.ofEdits [.remove "text"]) ["--nonegate", "*", "!a"]) := by
  intro a s rules
  have hargs : Arguments.parse ["--nonegate", "*", "!a"] = .ok a := by rfl
  have hset : resolve .unlimited (fun _ => .ok none) "." a = .ok s := by rfl
  have hrules : RuleSet.Extension.ofEdits [.remove "text"] RuleSet.default = .ok rules := by rfl
  have hends : ∀ p ∈ s.patterns, rules.Answers s.options p.toList := by decide +kernel
  exact ⟨hargs, hset, hrules, hends, (run_all_or_nothing hargs hset hrules hends).1⟩

end Command

end GlobPattern
