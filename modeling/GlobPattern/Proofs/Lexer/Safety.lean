import GlobPattern.Proofs.Lexer.Outcome

/-!
# What every run keeps

Whatever the rules are, the nodes of a lexer stand in its pattern in order and apart, none behind
the cursor. Unless a rule drops its node, nothing that was consumed is missing from them.

* `Lexer.Orderly`, `Lexer.Lossless`: the two invariants, kept by every step that succeeds and by
  a step that fails, with the exception that a refused closing loses the text of its literal;
* `RuleSet.KeepsNodes`: no rule of the set drops its node;
* `Lexer.Ending`: the three ways in which a run ends;
* **`Lexer.run_ends_orderly`**: every run ends in one of them after at most as many steps as the
  pattern has characters, and keeps both invariants.
-/

namespace GlobPattern

theorem Cursor.position_eq_after_parsed (c : Cursor) :
    c.position = Position.start.after c.parsed := c.position_eq

/-- No rule of the set keeps its node to itself. -/
def RuleSet.KeepsNodes (rules : RuleSet) : Prop := ∀ e ∈ rules.entries, e.2.drops = false

namespace Lexer

/-- The nodes stand in the pattern, in order and apart, and none of them behind the cursor. -/
structure Orderly (pattern : List Char) (lx : Lexer) : Prop where
  source_eq : lx.cursor.source = pattern
  placed : Placed pattern lx.cursor.offset lx.nodes.toList

/-- The nodes cover all that was consumed. -/
def Lossless (lx : Lexer) : Prop := coveredText lx.nodes.toList = lx.cursor.parsed

variable {pattern : List Char} {entries : List (String × Rule)} {lx lx' : Lexer}
  {r : Except Failure Unit}

theorem standsIn_source {c : Cursor} {l : Lexeme} (hl : l.Covers c.remaining) :
    (l.nodeAt c.position).StandsIn c.source := by
  have h := Lexeme.standsIn_nodeAt hl.1 c.parsed (c.remaining.drop l.raw.length)
  rw [List.append_assoc, hl.append_drop, ← c.position_eq_after_parsed] at h
  exact h

theorem Orderly.of_outcome (h : Orderly pattern lx) (ho : Outcome entries lx lx' r) :
    Orderly pattern lx' := by
  refine ⟨ho.source_eq.trans h.source_eq, ?_⟩
  cases ho with
  | took l hl hc hn =>
    have hb : lx'.cursor.offset = lx.cursor.offset + l.raw.length := by
      rw [hc, Cursor.offset_advance_raw hl]
    rw [hn, Array.toList_push, hb]
    refine h.placed.snoc (h.source_eq ▸ standsIn_source hl) le_rfl ?_
    rw [Lexeme.nodeAt, Position.offset_after]
    exact le_rfl
  | dropped l _ hl hc hn =>
    rw [hn, hc, Cursor.offset_advance_raw hl]
    exact h.placed.mono (Nat.le_add_right _ _)
  | stalled _ hc hn => rw [hn, hc]; exact h.placed
  | refused e k hc hn _ =>
    rw [hn, hc]
    refine h.placed.mono ?_
    rw [Cursor.offset_eq_length, Cursor.offset_eq_length, Cursor.parsed_advance,
      List.length_append]
    exact Nat.le_add_right _ _

/-- Only a rule that drops its node and a refused closing lose text. -/
theorem Lossless.of_outcome (h : Lossless lx) (hk : ∀ e ∈ entries, e.2.drops = false)
    (ho : Outcome entries lx lx' r) (hr : ∀ e, r ≠ .error (.context e)) : Lossless lx' := by
  unfold Lossless at h ⊢
  cases ho with
  | took l hl hc hn =>
    rw [hn, hc, Array.toList_push, coveredText_append, h, Cursor.parsed_advance, hl.take_eq]
    simp [coveredText, Lexeme.nodeAt]
  | dropped l hd hl hc hn =>
    obtain ⟨e, he, hd⟩ := hd
    rw [hk e he] at hd
    cases hd
  | stalled _ hc hn => rw [hn, hc]; exact h
  | refused e k hc hn he => exact absurd rfl (hr e)

/-! ## The end of a run -/

/-- How a run ends, where `last` is the lexer behind its last step that succeeded: at the end of
the pattern, with a fault at the cursor, where the failing step began, or with the refused closing
of a context that is not open. -/
inductive Ending (last : Lexer) : Lexer → Except Failure Unit → Prop
  | finished (ha : last.cursor.atEnd = true) : Ending last last (.ok ())
  | faulted {lx : Lexer} (e : LexError) (hs : last.step = (lx, .error (.lex e)))
      (here : e.position = lx.cursor.position) (began : e.position = last.cursor.position)
      (hsource : e.source = lx.cursor.source) : Ending last lx (.error (.lex e))
  | refused {lx : Lexer} (e : ContextNotOpen) (hs : last.step = (lx, .error (.context e)))
      (he : e.name ∉ lx.state.contexts) : Ending last lx (.error (.context e))

theorem ending_of_step {last : Lexer} {e : Failure} (hs : last.step = (lx, .error e)) :
    Ending last lx (.error e) := by
  have ho := outcome_step last
  rw [hs] at ho
  dsimp only at ho
  cases ho with
  | stalled fault hc _ => exact .faulted _ hs rfl (congrArg Cursor.position hc) rfl
  | refused e k _ _ he => exact .refused e hs he

theorem orderly_start (pattern : List Char) (options : Options) (rules : RuleSet) :
    Orderly pattern (start pattern options rules) := ⟨rfl, .nil⟩

theorem steps_keep {n : Nat} {last : Lexer} (h : Steps n lx last) (ho : Orderly pattern lx)
    (hl : lx.rules.KeepsNodes → Lossless lx) : last.rules = lx.rules ∧ Orderly pattern last ∧
      (lx.rules.KeepsNodes → Lossless last) := by
  refine h.invariant (P := fun a => a.rules = lx.rules ∧ Orderly pattern a ∧
    (lx.rules.KeepsNodes → Lossless a)) ?_ ⟨rfl, ho, hl⟩
  rintro a ⟨hr, ha, hl⟩ - b hs
  have out := outcome_step a
  rw [hs] at out
  refine ⟨(rules_of_step hs).trans hr, ha.of_outcome out, fun hk => (hl hk).of_outcome ?_ out (by simp)⟩
  rw [hr]
  exact hk

/-- **Every run ends, in one of three ways, and keeps its nodes in order.** With any rules, at most
as many steps succeed as the pattern has characters. Then the lexer is at the end, or the next step
fails without moving the cursor, or it closes a context that is not open. In each case the nodes
stand in the pattern, in order and apart, up to the cursor; and if no rule drops its node and no
closing was refused, they cover exactly what was consumed. -/
theorem run_ends_orderly (pattern : List Char) (options : Options) (rules : RuleSet) :
    ∃ n last lx outcome, n ≤ pattern.length ∧ Steps n (start pattern options rules) last ∧
      (start pattern options rules).run = (lx, outcome) ∧ Ending last lx outcome ∧
      rules.tokenize options pattern = outcome.map (fun _ => lx.ast) ∧
      lx.ast.pattern = pattern ∧
      Placed pattern lx.cursor.offset lx.nodes.toList ∧
      (rules.KeepsNodes → (∀ e, outcome ≠ .error (.context e)) →
        coveredText lx.nodes.toList = lx.cursor.parsed) := by
  obtain ⟨n, last, steps, h⟩ := run_cases (start pattern options rules)
  have hn : n ≤ pattern.length := by
    have := steps.length_le
    change n + _ ≤ pattern.length at this
    omega
  obtain ⟨hr, ho, hl⟩ := steps_keep steps (orderly_start pattern options rules) (fun _ => rfl)
  rcases h with ⟨ha, hrun⟩ | ⟨lx, e, ha, hs, hrun⟩
  · refine ⟨n, last, last, .ok (), hn, steps, hrun, .finished ha, ?_, ho.source_eq, ho.placed,
      fun hk _ => hl hk⟩
    rw [RuleSet.tokenize, hrun]
    rfl
  · have out := outcome_step last
    rw [hs] at out
    have ho' := ho.of_outcome out
    refine ⟨n, last, lx, .error e, hn, steps, hrun, ending_of_step hs, ?_, ho'.source_eq,
      ho'.placed, fun hk he => (hl hk).of_outcome ?_ out he⟩
    · rw [RuleSet.tokenize, hrun]
      rfl
    · rw [hr]
      exact hk

end Lexer

end GlobPattern
