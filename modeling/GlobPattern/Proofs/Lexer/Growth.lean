import GlobPattern.Operation
import GlobPattern.Proofs.Lexer.Outcome

/-!
# Nothing is taken back

Whatever is done with a lexer, and whether or not it succeeds, the cursor only moves forward,
counters only grow, flags only go on, and paths and nodes are only appended. The flag of a leading
dot has one value that the options decide, and there is one wrap, so neither changes once it is set.

* `ScanState.Grows`, `Scan.Grows`, `Lexer.Grows`: three preorders, one on top of the other;
* `Rule.grows_apply`, `Lexer.grows_tryRules`, `Lexer.grows_run`, **`Lexer.grows_perform`**: what a
  rule, a step, a run and every operation do;
* `Lexer.performAll`: operations in sequence, those that fail included;
* `Lexer.TakesNothingBack`, **`Lexer.performAll_takesNothingBack`**: between any two places of such
  a sequence.
-/

namespace GlobPattern

/-! ## Scan states -/

namespace ScanState

/-- Counters do not shrink, flags stay on and paths stay in front of those that come later. -/
structure Grows (s t : ScanState) : Prop where
  separatorCount : s.separatorCount ≤ t.separatorCount
  hasWildcardStar : s.hasWildcardStar = true → t.hasWildcardStar = true
  hasGlobstar : s.hasGlobstar = true → t.hasGlobstar = true
  hasMetachar : s.hasMetachar = true → t.hasMetachar = true
  hasQmark : s.hasQmark = true → t.hasQmark = true
  addPrefix : s.addPrefix = true → t.addPrefix = true
  paths : s.paths <+: t.paths

variable {s t u : ScanState}

theorem Grows.refl (s : ScanState) : s.Grows s :=
  ⟨le_rfl, id, id, id, id, id, List.prefix_rfl⟩

theorem Grows.trans (h : s.Grows t) (h' : t.Grows u) : s.Grows u where
  separatorCount := h.separatorCount.trans h'.separatorCount
  hasWildcardStar := h'.hasWildcardStar ∘ h.hasWildcardStar
  hasGlobstar := h'.hasGlobstar ∘ h.hasGlobstar
  hasMetachar := h'.hasMetachar ∘ h.hasMetachar
  hasQmark := h'.hasQmark ∘ h.hasQmark
  addPrefix := h'.addPrefix ∘ h.addPrefix
  paths := h.paths.trans h'.paths

theorem grows_record (s : ScanState) (sh : Shape) : s.Grows (s.record sh) := by
  have keep := Grows.refl s
  cases sh with
  | dot => exact { keep with }
  | qmark => exact { keep with hasMetachar := fun _ => rfl, hasQmark := fun _ => rfl }
  | globstar => exact { keep with hasMetachar := fun _ => rfl, hasGlobstar := fun _ => rfl }
  | star => exact { keep with hasMetachar := fun _ => rfl, hasWildcardStar := fun _ => rfl }
  | slash => exact { keep with separatorCount := Nat.le_succ _ }
  | _ => exact keep

@[simp] theorem strictOpen_record (s : ScanState) (sh : Shape) :
    (s.record sh).strictOpen = s.strictOpen := by
  cases sh <;> rfl

theorem grows_noteLeadingDot (s : ScanState) (options : Options) :
    s.Grows (s.noteLeadingDot options) :=
  { Grows.refl s with addPrefix := fun _ => rfl }

theorem grows_pushContext (s : ScanState) (name : String) : s.Grows (s.pushContext name) :=
  { Grows.refl s with }

theorem grows_addPath (s : ScanState) (path : String) : s.Grows (s.addPath path) :=
  { Grows.refl s with paths := List.prefix_append _ _ }

theorem popContext_eq_ok {name : String} (h : s.popContext name = .ok t) :
    ∃ contexts, t = { s with contexts } := by
  unfold popContext at h
  split at h <;> cases h
  exact ⟨_, rfl⟩

theorem grows_of_contexts (s : ScanState) (contexts : List String) : s.Grows { s with contexts } :=
  { Grows.refl s with }

end ScanState

/-! ## Scans -/

namespace Scan

/-- The state grows and the cursor does not go back. The flag of a leading dot may be set to what
the options say, and the wrap to the negation. -/
structure Grows (s t : Scan) : Prop where
  options_eq : t.options = s.options
  offset_le : s.cursor.offset ≤ t.cursor.offset
  state : s.state.Grows t.state
  strictOpen : t.state.strictOpen = s.state.strictOpen ∨
    t.state.strictOpen = s.options.strictOpen
  wrap : t.wrap = s.wrap ∨ t.wrap = some Wrap.negation

variable {s t u : Scan}

theorem Grows.refl (s : Scan) : s.Grows s := ⟨rfl, le_rfl, .refl _, .inl rfl, .inl rfl⟩

theorem Grows.trans (h : s.Grows t) (h' : t.Grows u) : s.Grows u where
  options_eq := h'.options_eq.trans h.options_eq
  offset_le := h.offset_le.trans h'.offset_le
  state := h.state.trans h'.state
  strictOpen := by
    rcases h'.strictOpen with he | he
    · rw [he]; exact h.strictOpen
    · exact .inr (by rw [he, h.options_eq])
  wrap := by
    rcases h'.wrap with he | he
    · rw [he]; exact h.wrap
    · exact .inr he

theorem grows_advance (s : Scan) (k : Nat) : s.Grows (s.advance k) :=
  { Grows.refl s with
    offset_le := by
      rw [advance, Cursor.offset_eq_length, Cursor.offset_eq_length, Cursor.parsed_advance,
        List.length_append]
      exact Nat.le_add_right _ _ }

theorem grows_of_state {state : ScanState} (h : s.state.Grows state)
    (hs : state.strictOpen = s.state.strictOpen) : s.Grows { s with state } :=
  { Grows.refl s with state := h, strictOpen := .inl hs }

theorem grows_noteLeadingDot (s : Scan) : s.Grows s.noteLeadingDot := by
  unfold noteLeadingDot
  split
  · exact { Grows.refl s with
      state := s.state.grows_noteLeadingDot s.options
      strictOpen := .inr rfl }
  · exact .refl s

theorem grows_accept (s : Scan) (l : Lexeme) : s.Grows (s.accept l) :=
  { s.grows_advance l.raw.length with
    state := s.state.grows_record l.shape
    strictOpen := .inl (s.state.strictOpen_record l.shape)
    wrap := by
      unfold accept
      split
      · exact .inr rfl
      · exact .inl rfl }

theorem grows_applyKind (s : Scan) (kind : Kind) : s.Grows (s.applyKind kind).1 := by
  rcases s.applyKind_cases kind with ⟨_, h⟩ | ⟨l, _, _, _, h⟩ | ⟨_, _, h⟩ <;> rw [h]
  · exact s.grows_noteLeadingDot
  · exact s.grows_accept l
  · exact .refl s

end Scan

/-! ## Rules -/

namespace Literal

variable (l : Literal) (s : ScanState)

theorem grows_opened : s.Grows (l.opened s) ∧ (l.opened s).strictOpen = s.strictOpen := by
  unfold opened
  cases l.push? with
  | none => exact ⟨.refl s, rfl⟩
  | some name => exact ⟨s.grows_pushContext name, rfl⟩

theorem grows_noted : s.Grows (l.noted s) ∧ (l.noted s).strictOpen = s.strictOpen := by
  unfold noted
  cases l.path? with
  | none => exact ⟨.refl s, rfl⟩
  | some path => exact ⟨s.grows_addPath path, rfl⟩

variable {l s} in
theorem grows_of_closed {t : ScanState} (h : l.closed s = .ok t) :
    s.Grows t ∧ t.strictOpen = s.strictOpen := by
  unfold closed at h
  split at h
  · obtain ⟨contexts, rfl⟩ := ScanState.popContext_eq_ok h
    exact ⟨s.grows_of_contexts contexts, rfl⟩
  · cases h
    exact ⟨.refl s, rfl⟩

theorem grows_apply (s : Scan) : s.Grows (l.apply s).1 := by
  unfold apply
  split
  · obtain ⟨hopened, eopened⟩ := l.grows_opened s.state
    have behind : s.Grows { s.advance l.text.length with state := l.opened s.state } :=
      (s.grows_advance _).trans (Scan.grows_of_state hopened eopened)
    dsimp only
    split
    · next state hs =>
      obtain ⟨hclosed, eclosed⟩ := grows_of_closed hs
      obtain ⟨hnoted, enoted⟩ := l.grows_noted state
      exact behind.trans (Scan.grows_of_state (hclosed.trans hnoted) (enoted.trans eclosed))
    · exact behind
  · exact .refl s

end Literal

/-- **No rule takes anything back**, one that fails included. -/
theorem Rule.grows_apply (rule : Rule) (s : Scan) : s.Grows (rule.apply s).1 := by
  cases rule with
  | builtin kind => exact s.grows_applyKind kind
  | literal l => exact l.grows_apply s
  | stuck value => exact .refl s

/-! ## Lexers -/

namespace Lexer

/-- The scan grows, and the nodes stay in front of those that come later. -/
structure Grows (a b : Lexer) : Prop where
  scan : a.toScan.Grows b.toScan
  nodes : a.nodes.toList <+: b.nodes.toList

variable {a b c : Lexer}

theorem Grows.refl (a : Lexer) : a.Grows a := ⟨.refl _, List.prefix_rfl⟩

theorem Grows.trans (h : a.Grows b) (h' : b.Grows c) : a.Grows c :=
  ⟨h.scan.trans h'.scan, h.nodes.trans h'.nodes⟩

theorem grows_withScan {s : Scan} (h : a.toScan.Grows s) : a.Grows (a.withScan s) :=
  ⟨h, List.prefix_rfl⟩

theorem grows_append (a : Lexer) (node? : Option Node) : a.Grows (a.append node?) := by
  refine ⟨?_, ?_⟩
  · rw [toScan_append]
    exact .refl _
  · cases node? with
    | none => exact List.prefix_rfl
    | some node =>
      rw [append, Array.toList_push]
      exact List.prefix_append _ _

theorem grows_tryRules (entries : List (String × Rule)) (a : Lexer) :
    a.Grows (tryRules entries a).1 := by
  induction entries generalizing a with
  | nil => exact .refl a
  | cons entry rest ih =>
    obtain ⟨name, rule⟩ := entry
    have applied := grows_withScan (rule.grows_apply a.toScan)
    rw [tryRules]
    split
    · next hr => rw [hr] at applied; exact applied
    · next node? hr =>
      rw [hr] at applied
      split_ifs
      · exact applied.trans (grows_append _ node?)
      · exact applied
      · exact applied.trans (ih _)

theorem grows_step (a : Lexer) : a.Grows a.step.1 := grows_tryRules a.rules.entries a

theorem grows_run (a : Lexer) : a.Grows a.run.1 := by
  obtain ⟨n, last, steps, h⟩ := run_cases a
  have hlast : a.Grows last := by
    refine steps.invariant (P := a.Grows) ?_ (.refl a)
    intro mid hmid _ next hs
    have := grows_step mid
    rw [hs] at this
    exact hmid.trans this
  rcases h with ⟨_, hrun⟩ | ⟨lx', e, _, hs, hrun⟩
  · rw [hrun]
    exact hlast
  · have := grows_step last
    rw [hs] at this
    rw [hrun]
    exact hlast.trans this

@[simp] theorem fst_answering (answer : Lexer → Answer) (r : Lexer × Except Failure Unit) :
    (answering answer r).1 = r.1 := by
  obtain ⟨lx, _ | _⟩ := r <;> rfl

/-- **No operation takes anything back**, one that fails included. -/
theorem grows_perform (a : Lexer) (op : Operation) : a.Grows (a.perform op).1 := by
  cases op with
  | rule kind => exact grows_withScan (a.grows_applyKind kind)
  | step => rw [perform, fst_answering]; exact grows_step a
  | run => rw [perform, fst_answering]; exact grows_run a
  | consume n =>
    unfold perform Cursor.consume
    dsimp only
    split
    · next h =>
      split at h <;> cases h
      exact grows_withScan (a.grows_advance n.toNat)
    · exact .refl a
  | push name => exact grows_withScan (Scan.grows_of_state (a.state.grows_pushContext name) rfl)
  | pop name =>
    unfold perform
    dsimp only
    split
    · next state h =>
      obtain ⟨contexts, rfl⟩ := ScanState.popContext_eq_ok h
      exact grows_withScan (Scan.grows_of_state (a.state.grows_of_contexts contexts) rfl)
    · exact .refl a

/-! ## Operations in sequence -/

/-- The lexer behind a number of operations, whatever they answer. -/
def performAll (lx : Lexer) (ops : List Operation) : Lexer :=
  ops.foldl (fun lx op => (lx.perform op).1) lx

theorem performAll_append (lx : Lexer) (ops more : List Operation) :
    lx.performAll (ops ++ more) = (lx.performAll ops).performAll more := List.foldl_append

theorem grows_performAll (a : Lexer) (ops : List Operation) : a.Grows (a.performAll ops) := by
  induction ops generalizing a with
  | nil => exact .refl a
  | cons op rest ih => exact (a.grows_perform op).trans (ih _)

/-- From `a` on to `b` nothing was taken back: of what is counted, of what is on, of the paths and
nodes, and of the wrap. -/
structure TakesNothingBack (a b : Lexer) : Prop where
  offset : a.cursor.offset ≤ b.cursor.offset
  separatorCount : a.state.separatorCount ≤ b.state.separatorCount
  hasWildcardStar : a.state.hasWildcardStar = true → b.state.hasWildcardStar = true
  hasGlobstar : a.state.hasGlobstar = true → b.state.hasGlobstar = true
  hasMetachar : a.state.hasMetachar = true → b.state.hasMetachar = true
  hasQmark : a.state.hasQmark = true → b.state.hasQmark = true
  addPrefix : a.state.addPrefix = true → b.state.addPrefix = true
  strictOpen : a.state.strictOpen = true → b.state.strictOpen = true
  paths : a.state.paths <+: b.state.paths
  nodes : a.ast.nodes <+: b.ast.nodes
  opening : ∀ text, a.ast.opening = some text → b.ast.opening = some text
  closing : a.ast.closing ≠ "" → b.ast.closing = a.ast.closing

theorem wrap_of_grows_start {pattern : List Char} {options : Options} {rules : RuleSet}
    (h : (start pattern options rules).Grows a) : a.wrap = none ∨ a.wrap = some Wrap.negation :=
  h.scan.wrap

theorem strictOpen_of_grows_start {pattern : List Char} {options : Options} {rules : RuleSet}
    (h : (start pattern options rules).Grows a) (ha : a.state.strictOpen = true) :
    a.options.strictOpen = true := by
  rw [h.scan.options_eq]
  rcases h.scan.strictOpen with he | he
  · rw [he] at ha
    cases ha
  · rw [← he, ha]

theorem Grows.takesNothingBack {pattern : List Char} {options : Options} {rules : RuleSet}
    (h0 : (start pattern options rules).Grows a) (h : a.Grows b) : a.TakesNothingBack b := by
  have hwrap : a.wrap = some Wrap.negation → b.wrap = some Wrap.negation := by
    intro ha
    rcases h.scan.wrap with hb | hb
    · rw [hb, ha]
    · exact hb
  exact {
    offset := h.scan.offset_le
    separatorCount := h.scan.state.separatorCount
    hasWildcardStar := h.scan.state.hasWildcardStar
    hasGlobstar := h.scan.state.hasGlobstar
    hasMetachar := h.scan.state.hasMetachar
    hasQmark := h.scan.state.hasQmark
    addPrefix := h.scan.state.addPrefix
    strictOpen := by
      intro ha
      rcases h.scan.strictOpen with hb | hb
      · rw [hb, ha]
      · rw [hb, strictOpen_of_grows_start h0 ha]
    paths := h.scan.state.paths
    nodes := h.nodes
    opening := by
      intro text
      rcases wrap_of_grows_start h0 with ha | ha
      · simp [Ast.opening, ast, ha]
      · simp [Ast.opening, ast, ha, hwrap ha]
    closing := by
      rcases wrap_of_grows_start h0 with ha | ha
      · simp [Ast.closing, ast, ha]
      · simp [Ast.closing, ast, ha, hwrap ha] }

/-- **Between any two places of any sequence of operations nothing is taken back**, those that fail
included; and at each place there is a text in front of the compiled expression exactly if there is
one behind it. -/
theorem performAll_takesNothingBack (pattern : List Char) (options : Options) (rules : RuleSet)
    (ops more : List Operation) :
    ((start pattern options rules).performAll ops).TakesNothingBack
        ((start pattern options rules).performAll (ops ++ more)) ∧
      (((start pattern options rules).performAll ops).ast.opening.isSome ↔
        ((start pattern options rules).performAll ops).ast.closing ≠ "") := by
  have h0 := grows_performAll (start pattern options rules) ops
  constructor
  · rw [performAll_append]
    exact h0.takesNothingBack (grows_performAll _ more)
  · rcases wrap_of_grows_start h0 with h | h
    · simp [Ast.opening, Ast.closing, ast, h]
    · simp [Ast.opening, Ast.closing, ast, h, Wrap.negation]

end Lexer

end GlobPattern
