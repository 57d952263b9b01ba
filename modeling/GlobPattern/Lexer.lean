import GlobPattern.SourceReport
import GlobPattern.RuleSet

/-!
# The lexer

A lexer reads one pattern with an ordered rule set. In a step the rules are tried in order: the
first one that consumes text ends the step, and its node, if it makes one, is appended. A rule that
consumes nothing is passed over, and keeps whatever else it changed; it must not make a node. A run
repeats steps up to the end of the pattern.

* `Lexer`, `Lexer.start`, `Lexer.ast`;
* `Failure`: what can end a run early;
* `Lexer.tryRules`, `Lexer.step`, `Lexer.run`: each returns the lexer it leaves next to its outcome;
* `step_shortens`: a step that succeeds consumes text, which is why runs end;
* `RuleSet.tokenize`, `tokenize`: a fresh run over a pattern, with a given rule set or with what a
  caller makes of the default one.
-/

namespace GlobPattern

/-- What can end a run early: no progress, the closing of a context that is not open, or an edit of
the rule set that names no rule. -/
inductive Failure where
  | lex (e : LexError)
  | context (e : ContextNotOpen)
  | rule (e : UnknownRule)
  deriving DecidableEq, Repr

/-- A scan with the rules to apply and the nodes made so far. -/
structure Lexer extends Scan where
  rules : RuleSet
  nodes : Array Node := #[]

namespace Lexer

/-- The lexer in front of a pattern. -/
def start (pattern : List Char) (options : Options) (rules : RuleSet) : Lexer :=
  { Scan.start pattern options with rules }

/-- What has been read so far. -/
def ast (lx : Lexer) : Ast := ⟨lx.cursor.source, lx.nodes.toList, lx.wrap, lx.state⟩

/-- A fault at the cursor. -/
def errorHere (lx : Lexer) (fault : LexFault) : Failure :=
  .lex ⟨fault, lx.cursor.position, lx.cursor.source⟩

/-- The lexer on another scan. -/
def withScan (lx : Lexer) (s : Scan) : Lexer := { lx with toScan := s }

/-- The lexer with a node more, if there is one. -/
def append (lx : Lexer) : Option Node → Lexer
  | some node => { lx with nodes := lx.nodes.push node }
  | none => lx

/-- Apply the first of `rules` that consumes text. -/
def tryRules : List (String × Rule) → Lexer → Lexer × Except Failure Unit
  | [], lx => (lx, .error (lx.errorHere (.noRule lx.cursor.remaining.head?)))
  | (name, rule) :: rest, lx =>
    match rule.apply lx.toScan with
    | (s, .error e) => (lx.withScan s, .error (.context e))
    | (s, .ok node?) =>
      if lx.cursor.offset < s.cursor.offset then
        ((lx.withScan s).append node?, .ok ())
      else if node?.isSome then
        (lx.withScan s, .error ((lx.withScan s).errorHere (.noProgress name)))
      else tryRules rest (lx.withScan s)

/-- Apply the first rule of the lexer that consumes text. -/
def step (lx : Lexer) : Lexer × Except Failure Unit := tryRules lx.rules.entries lx

@[simp] theorem toScan_append (lx : Lexer) (node? : Option Node) :
    (lx.append node?).toScan = lx.toScan := by
  cases node? <;> rfl

theorem tryRules_shortens {rules : List (String × Rule)} {lx lx' : Lexer}
    (h : tryRules rules lx = (lx', .ok ())) :
    lx'.cursor.remaining.length < lx.cursor.remaining.length := by
  fun_induction tryRules rules lx with
  | case1 lx => simp at h
  | case2 name rule rest lx s e _ => simp at h
  | case3 name rule rest lx s node? hr hs =>
    obtain rfl : _ = lx' := (Prod.mk.inj h).1
    obtain ⟨k, hk⟩ := rule.cursor_apply lx.toScan
    rw [hr] at hk
    simpa [withScan] using Cursor.remaining_lt_of_offset_lt hk hs
  | case4 name rule rest lx s node? _ _ _ => simp at h
  | case5 name rule rest lx s node? hr _ _ ih =>
    obtain ⟨k, hk⟩ := rule.cursor_apply lx.toScan
    rw [hr] at hk
    have hle : s.cursor.remaining.length ≤ lx.cursor.remaining.length := by
      have hs : s.cursor = lx.cursor.advance k := hk
      rw [hs, Cursor.remaining_advance, List.length_drop]
      exact Nat.sub_le _ _
    exact Nat.lt_of_lt_of_le (ih h) hle

/-- **A step that succeeds consumes text.** -/
theorem step_shortens {lx lx' : Lexer} (h : lx.step = (lx', .ok ())) :
    lx'.cursor.remaining.length < lx.cursor.remaining.length :=
  tryRules_shortens h

/-! ## Runs -/

/-- Repeat steps up to the end of the pattern or the first failure. -/
def run (lx : Lexer) : Lexer × Except Failure Unit :=
  if lx.cursor.atEnd then (lx, .ok ())
  else
    match _h : lx.step with
    | (lx', .ok ()) => lx'.run
    | (lx', .error e) => (lx', .error e)
termination_by lx.cursor.remaining.length
decreasing_by exact step_shortens _h

end Lexer

/-- Read a pattern with a rule set. -/
def RuleSet.tokenize (rules : RuleSet) (options : Options) (pattern : List Char) :
    Except Failure Ast :=
  match (Lexer.start pattern options rules).run with
  | (lx, .ok ()) => .ok lx.ast
  | (_, .error e) => .error e

/-- Read a pattern with what a caller makes of the default rules. -/
def tokenize (extend : RuleSet.Extension) (options : Options) (pattern : List Char) :
    Except Failure Ast :=
  match extend RuleSet.default with
  | .error e => .error (.rule e)
  | .ok rules => rules.tokenize options pattern

end GlobPattern
