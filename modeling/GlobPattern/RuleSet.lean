import GlobPattern.Scan

/-!
# Rules and rule sets

Besides the built-in rules a caller can supply rules of two forms. A literal rule takes a fixed
text and may open a context, close one, remember a path, and keep its node to itself. A stuck rule
always offers a node without consuming anything, which a lexer reports as an error.

A rule set holds named rules in the order in which they are tried. Names may repeat; a name stands
for the first rule that has it.

* `Literal`, `Rule`, `Rule.apply`: the scan behind the rule, whatever it changed before it failed
  included, and the node it makes; `Rule.cursor_apply`: a rule only moves the cursor forward;
* `RuleSet`, `RuleSet.default`: every built-in rule in order of priority;
* views: `RuleSet.names`, `RuleSet.size`, `RuleSet.contains`, `RuleSet.get?`;
* `RuleSet.set`, `RuleSet.remove`: edits, which return the set they leave next to the `UnknownRule`
  they may end with;
* `RuleSet.Edit`, `RuleSet.applyAll`: edits as data, in sequence up to the first refusal;
* `RuleSet.Extension`: what a caller makes of a rule set.
-/

namespace GlobPattern

/-! ## Rules -/

/-- A rule for a fixed text. -/
structure Literal where
  text : List Char
  push? : Option String := none
  pop? : Option String := none
  path? : Option String := none
  drop : Bool := false
  deriving DecidableEq, Repr, Inhabited

/-- A rule of a lexer. -/
inductive Rule where
  | builtin (kind : Kind)
  | literal (l : Literal)
  | stuck (value : List Char)
  deriving DecidableEq, Repr, Inhabited

namespace Literal

/-- The state behind the literal as far as the context it opens. -/
def opened (l : Literal) (s : ScanState) : ScanState := (l.push?.map s.pushContext).getD s

/-- Close the context that the literal closes. -/
def closed (l : Literal) (s : ScanState) : Except ContextNotOpen ScanState :=
  match l.pop? with
  | some name => s.popContext name
  | none => .ok s

/-- The state with the path that the literal remembers. -/
def noted (l : Literal) (s : ScanState) : ScanState := (l.path?.map s.addPath).getD s

/-- The text is consumed first, then a context is opened, then one is closed, and last the path is
remembered; a refused closing keeps what came before it. -/
def apply (l : Literal) (s : Scan) : Scan × Except ContextNotOpen (Option Node) :=
  if s.cursor.startsWith l.text then
    let behind := { s.advance l.text.length with state := l.opened s.state }
    match l.closed behind.state with
    | .ok state =>
      ({ behind with state := l.noted state },
        .ok (if l.drop then none else some (s.nodeOf (Lexeme.plain .text l.text))))
    | .error e => (behind, .error e)
  else (s, .ok none)

end Literal

/-- Apply a rule at the cursor. -/
def Rule.apply (rule : Rule) (s : Scan) : Scan × Except ContextNotOpen (Option Node) :=
  match rule with
  | .builtin kind => ((s.applyKind kind).1, .ok (s.applyKind kind).2)
  | .literal l => l.apply s
  | .stuck value => (s, .ok (some (s.nodeOf ⟨.text, value, []⟩)))

/-! ### Laws -/

theorem Literal.cursor_apply (l : Literal) (s : Scan) :
    ∃ k, (l.apply s).1.cursor = s.cursor.advance k := by
  unfold Literal.apply
  split
  · refine ⟨l.text.length, ?_⟩
    dsimp only
    split <;> rfl
  · exact ⟨0, by simp⟩

/-- **A rule only moves the cursor forward.** -/
theorem Rule.cursor_apply (rule : Rule) (s : Scan) :
    ∃ k, (rule.apply s).1.cursor = s.cursor.advance k := by
  cases rule with
  | builtin kind => exact s.cursor_applyKind kind
  | literal l => exact l.cursor_apply s
  | stuck value => exact ⟨0, by simp [Rule.apply]⟩

/-! ## Rule sets -/

/-- Named rules, tried from the first to the last. -/
structure RuleSet where
  entries : List (String × Rule)
  deriving DecidableEq, Repr, Inhabited

/-- A rule was referred to by a name that none has. -/
structure UnknownRule where
  name : String
  deriving DecidableEq, Repr

/-- The wording of an unknown name. -/
def UnknownRule.message (e : UnknownRule) : String := "no rule named " ++ Text.quotedString e.name

namespace RuleSet

/-- The built-in rules, each under the name of its kind. -/
protected def default : RuleSet := ⟨Kind.all.map fun k => (k.name, .builtin k)⟩

/-- The names in order. -/
def names (s : RuleSet) : List String := s.entries.map (·.1)

/-- The number of rules. -/
def size (s : RuleSet) : Nat := s.entries.length

/-- Some rule has the name. -/
def contains (s : RuleSet) (name : String) : Bool := s.entries.any (·.1 == name)

/-- The rules ahead of the first of that name, all of them if there is none. -/
def ahead (s : RuleSet) (name : String) : List (String × Rule) := s.entries.takeWhile (·.1 != name)

/-- The first rule of that name and the rules behind it. -/
def onward (s : RuleSet) (name : String) : List (String × Rule) := s.entries.dropWhile (·.1 != name)

/-- The first rule of that name. -/
def get? (s : RuleSet) (name : String) : Except UnknownRule Rule :=
  match s.entries.lookup name with
  | some rule => .ok rule
  | none => .error ⟨name⟩

/-- The set without the first rule of that name. -/
def eraseFirst (s : RuleSet) (name : String) : RuleSet := ⟨s.entries.eraseP (·.1 == name)⟩

/-- The set with a rule put ahead of the first rule called `before`, or at the end. -/
def insertBefore (s : RuleSet) (before name : String) (rule : Rule) : RuleSet :=
  ⟨s.ahead before ++ (name, rule) :: s.onward before⟩

/-- The set with the first rule of that name replaced, or with the rule at the end. -/
def replaceFirst (s : RuleSet) (name : String) (rule : Rule) : RuleSet :=
  ⟨s.ahead name ++ (name, rule) :: (s.onward name).drop 1⟩

/-- Give `name` to `rule`. Without `before?` the rule takes the place of the first rule of that
name, or the last place. With it the first rule of that name is taken out, and the new one goes
ahead of the rule named there; if no such rule is left, the set stays without it. -/
def set (s : RuleSet) (name : String) (rule : Rule) (before? : Option String) :
    RuleSet × Except UnknownRule Unit :=
  match before? with
  | none => (s.replaceFirst name rule, .ok ())
  | some before =>
    let rest := s.eraseFirst name
    if rest.contains before then (rest.insertBefore before name rule, .ok ())
    else (rest, .error ⟨before⟩)

/-- Take out the first rule of that name. -/
def remove (s : RuleSet) (name : String) : RuleSet × Except UnknownRule Unit :=
  if s.contains name then (s.eraseFirst name, .ok ()) else (s, .error ⟨name⟩)

/-- An edit of a rule set. -/
inductive Edit where
  | set (name : String) (rule : Rule) (before? : Option String)
  | remove (name : String)
  deriving DecidableEq, Repr

/-- Carry out an edit. -/
def apply (s : RuleSet) : Edit → RuleSet × Except UnknownRule Unit
  | .set name rule before? => s.set name rule before?
  | .remove name => s.remove name

/-- Carry out edits up to the first that is refused. -/
def applyAll (s : RuleSet) : List Edit → Except UnknownRule RuleSet
  | [] => .ok s
  | e :: rest =>
    match s.apply e with
    | (s', .ok ()) => s'.applyAll rest
    | (_, .error err) => .error err

/-- A change of a rule set that a caller asks for. -/
abbrev Extension := RuleSet → Except UnknownRule RuleSet

/-- The rule set as it is. -/
def Extension.unchanged : Extension := .ok

/-- The rule set after some edits. -/
def Extension.ofEdits (edits : List Edit) : Extension := fun s => s.applyAll edits

/-! ### Laws -/

@[simp] theorem ahead_append_onward (s : RuleSet) (name : String) :
    s.ahead name ++ s.onward name = s.entries :=
  List.takeWhile_append_dropWhile

theorem contains_iff {s : RuleSet} {name : String} : s.contains name = true ↔ name ∈ s.names := by
  simp [contains, names]

end RuleSet

end GlobPattern
