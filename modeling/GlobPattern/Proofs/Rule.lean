import GlobPattern.Proofs.Layout
import GlobPattern.RuleSet

/-!
# What a rule can do, and which is the first to do it

A rule passes, takes a lexeme that stands at the cursor, drops some text without making a node,
offers a node without moving, or refuses to close a context. Whatever the rule is, nothing else
can happen to the cursor.

A lexeme begins with a character of its kind, except plain text, which can begin with any. Hence
two rules that could both recognise the text ahead are rare, and the order of the rules is settled
by a handful of pairs.

* `Rule.drops`: the rule keeps its node to itself;
* `Scan.applyKind_cases`: the three things that a built-in rule can do;
* `Rule.Effect`, **`Rule.effect_apply`**: the five things that a rule can do;
* `Kind.openers`: the characters that lexemes of a kind begin with;
  `Scan.mem_openers_of_recognise?`;
* `Kind.Outranks`: the pairs of kinds whose order matters, `Kind.outranks_of_mem_openers`;
* `Kind.Admissible`: the orders of all kinds that respect these pairs;
* `Scan.lexeme?`: what the first built-in rule that recognises anything sees ahead;
* **`Scan.findSome?_recognise?_eq`**: in every admissible order the first rule sees the same.
-/

namespace GlobPattern

/-! ## What a rule can do -/

/-- The rule keeps its node to itself. -/
def Rule.drops : Rule → Bool
  | .literal l => l.drop
  | _ => false

namespace Lexeme.Covers

variable {l : Lexeme} {r : List Char}

theorem take_eq (h : l.Covers r) : r.take l.raw.length = l.raw :=
  (List.prefix_iff_eq_take.1 h.2).symm

theorem append_drop (h : l.Covers r) : l.raw ++ r.drop l.raw.length = r := by
  conv_lhs => rw [← h.take_eq, List.length_take, Nat.min_eq_left h.2.length_le]
  exact List.take_append_drop _ _

theorem length_pos (h : l.Covers r) : 0 < l.raw.length := List.length_pos_iff.2 h.1

theorem head?_eq (h : l.Covers r) : l.raw.head? = r.head? := by
  obtain ⟨t, rfl⟩ := h.2
  rw [List.head?_append_of_ne_nil _ h.1]

end Lexeme.Covers

theorem Cursor.offset_advance_raw {c : Cursor} {l : Lexeme} (h : l.Covers c.remaining) :
    (c.advance l.raw.length).offset = c.offset + l.raw.length := by
  rw [Cursor.offset_eq_length, Cursor.parsed_advance, h.take_eq, List.length_append,
    ← Cursor.offset_eq_length]

namespace Scan

theorem nodeOf_eq {s : Scan} {l : Lexeme} (h : l.Covers s.cursor.remaining) :
    s.nodeOf l = l.nodeAt s.cursor.position := by
  simp only [nodeOf, advance, Cursor.spanFrom, Cursor.position_advance, h.take_eq]
  rfl

theorem applyKind_cases (s : Scan) (kind : Kind) :
    (kind = .leadingDot ∧ s.applyKind kind = (s.noteLeadingDot, none)) ∨
      (∃ l, kind ≠ .leadingDot ∧ s.recognise? kind = some l ∧ l.Covers s.cursor.remaining ∧
        s.applyKind kind = (s.accept l, some (l.nodeAt s.cursor.position))) ∨
      (kind ≠ .leadingDot ∧ s.recognise? kind = none ∧ s.applyKind kind = (s, none)) := by
  by_cases hk : kind = .leadingDot
  · exact .inl ⟨hk, by rw [applyKind, if_pos hk]⟩
  · refine .inr ?_
    rw [applyKind, if_neg hk]
    cases hl : s.recognise? kind with
    | some l =>
      have hc := recognise?_covers hl
      exact .inl ⟨l, hk, rfl, hc, by rw [← nodeOf_eq hc]⟩
    | none => exact .inr ⟨hk, rfl, rfl⟩

end Scan

/-- What a rule can do to a scan, with what it answers. -/
inductive Rule.Effect (rule : Rule) (s : Scan) :
    Scan → Except ContextNotOpen (Option Node) → Prop
  | passed {s' : Scan} (hc : s'.cursor = s.cursor) : Effect rule s s' (.ok none)
  | took {s' : Scan} (l : Lexeme) (hl : l.Covers s.cursor.remaining)
      (hc : s'.cursor = s.cursor.advance l.raw.length) :
      Effect rule s s' (.ok (some (l.nodeAt s.cursor.position)))
  | dropped {s' : Scan} (l : Lexeme) (hd : rule.drops = true) (hl : l.Covers s.cursor.remaining)
      (hc : s'.cursor = s.cursor.advance l.raw.length) : Effect rule s s' (.ok none)
  | offered {s' : Scan} (node : Node) (hc : s'.cursor = s.cursor) :
      Effect rule s s' (.ok (some node))
  | refused {s' : Scan} (e : ContextNotOpen) (k : Nat) (hc : s'.cursor = s.cursor.advance k)
      (he : e.name ∉ s'.state.contexts) : Effect rule s s' (.error e)

theorem Literal.effect_apply (l : Literal) (s : Scan) :
    Rule.Effect (.literal l) s (l.apply s).1 (l.apply s).2 := by
  unfold Literal.apply
  split
  · next hp =>
    dsimp only
    split
    · next state hs =>
      by_cases hn : l.text = []
      · -- the empty literal consumes nothing, whatever else it does
        have hc : (s.cursor.advance l.text.length) = s.cursor := by simp [hn]
        cases hd : l.drop
        · exact .offered _ hc
        · exact .passed hc
      · have hl : (Lexeme.plain .text l.text).Covers s.cursor.remaining :=
          ⟨hn, List.isPrefixOf_iff_prefix.1 hp⟩
        cases hd : l.drop
        · rw [if_neg (by simp), Scan.nodeOf_eq hl]
          exact .took _ hl rfl
        · exact .dropped _ hd hl rfl
    · next e he =>
      refine .refused e l.text.length rfl ?_
      unfold Literal.closed at he
      split at he
      · exact (ScanState.popContext_eq_error_iff.1 he).2 ▸ (ScanState.popContext_eq_error_iff.1 he).1
      · cases he
  · exact .passed rfl

/-- **Whatever a rule is, it does one of five things.** -/
theorem Rule.effect_apply (rule : Rule) (s : Scan) :
    rule.Effect s (rule.apply s).1 (rule.apply s).2 := by
  cases rule with
  | builtin kind =>
    rw [Rule.apply]
    rcases s.applyKind_cases kind with ⟨_, h⟩ | ⟨l, _, _, hl, h⟩ | ⟨_, _, h⟩
    · rw [h]; exact .passed (Scan.cursor_noteLeadingDot s)
    · rw [h]; exact .took l hl rfl
    · rw [h]; exact .passed rfl
  | literal l => exact l.effect_apply s
  | stuck value => exact .offered _ rfl

/-! ## Which rule is the first -/

namespace Kind

/-- The characters that the lexemes of a kind begin with. Plain text, which can begin with any
character, has none of its own. -/
def openers : Kind → List Char
  | leadingDot => []
  | escape => ['\\', '$', '^']
  | quoted => ['"', '\'']
  | not => ['!']
  | dot => ['.']
  | plus => ['+']
  | qmark => ['?']
  | globstar => ['*']
  | star => ['*']
  | slash => ['/']
  | backslash => ['\\']
  | square => ['[']
  | bracket => ['[']
  | text => []

/-- The rule of the first kind has to be tried before that of the second: a leading dot is noted
before it is consumed, four kinds go before a more general one, and plain text comes last. -/
inductive Outranks : Kind → Kind → Prop
  | leadingDot : Outranks .leadingDot .dot
  | escape : Outranks .escape .backslash
  | globstar : Outranks .globstar .star
  | square : Outranks .square .bracket
  | text {k : Kind} (h : k ≠ .text) : Outranks k .text

/-- All kinds in an order in which each comes before those that it outranks. -/
structure Admissible (order : List Kind) : Prop where
  perm : order.Perm all
  before : ∀ a b, Outranks a b → order.idxOf a < order.idxOf b

theorem outranks_iff {a b : Kind} : Outranks a b ↔
    (a, b) ∈ [(leadingDot, dot), (escape, backslash), (globstar, star), (square, bracket)] ∨
      (b = text ∧ a ≠ text) := by
  constructor
  · rintro (_ | _ | _ | _ | h) <;> simp_all
  · simp only [List.mem_cons, Prod.mk.injEq, List.not_mem_nil, or_false]
    rintro ((⟨rfl, rfl⟩ | ⟨rfl, rfl⟩ | ⟨rfl, rfl⟩ | ⟨rfl, rfl⟩) | ⟨rfl, h⟩)
    · exact .leadingDot
    · exact .escape
    · exact .globstar
    · exact .square
    · exact .text h

instance (a b : Kind) : Decidable (Outranks a b) := decidable_of_iff _ outranks_iff.symm

theorem admissible_iff {order : List Kind} : Admissible order ↔
    order.Perm all ∧ ∀ a ∈ all, ∀ b ∈ all, Outranks a b → order.idxOf a < order.idxOf b := by
  constructor
  · intro h
    exact ⟨h.perm, fun a _ b _ => h.before a b⟩
  · rintro ⟨hp, hb⟩
    exact ⟨hp, fun a b => hb a (mem_all a) b (mem_all b)⟩

instance (order : List Kind) : Decidable (Admissible order) :=
  decidable_of_iff _ admissible_iff.symm

theorem admissible_all : Admissible all := by decide

/-- **Two kinds that share an opening character are ordered.** -/
theorem outranks_of_mem_openers {a b : Kind} {c : Char} (ha : c ∈ a.openers)
    (hb : c ∈ b.openers) : a = b ∨ Outranks a b ∨ Outranks b a := by
  have h : ∀ a ∈ all, ∀ b ∈ all, a.openers.any (· ∈ b.openers) = true →
      a = b ∨ Outranks a b ∨ Outranks b a := by decide
  exact h a (mem_all a) b (mem_all b) (List.any_eq_true.2 ⟨c, ha, decide_eq_true hb⟩)

theorem Admissible.mem_of_outranks {pre post : List Kind} {a b : Kind}
    (h : Admissible (pre ++ b :: post)) (hab : Outranks a b) : a ∈ pre := by
  have hlt := h.before a b hab
  have hb : (pre ++ b :: post).idxOf b ≤ pre.length := by
    by_cases hm : b ∈ pre
    · rw [List.idxOf_append_of_mem hm]
      exact List.idxOf_le_length
    · rw [List.idxOf_append_of_notMem hm, List.idxOf_cons_self, Nat.add_zero]
  by_contra hm
  rw [List.idxOf_append_of_notMem hm] at hlt
  omega

end Kind

/-! ### The openings of the recognisers -/

namespace Scan

variable {s : Scan}

/-- **A recognised lexeme other than plain text begins with a character of its kind.** -/
theorem mem_openers_of_recognise? {kind : Kind} {l : Lexeme} (h : s.recognise? kind = some l)
    (hk : kind ≠ .text) : ∃ c t, s.cursor.remaining = c :: t ∧ c ∈ kind.openers := by
  have ofRun : ∀ {c : Char} {r : List Char}, Lexeme.run c r ≠ [] → c ∈ kind.openers →
      ∃ d t, r = d :: t ∧ d ∈ kind.openers := by
    intro c r hr hc
    obtain ⟨t, rfl⟩ := Lexeme.exists_cons_of_run_ne_nil hr
    exact ⟨c, t, rfl, hc⟩
  cases kind <;> simp only [recognise?] at h <;> generalize s.cursor.remaining = r at h ⊢
  case leadingDot => cases h
  case escape =>
    unfold Lexeme.escape? at h
    split at h
    · cases h
    · split at h <;> cases h <;> exact ⟨_, _, rfl, by decide⟩
  case quoted =>
    unfold Lexeme.quoted? at h
    split at h
    · cases h
    · next q r =>
      split at h
      · next hq => exact ⟨q, r, rfl, by simpa [Lexeme.isQuote, Kind.openers] using hq⟩
      · cases h
  case not =>
    unfold Lexeme.not? at h
    dsimp only at h
    split at h
    · cases h
    · next hr => exact ofRun hr (by decide)
  case dot => exact ofRun (Lexeme.plain?_eq_some.1 h).1 (by decide)
  case plus => unfold Lexeme.plus? at h; split at h <;> cases h; exact ⟨_, _, rfl, by decide⟩
  case qmark =>
    exact ofRun (Lexeme.run_ne_nil_of_runBefore_ne_nil (Lexeme.plain?_eq_some.1 h).1) (by decide)
  case globstar =>
    unfold Lexeme.globstar? at h
    split at h
    · exact ⟨_, _, rfl, by decide⟩
    · cases h
  case star =>
    unfold Lexeme.star? at h
    split at h
    · cases h
    · exact ofRun (Lexeme.run_ne_nil_of_runBefore_ne_nil (Lexeme.plain?_eq_some.1 h).1)
        (by decide)
  case slash => unfold Lexeme.slash? at h; split at h <;> cases h; exact ⟨_, _, rfl, by decide⟩
  case backslash =>
    unfold Lexeme.backslash? at h
    dsimp only at h
    split at h
    · cases h
    · next hr => exact ofRun (Lexeme.run_ne_nil_of_runBefore_ne_nil hr) (by decide)
  case square =>
    unfold Lexeme.square? at h
    split at h
    · exact ⟨_, _, rfl, by decide⟩
    · cases h
  case bracket => unfold Lexeme.bracket? at h; split at h <;> cases h; exact ⟨_, _, rfl, by decide⟩
  case text => exact absurd rfl hk

/-- What the built-in rules see ahead: the lexeme of the first of them that recognises one. -/
def lexeme? (s : Scan) : Option Lexeme := Kind.all.findSome? s.recognise?

theorem outranks_of_recognise? {a b : Kind} {l m : Lexeme} (ha : s.recognise? a = some l)
    (hb : s.recognise? b = some m) : a = b ∨ Kind.Outranks a b ∨ Kind.Outranks b a := by
  by_cases ta : a = .text
  · by_cases tb : b = .text
    · exact .inl (ta.trans tb.symm)
    · exact .inr (.inr (ta ▸ .text tb))
  · by_cases tb : b = .text
    · exact .inr (.inl (tb ▸ .text ta))
    · obtain ⟨c, t, hr, hc⟩ := mem_openers_of_recognise? ha ta
      obtain ⟨d, u, hr', hd⟩ := mem_openers_of_recognise? hb tb
      rw [hr, List.cons.injEq] at hr'
      exact Kind.outranks_of_mem_openers hc (hr'.1 ▸ hd)

theorem recognise?_of_findSome? {order : List Kind} (ho : Kind.Admissible order) {l : Lexeme}
    (h : order.findSome? s.recognise? = some l) :
    ∃ k, s.recognise? k = some l ∧ ∀ a, Kind.Outranks a k → s.recognise? a = none := by
  obtain ⟨pre, k, post, rfl, hk, hpre⟩ := List.findSome?_eq_some_iff.1 h
  exact ⟨k, hk, fun a ha => hpre a (ho.mem_of_outranks ha)⟩

/-- **In every admissible order the first rule that recognises anything sees the same.** -/
theorem findSome?_recognise?_eq {order : List Kind} (ho : Kind.Admissible order) (s : Scan) :
    order.findSome? s.recognise? = s.lexeme? := by
  cases h : order.findSome? s.recognise? with
  | none =>
    have hn := List.findSome?_eq_none_iff.1 h
    exact (List.findSome?_eq_none_iff.2 fun k _ => hn k (ho.perm.mem_iff.2 k.mem_all)).symm
  | some l =>
    cases h' : s.lexeme? with
    | none =>
      obtain ⟨k, hk, _⟩ := recognise?_of_findSome? ho h
      rw [List.findSome?_eq_none_iff.1 h' k k.mem_all] at hk
      cases hk
    | some m =>
      obtain ⟨a, ha, hfa⟩ := recognise?_of_findSome? ho h
      obtain ⟨b, hb, hfb⟩ := recognise?_of_findSome? Kind.admissible_all h'
      rcases outranks_of_recognise? ha hb with rfl | hab | hba
      · exact ha.symm.trans hb
      · rw [hfb a hab] at ha; cases ha
      · rw [hfa b hba] at hb; cases hb

end Scan

end GlobPattern
