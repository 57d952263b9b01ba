/-!
# Lexemes and runs

A pattern is read as a sequence of lexemes. Each has a kind, which also names the rule that
recognises it, the `raw` text it covers, the `value` that text stands for, and what else its kind
records. Many are runs of one character: the longest that stands in front of a text, or the same cut
short by one when what follows it claims its last character.

* `Kind`, `Kind.all` (in order of priority), `Kind.name`;
* `Enclosure`: the groups that a globstar stands in;
* `Shape`: a kind of lexeme with its own fields, `Shape.kind`;
* `Lexeme`, `Lexeme.Covers`: its raw text is a beginning of a text;
* `Lexeme.run`, `Lexeme.afterRun`: the run and the text behind it;
* `Lexeme.runBefore`: the run less its last character when one of given characters follows;
* `run_append_afterRun`, `runBefore_isPrefix`: a run is how the text begins;
* `run_replicate_append`, `runBefore_replicate_append`, `runBefore_replicate_claimed`: the run of
  a text that begins with repetitions of the character.
-/

namespace GlobPattern

/-! ## Kinds, shapes and lexemes -/

/-- What a lexeme can be. `leadingDot` names the rule for a leading `./`, which recognises it
without making a lexeme. -/
inductive Kind where
  | leadingDot
  | escape
  | quoted
  | not
  | dot
  | plus
  | qmark
  | globstar
  | star
  | slash
  | backslash
  | square
  | bracket
  | text
  deriving DecidableEq, Repr, Inhabited

namespace Kind

/-- All kinds, in the order in which their rules are tried. -/
def all : List Kind :=
  [leadingDot, escape, quoted, not, dot, plus, qmark, globstar, star, slash, backslash, square,
    bracket, text]

/-- The name of a kind, and of its rule. -/
def name : Kind → String
  | leadingDot => "prefix"
  | escape => "escape"
  | quoted => "quoted"
  | not => "not"
  | dot => "dot"
  | plus => "plus"
  | qmark => "qmark"
  | globstar => "globstar"
  | star => "star"
  | slash => "slash"
  | backslash => "backslash"
  | square => "square"
  | bracket => "bracket"
  | text => "text"

/-- The kind of a given name. -/
def ofName? (s : String) : Option Kind := all.find? (·.name == s)

theorem mem_all (k : Kind) : k ∈ all := by cases k <;> decide

end Kind

/-- The groups that are open around a globstar. -/
structure Enclosure where
  brace : Bool := false
  paren : Bool := false
  deriving DecidableEq, Repr, Inhabited

/-- A kind of lexeme together with what only that kind records.

* `not`: whether the run of `!` wraps the whole pattern in a negation.
* `dot`: whether a single dot opens a path segment.
* `qmark`, `globstar`: the text consumed before it, and the groups around a globstar.
* `bracket`: whether the class is negated, its text between the brackets, and what closes it. -/
inductive Shape where
  | escape
  | quoted
  | not (wraps : Bool)
  | dot (opensSegment : Bool)
  | plus
  | qmark (parsed : List Char)
  | globstar (parsed : List Char) (inside : Enclosure)
  | star
  | slash
  | backslash
  | square
  | bracket (negated : Bool) (inner close : List Char)
  | text
  deriving DecidableEq, Repr, Inhabited

namespace Shape

/-- The kind of a shape. -/
def kind : Shape → Kind
  | escape => .escape
  | quoted => .quoted
  | not _ => .not
  | dot _ => .dot
  | plus => .plus
  | qmark _ => .qmark
  | globstar _ _ => .globstar
  | star => .star
  | slash => .slash
  | backslash => .backslash
  | square => .square
  | bracket _ _ _ => .bracket
  | text => .text

/-- A class that is not closed by a bracket of its own, and is read literally. -/
def isOpenClass : Shape → Bool
  | bracket _ _ close => close != [']']
  | _ => false

/-- The lexeme wraps the whole pattern in a negation. -/
def wraps : Shape → Bool
  | not w => w
  | _ => false

end Shape

/-- A recognised stretch of a pattern: the text it covers and the text it stands for. -/
structure Lexeme where
  shape : Shape
  value : List Char
  raw : List Char
  deriving DecidableEq, Repr, Inhabited

namespace Lexeme

/-- The kind of a lexeme. -/
def kind (l : Lexeme) : Kind := l.shape.kind

/-- A lexeme that stands for the text it covers. -/
def plain (shape : Shape) (raw : List Char) : Lexeme := ⟨shape, raw, raw⟩

/-- A lexeme that stands for itself, if it covers anything. -/
@[inline] def plain? (shape : Shape) (raw : List Char) : Option Lexeme :=
  if raw = [] then none else some (plain shape raw)

/-- The lexeme covers a beginning of `r`, and not nothing. -/
def Covers (l : Lexeme) (r : List Char) : Prop := l.raw ≠ [] ∧ l.raw <+: r

theorem plain?_eq_some {shape : Shape} {raw : List Char} {l : Lexeme} :
    plain? shape raw = some l ↔ raw ≠ [] ∧ l = plain shape raw := by
  unfold plain?
  split <;> simp_all [eq_comm]

theorem plain?_eq_none {shape : Shape} {raw : List Char} : plain? shape raw = none ↔ raw = [] := by
  unfold plain?
  split <;> simp_all

theorem Covers.of_plain? {shape : Shape} {raw r : List Char} {l : Lexeme}
    (h : plain? shape raw = some l) (hp : raw <+: r) : l.Covers r := by
  obtain ⟨hn, rfl⟩ := plain?_eq_some.1 h
  exact ⟨hn, hp⟩

end Lexeme

end GlobPattern

namespace GlobPattern.Lexeme

/-! ## Runs of one character -/

/-- The longest run of `c` that `r` begins with. -/
def run (c : Char) (r : List Char) : List Char := r.takeWhile (· == c)

/-- What follows the longest run of `c` in front of `r`. -/
def afterRun (c : Char) (r : List Char) : List Char := r.dropWhile (· == c)

/-- The run of `c` in front of `r`, without its last character when one of `claims` follows. -/
def runBefore (c : Char) (claims : List Char) (r : List Char) : List Char :=
  match afterRun c r with
  | d :: _ => if d ∈ claims then (run c r).dropLast else run c r
  | [] => run c r

@[simp] theorem run_append_afterRun (c : Char) (r : List Char) : run c r ++ afterRun c r = r :=
  List.takeWhile_append_dropWhile

theorem drop_length_run (c : Char) (r : List Char) : r.drop (run c r).length = afterRun c r := by
  have h := congrArg (List.drop (run c r).length) (run_append_afterRun c r)
  rwa [List.drop_left, eq_comm] at h

theorem run_isPrefix (c : Char) (r : List Char) : run c r <+: r :=
  ⟨afterRun c r, run_append_afterRun c r⟩

theorem runBefore_isPrefix (c : Char) (claims r : List Char) : runBefore c claims r <+: r := by
  unfold runBefore
  split
  · split
    · exact (List.dropLast_prefix _).trans (run_isPrefix c r)
    · exact run_isPrefix c r
  · exact run_isPrefix c r

theorem run_eq_nil {c : Char} {r : List Char} (h : r.head? ≠ some c) : run c r = [] := by
  cases r with
  | nil => rfl
  | cons d t =>
    have hd : d ≠ c := fun hd => h (by rw [hd, List.head?_cons])
    simp [run, hd]

theorem exists_cons_of_run_ne_nil {c : Char} {r : List Char} (h : run c r ≠ []) :
    ∃ t, r = c :: t :=
  List.head?_eq_some_iff.1 (Decidable.by_contra fun hr => h (run_eq_nil hr))

theorem run_ne_nil_of_runBefore_ne_nil {c : Char} {claims r : List Char}
    (h : runBefore c claims r ≠ []) : run c r ≠ [] := by
  intro hr
  apply h
  unfold runBefore
  split
  · split <;> simp [hr]
  · exact hr

theorem run_cons_self (c : Char) (t : List Char) : run c (c :: t) = c :: run c t := by
  simp [run]

theorem afterRun_cons_self (c : Char) (t : List Char) : afterRun c (c :: t) = afterRun c t := by
  simp [afterRun]

/-! ### Repetitions of the character -/

section Replicate

variable {c : Char} {claims t : List Char} {k : Nat}

theorem run_replicate_append (ht : t.head? ≠ some c) :
    run c (List.replicate k c ++ t) = List.replicate k c := by
  induction k with
  | zero => exact run_eq_nil ht
  | succ k ih => rw [List.replicate_succ, List.cons_append, run_cons_self, ih]

theorem afterRun_replicate_append (ht : t.head? ≠ some c) :
    afterRun c (List.replicate k c ++ t) = t := by
  induction k with
  | zero =>
    have h := run_append_afterRun c t
    rwa [run_eq_nil ht] at h
  | succ k ih => rwa [List.replicate_succ, List.cons_append, afterRun_cons_self]

theorem runBefore_replicate_append (ht : t.head? ≠ some c) (hc : ∀ d ∈ t.head?, d ∉ claims) :
    runBefore c claims (List.replicate k c ++ t) = List.replicate k c := by
  rw [runBefore, afterRun_replicate_append ht, run_replicate_append ht]
  cases t with
  | nil => rfl
  | cons d t => exact if_neg (hc d rfl)

theorem runBefore_replicate_claimed {d : Char} (hne : d ≠ c) (hd : d ∈ claims) :
    runBefore c claims (List.replicate (k + 1) c ++ d :: t) = List.replicate k c := by
  have ht : (d :: t).head? ≠ some c := by simpa using hne
  rw [runBefore, afterRun_replicate_append ht, run_replicate_append ht]
  exact (if_pos hd).trans (by rw [List.dropLast_replicate, Nat.add_sub_cancel])

end Replicate

theorem exists_claim_of_runBefore_eq_nil {c : Char} {claims t : List Char}
    (h : runBefore c claims (c :: t) = []) : ∃ d ∈ claims, t.head? = some d := by
  rw [runBefore, afterRun_cons_self, run_cons_self] at h
  split at h
  · next d rest hd =>
    split at h
    · next hm =>
      have hrun : run c t = [] := by
        have := congrArg List.length h
        rw [List.length_dropLast, List.length_cons] at this
        exact List.length_eq_zero_iff.1 this
      have ht : t = d :: rest := by
        rw [← run_append_afterRun c t, hrun, hd, List.nil_append]
      exact ⟨d, hm, by rw [ht, List.head?_cons]⟩
    · cases h
  · cases h

end GlobPattern.Lexeme
