import GlobPattern.Proofs.FallThrough
import GlobPattern.Proofs.Layout
import GlobPattern.Proofs.Lexeme.Language
import GlobPattern.Proofs.Reading

/-!
# Tokenizing with the built-in rules

The built-in rules read every pattern to its end. Their nodes tile it, and the order of the rules
matters only for the pairs of kinds in which one outranks the other. Every node is in the language of
its kind. For most kinds the recogniser alone sees to it. Single backslashes, classes and plain text
owe it to the rules that are tried before theirs.

* **`tokenize_tiles`**: every pattern has nodes, and they tile it;
* **`tokenize_ofKinds_eq_default`**: every admissible order of the rules makes the same of it;
* `Scan.group_of_unclaimed`: what all rules but the last leave begins with a marker of a group;
* `Scan.inLanguage_of_lexeme?`: what is seen ahead is in its language;
* **`tokenize_inLanguage`**: so is every node of every pattern.
-/

namespace GlobPattern

/-! ## Tilings and orders -/

/-- **The built-in rules read every pattern, and the nodes tile it.** Nothing is raised; the raw
texts make up the pattern; each node has a raw text that is not empty and stands in the pattern
between the ends of its span; the first span begins at the start, each further one where the one
before it ends, and the last one ends behind the pattern. Where a node begins, as many characters as
its raw text has can be consumed, and lead to its end. -/
theorem tokenize_tiles (options : Options) (pattern : List Char) :
    ∃ ast, tokenize .unchanged options pattern = .ok ast ∧ ast.pattern = pattern ∧
      Tiling pattern ast.nodes ∧
      (∀ n ∈ ast.nodes.getLast?, n.span.stop.offset = pattern.length) ∧
      ∀ n ∈ ast.nodes,
        ((Cursor.start pattern).advance n.span.start.offset).consume n.raw.length =
          .ok (n.raw, (Cursor.start pattern).advance n.span.stop.offset) := by
  obtain ⟨ls, t, h, ht, hcov⟩ := Scan.exists_reads_start options pattern
  have tiling : Tiling pattern (layOut Position.start ls) := hcov ▸ tiling_layOut h.raw_ne_nil
  refine ⟨_, RuleSet.tokenize_ofKinds Kind.admissible_all h ht, rfl, tiling, ?_, ?_⟩
  · intro n hn
    rw [tiling.last n hn, Position.offset_after]
    exact Nat.zero_add _
  · intro n hn
    exact (tiling.stands n hn).consume_eq

/-- **Every admissible order of the built-in rules makes the same of every pattern**: the same
nodes with the same spans, the same wrap and the same final state. -/
theorem tokenize_ofKinds_eq_default {order : List Kind} (ho : Kind.Admissible order)
    (options : Options) (pattern : List Char) :
    ∃ ast, (RuleSet.ofKinds order).tokenize options pattern = .ok ast ∧
      tokenize .unchanged options pattern = .ok ast := by
  obtain ⟨ls, t, h, ht, _⟩ := Scan.exists_reads_start options pattern
  exact ⟨_, RuleSet.tokenize_ofKinds ho h ht, RuleSet.tokenize_ofKinds Kind.admissible_all h ht⟩

/-- A far shuffled order of the rules on a pattern in which all the pairs compete. -/
theorem tokenize_shuffled_eq_default :
    Kind.Admissible [.slash, .globstar, .square, .quoted, .leadingDot, .bracket, .star, .not,
      .escape, .plus, .dot, .backslash, .qmark, .text] ∧
    ∃ ast, (RuleSet.ofKinds [.slash, .globstar, .square, .quoted, .leadingDot, .bracket, .star,
        .not, .escape, .plus, .dot, .backslash, .qmark, .text]).tokenize {}
          "./**/[a][b*c\\".toList = .ok ast ∧
      tokenize .unchanged {} "./**/[a][b*c\\".toList = .ok ast :=
  ⟨by decide, tokenize_ofKinds_eq_default (by decide) {} "./**/[a][b*c\\".toList⟩

/-! ## Languages of nodes -/

namespace Scan

variable {s t : Scan} {l : Lexeme}

theorem group_of_unclaimed (hb : s.inBracket = false)
    (hn : ∀ k, k ≠ Kind.text → s.recognise? k = none) {c : Char} {r : List Char}
    (hr : s.cursor.remaining = c :: r) (hc : Lexeme.isStop c = true) :
    (c = '?' ∨ c = '+' ∨ c = '*') ∧ r.head? = some '(' := by
  rcases (unclaimed_iff hr).1 hn with hstop | ⟨hmark, hopen⟩ | ⟨hin, -⟩
  · exact absurd (of_decide_eq_true hc) hstop
  · simp only [List.mem_cons, List.not_mem_nil, or_false] at hmark
    exact ⟨by tauto, hopen⟩
  · rw [hb] at hin
    cases hin

/-- **What is seen ahead outside of bracket contexts is in its language.** -/
theorem inLanguage_of_lexeme? (hb : s.inBracket = false) (h : s.lexeme? = some l)
    {behind : List Char} (hr : l.raw ++ behind = s.cursor.remaining) :
    l.InLanguage s.options s.cursor.parsed behind := by
  obtain ⟨k, hk, hn⟩ := recognise?_of_findSome? Kind.admissible_all h
  cases k <;> simp only [recognise?, hb] at hk
  case leadingDot => cases hk
  case escape => exact Lexeme.inLanguage_of_escape? hk
  case quoted => exact Lexeme.inLanguage_of_quoted? hk hr
  case not =>
    refine Lexeme.inLanguage_of_not? ?_ hk hr
    rw [atStart, Cursor.parsed, List.isEmpty_iff, List.reverse_eq_nil_iff]
  case dot => exact Lexeme.inLanguage_of_dot? hk hr
  case plus => exact Lexeme.inLanguage_of_plus? hk
  case qmark => exact Lexeme.inLanguage_of_qmark? hk
  case globstar => exact Lexeme.inLanguage_of_globstar? hk
  case star => exact Lexeme.inLanguage_of_star? hk
  case slash => exact Lexeme.inLanguage_of_slash? hk
  case backslash =>
    have escape := hn .escape .escape
    rw [recognise?, hb] at escape
    exact Lexeme.inLanguage_of_backslash? hk escape hr
  case square => exact Lexeme.inLanguage_of_square? hk
  case bracket =>
    have square := hn .square .square
    rw [recognise?, hb] at square
    exact Lexeme.inLanguage_of_bracket? hk square hr
  case text =>
    have plain : Lexeme.IsPlain l behind := Lexeme.isPlain_of_text? hk hr fun c r hc =>
      group_of_unclaimed hb (fun k hne => hn k (.text hne)) hc
    have hs : l.shape = .text := by
      rw [Lexeme.text?, if_neg Bool.false_ne_true] at hk
      rw [(Lexeme.plain?_eq_some.1 hk).2, Lexeme.plain]
    rw [Lexeme.InLanguage, hs]
    exact plain

theorem Reads.inLanguage {ls ms : List Lexeme} (h : s.Reads (ls ++ l :: ms) t)
    (hb : s.inBracket = false) (ht : t.cursor.remaining = []) :
    l.InLanguage s.options (s.cursor.parsed ++ Lexeme.covered ls) (Lexeme.covered ms) := by
  obtain ⟨u, hu, hrest⟩ := append_iff.1 h
  have hr := hrest.remaining_eq
  rw [ht, List.append_nil, Lexeme.covered_cons] at hr
  rw [← hu.options_eq, ← hu.parsed_eq]
  obtain _ | ⟨hl, _⟩ := hrest
  exact inLanguage_of_lexeme? (hu.inBracket_eq.trans hb) hl hr

end Scan

/-- **Every node of every pattern is in the language of its kind.** The nodes before a node cover
what stands in front of it in the pattern, those after it cover what follows, and nothing follows
the last node only. -/
theorem tokenize_inLanguage (options : Options) (pattern : List Char) :
    ∃ ast, tokenize .unchanged options pattern = .ok ast ∧
      ∀ before n later, ast.nodes = before ++ n :: later →
        coveredText before ++ n.raw ++ coveredText later = pattern ∧
        (coveredText later = [] ↔ later = []) ∧
        n.toLexeme.InLanguage options (coveredText before) (coveredText later) := by
  obtain ⟨ls, t, h, ht, hcov⟩ := Scan.exists_reads_start options pattern
  refine ⟨_, RuleSet.tokenize_ofKinds Kind.admissible_all h ht, ?_⟩
  intro before n later hnodes
  change layOut Position.start ls = _ at hnodes
  have hcovered : ∀ ns : List Node, Lexeme.covered (ns.map Node.toLexeme) = coveredText ns :=
    fun ns => List.flatMap_map _ _ _
  have hls : ls = before.map Node.toLexeme ++ n.toLexeme :: later.map Node.toLexeme := by
    rw [← map_toLexeme_layOut Position.start ls, hnodes, List.map_append, List.map_cons]
  subst hls
  refine ⟨?_, ⟨fun hl => ?_, fun hl => by rw [hl]; rfl⟩, ?_⟩
  · rw [← hcov, Lexeme.covered_append, Lexeme.covered_cons, hcovered, hcovered, List.append_assoc]
  · cases later with
    | nil => rfl
    | cons m later =>
      have hm : m.raw ≠ [] := h.raw_ne_nil m.toLexeme (by simp)
      exact absurd (List.append_eq_nil_iff.1 hl).1 hm
  · have hin := h.inLanguage rfl ht
    rwa [hcovered, hcovered] at hin

end GlobPattern
