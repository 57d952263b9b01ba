import GlobPattern.Proofs.Suffix

/-!
# Text that stands for itself

There are two ways to write a text into a pattern so that it stands for itself. With a backslash in
front of every stop character it is read as plain text and escapes, and leaves no trace in the
state. Between two quotes, with a backslash in front of that quote and of every backslash, it is
read as one quotation, and what follows is read as if it began there.

* `Lexeme.escaped`: a text with a backslash in front of some of its characters;
* `Lexeme.Spells`: a text and the lexemes that spell it, `Lexeme.Spells.segments`;
* **`tokenize_escaped`**: what the lexer makes of a text whose stop characters are escaped;
* `Lexeme.quotation_escaped`: a quotation ends behind the text that is written into it;
* **`tokenize_quoted`**: what the lexer makes of a quotation and of what follows it.
-/

namespace GlobPattern

namespace Lexeme

/-- A text with a backslash in front of each `special` character. -/
def escaped (special : Char → Bool) (s : List Char) : List Char :=
  s.flatMap fun c => if special c then ['\\', c] else [c]

section Escaped

variable {special : Char → Bool} {c : Char} {s u : List Char}

theorem escaped_cons_special (hc : special c = true) :
    escaped special (c :: s) = '\\' :: c :: escaped special s := by
  rw [escaped, List.flatMap_cons, if_pos hc]
  rfl

theorem escaped_cons_plain (hc : special c = false) :
    escaped special (c :: s) = c :: escaped special s := by
  rw [escaped, List.flatMap_cons, if_neg (by simp [hc])]
  rfl

theorem escaped_append_plain (hu : ∀ c ∈ u, special c = false) :
    escaped special (u ++ s) = u ++ escaped special s := by
  induction u with
  | nil => rfl
  | cons c u ih =>
    rw [List.cons_append, escaped_cons_plain (hu c List.mem_cons_self),
      ih fun d hd => hu d (List.mem_cons_of_mem _ hd), List.cons_append]

end Escaped

/-! ## Escaped stop characters -/

/-- The lexemes that spell a text: an escape for each of its stop characters, and plain text for
each stretch between them. -/
inductive Spells : List Char → List Lexeme → Prop
  | nil : Spells [] []
  | escape {c : Char} {s : List Char} {ls : List Lexeme} (hc : isStop c = true)
      (rest : Spells s ls) : Spells (c :: s) (⟨.escape, [c], ['\\', c]⟩ :: ls)
  | plain {u s : List Char} {ls : List Lexeme} (hu : u ≠ []) (hplain : ∀ c ∈ u, isStop c = false)
      (hstop : ∀ c ∈ s.head?, isStop c = true) (rest : Spells s ls) :
      Spells (u ++ s) (Lexeme.plain .text u :: ls)

theorem exists_spells (s : List Char) : ∃ ls, Spells s ls := by
  induction s with
  | nil => exact ⟨[], .nil⟩
  | cons c s ih =>
    obtain ⟨ls, h⟩ := ih
    by_cases hc : isStop c = true
    · exact ⟨_, .escape hc h⟩
    · -- the character is put in front of the stretch behind it, or it is a stretch of its own
      rw [Bool.not_eq_true] at hc
      have hone : ∀ d ∈ [c], isStop d = false := fun d hd => List.mem_singleton.1 hd ▸ hc
      cases h with
      | nil => exact ⟨_, .plain (List.cons_ne_nil c []) hone (by simp) .nil⟩
      | @escape d s _ hd rest =>
        have hstop : ∀ e ∈ (d :: s).head?, isStop e = true := by simpa using hd
        exact ⟨_, .plain (List.cons_ne_nil c []) hone hstop (.escape hd rest)⟩
      | @plain u _ _ _ hplain hstop rest =>
        exact ⟨_, .plain (List.cons_ne_nil c u) (List.forall_mem_cons.2 ⟨hc, hplain⟩) hstop rest⟩

theorem text?_append {u r : List Char} (hu : u ≠ []) (hplain : ∀ c ∈ u, isStop c = false)
    (hstop : ∀ c ∈ r.head?, isStop c = true) : text? false (u ++ r) = some (plain .text u) := by
  have hrun : (u ++ r).takeWhile (!isStop ·) = u := by
    rw [List.takeWhile_append_of_pos fun c hc => by simp [hplain c hc], List.append_right_eq_self]
    cases r with
    | nil => rfl
    | cons d r => rw [List.takeWhile_cons_of_neg (by simp [hstop d rfl])]
  obtain ⟨c, u, rfl⟩ := List.exists_cons_of_ne_nil hu
  have hstar : c ≠ '*' := by
    rintro rfl
    exact absurd (hplain '*' List.mem_cons_self) (by decide)
  have hplainRun : plainRun? (c :: u ++ r) = some (c :: u) := by
    unfold plainRun?
    split
    · next h => exact absurd (List.cons.inj h).1 hstar
    · dsimp only
      rw [hrun, if_neg hu]
  rw [text?, if_neg Bool.false_ne_true, hplainRun]
  exact plain?_eq_some.2 ⟨hu, rfl⟩

namespace Spells

variable {s : List Char} {l : Lexeme} {ls : List Lexeme}

/-- **A text with its stop characters escaped falls into the lexemes that spell it.** -/
theorem segments (h : Spells s ls) : Segments (escaped isStop s) ls := by
  induction h with
  | nil => exact .nil
  | escape hc _ ih =>
    rw [escaped_cons_special hc]
    exact .cons rfl ih
  | @plain u s ls hu hplain hstop rest ih =>
    have hhead : ∀ c ∈ (escaped isStop s).head?, isStop c = true := by
      cases s with
      | nil => simp [escaped]
      | cons d s =>
        rw [escaped_cons_special (hstop d rfl)]
        simp [isStop, stopChars]
    have hfall : FallsThrough (u ++ escaped isStop s) := by
      obtain ⟨c, u, rfl⟩ := List.exists_cons_of_ne_nil hu
      have hc := hplain c List.mem_cons_self
      exact .inl ⟨c, rfl, by simpa [isStop] using hc⟩
    rw [escaped_append_plain hplain]
    refine Segments.cons_iff.2 ⟨?_, ?_⟩
    · rw [ahead?_of_fallsThrough (List.append_ne_nil_of_left_ne_nil hu _) hfall,
        text?_append hu hplain hhead]
    · rw [Lexeme.plain, List.drop_left]
      exact ih

theorem flatMap_value (h : Spells s ls) : ls.flatMap (·.value) = s := by
  induction h with
  | nil => rfl
  | escape _ _ ih => rw [List.flatMap_cons, ih]; rfl
  | plain _ _ _ _ ih => rw [List.flatMap_cons, ih]; rfl

theorem kind_of_mem (h : Spells s ls) : ∀ l ∈ ls, l.kind = .text ∨ l.kind = .escape := by
  induction h with
  | nil => simp
  | escape _ _ ih => exact List.forall_mem_cons.2 ⟨.inr rfl, ih⟩
  | plain _ _ _ _ ih => exact List.forall_mem_cons.2 ⟨.inl rfl, ih⟩

theorem isChain (h : Spells s ls) :
    ls.IsChain fun l m => ¬ (l.kind = .text ∧ m.kind = .text) := by
  induction h with
  | nil => exact .nil
  | escape _ _ ih => exact ih.cons fun m _ hk => by cases hk.1
  | @plain u s ls _ _ hstop rest ih =>
    refine ih.cons fun m hm hk => ?_
    cases rest with
    | nil => cases hm
    | escape =>
      cases hm
      cases hk.2
    | @plain v _ _ hv hplain =>
      obtain ⟨c, v, rfl⟩ := List.exists_cons_of_ne_nil hv
      have hc := hstop c rfl
      rw [hplain c List.mem_cons_self] at hc
      cases hc

end Spells

theorem leadsWithDot_escaped (s : List Char) : leadsWithDot (escaped isStop s) = false := by
  cases s with
  | nil => rfl
  | cons c s =>
    by_cases hc : isStop c = true
    · rw [escaped_cons_special hc]
      rfl
    · rw [escaped_cons_plain (by simpa using hc)]
      unfold leadsWithDot
      split
      · next h => exact absurd ((List.cons.inj h).1 ▸ by decide) hc
      · rfl

theorem kind_of_wraps {l : Lexeme} (h : l.shape.wraps = true) : l.kind = .not := by
  obtain ⟨shape, value, raw⟩ := l
  cases shape with
  | not => rfl
  | _ => cases h

end Lexeme

theorem ScanState.recordAll_eq_self {ls : List Lexeme}
    (h : ∀ l ∈ ls, l.kind ∉ [Kind.dot, .qmark, .globstar, .star, .slash]) (s : ScanState) :
    s.recordAll ls = s := by
  induction ls generalizing s with
  | nil => rfl
  | cons l ls ih =>
    obtain ⟨hl, hls⟩ := List.forall_mem_cons.1 h
    have hrecord : s.record l.shape = s := by
      obtain ⟨shape, value, raw⟩ := l
      cases shape with
      | dot | qmark | globstar | star | slash => simp [Lexeme.kind, Shape.kind] at hl
      | _ => rfl
    change (s.record l.shape).recordAll ls = s
    rw [hrecord, ih hls]

/-- **A text with its stop characters escaped stands for itself.** Whatever the options are, it is
read as plain text and escapes whose values make up the text. No two nodes of plain text stand next
to each other, nothing is wrapped, and the state is that in front of a pattern. -/
theorem tokenize_escaped (options : Options) (s : List Char) :
    ∃ a, tokenize .unchanged options (Lexeme.escaped Lexeme.isStop s) = .ok a ∧
      (∀ n ∈ a.nodes, n.kind = .text ∨ n.kind = .escape) ∧
      a.nodes.flatMap (·.value) = s ∧
      (a.nodes.IsChain fun m n => ¬ (m.kind = .text ∧ n.kind = .text)) ∧
      a.opening = none ∧ a.closing = "" ∧ a.state = {} := by
  obtain ⟨ls, h⟩ := Lexeme.exists_spells s
  have hkinds := h.kind_of_mem
  have hread : Lexeme.inPlaces options [] ls = ls :=
    Lexeme.inPlaces_eq_self fun l hl => by rcases hkinds l hl with hk | hk <;> rw [hk] <;> decide
  refine ⟨_, tokenize_of_segments h.segments options, ?_⟩
  have hnodes : (Ast.ofSegments options (Lexeme.escaped Lexeme.isStop s) ls).nodes.map
      Node.toLexeme = ls := (map_toLexeme_layOut _ _).trans hread
  have hwrap : (Ast.ofSegments options (Lexeme.escaped Lexeme.isStop s) ls).wrap = none := by
    refine if_neg ?_
    rw [hread, List.any_eq_true]
    rintro ⟨l, hl, hw⟩
    have hk := hkinds l hl
    rw [Lexeme.kind_of_wraps hw] at hk
    revert hk
    decide
  refine ⟨?_, ?_, ?_, ?_, ?_, ?_⟩
  · intro n hn
    exact hkinds n.toLexeme (hnodes ▸ List.mem_map_of_mem hn)
  · conv_rhs => rw [← h.flatMap_value, ← hnodes, List.flatMap_map]
  · have := h.isChain
    rwa [← hnodes, List.isChain_map] at this
  · rw [Ast.opening, hwrap, Option.map_none]
  · rw [Ast.closing, hwrap]
    rfl
  · change (ScanState.opening _ _).recordAll (Lexeme.inPlaces options [] ls) = _
    rw [hread, ScanState.recordAll_eq_self fun l hl => by
      rcases hkinds l hl with hk | hk <;> rw [hk] <;> decide, ScanState.opening,
      Lexeme.leadsWithDot_escaped]
    rfl

/-! ## Quotations -/

namespace Lexeme

variable {q : Char}

/-- The characters that are escaped between quotes `q`. -/
def isQuoteSpecial (q c : Char) : Bool := c == q || c == '\\'

/-- **A quotation ends behind the text that is written into it**, and stands for that text. -/
theorem quotation_escaped (hq : q ≠ '\\') (s rest : List Char) :
    quotation q (escaped (isQuoteSpecial q) s ++ q :: rest) =
      (s, escaped (isQuoteSpecial q) s ++ [q]) := by
  induction s with
  | nil =>
    have hnil : escaped (isQuoteSpecial q) [] = [] := rfl
    rw [hnil, List.nil_append, quotation_cons hq, if_pos rfl, List.nil_append]
  | cons c s ih =>
    by_cases hc : isQuoteSpecial q c = true
    · rw [escaped_cons_special hc, List.cons_append, List.cons_append, quotation_pair, ih]
      rfl
    · rw [Bool.not_eq_true] at hc
      have hne : c ≠ q ∧ c ≠ '\\' := by simpa [isQuoteSpecial] using hc
      rw [escaped_cons_plain hc, List.cons_append, quotation_cons hne.2, if_neg hne.1, ih]
      rfl

/-- A text between quotes, with that quote and every backslash in it escaped. -/
def quote (q : Char) (s : List Char) : List Char := q :: escaped (isQuoteSpecial q) s ++ [q]

theorem ahead?_quote_append (hq : isQuote q = true) (s rest : List Char) :
    ahead? (quote q s ++ rest) = some ⟨.quoted, s, quote q s⟩ := by
  have hne : q ≠ '\\' := by
    rintro rfl
    exact absurd hq (by decide)
  have hcut : quote q s ++ rest = q :: (escaped (isQuoteSpecial q) s ++ q :: rest) := by
    simp [quote]
  rw [hcut, ahead?_quote hq, quoted?, if_pos hq, if_pos (by simp), quotation_escaped hne]
  rfl

end Lexeme

/-- **A text between quotes stands for itself**, with a backslash in front of that quote and of
every backslash in it. Whatever follows and whatever the options are, the first node is a quotation
of the text, up to the second quote; the kinds and the raw texts of the other nodes are those of
what follows. -/
theorem tokenize_quoted (options : Options) (q : Char) (s rest : List Char)
    (hq : Lexeme.isQuote q = true) :
    ∃ whole part first later, tokenize .unchanged options (Lexeme.quote q s ++ rest) = .ok whole ∧
      tokenize .unchanged options rest = .ok part ∧
      whole.nodes = first :: later ∧
      first.kind = .quoted ∧ first.value = s ∧ first.raw = Lexeme.quote q s ∧
      (later.map fun n => (n.kind, n.raw)) = part.nodes.map fun n => (n.kind, n.raw) := by
  obtain ⟨ms, h⟩ := exists_segments rest
  have hseg : Segments (Lexeme.quote q s ++ rest) (⟨.quoted, s, Lexeme.quote q s⟩ :: ms) := by
    rw [Segments.cons_iff, List.drop_left]
    exact ⟨Lexeme.ahead?_quote_append hq s rest, h⟩
  have hmoved := Node.MovedBehind.of_start options (List.cons_ne_nil _ _ : Lexeme.quote q s ≠ []) ms
  refine ⟨_, _, _, _, tokenize_of_segments hseg options, tokenize_of_segments h options, rfl, rfl,
    rfl, rfl, ?_⟩
  exact map_eq_of_forall₂ hmoved fun m n hm => Prod.ext hm.kind_eq hm.raw_eq

/-- Both quotes and a backslash in the text, and all of them unpaired in what follows. -/
theorem tokenize_quoted_twice :
    Lexeme.isQuote '\'' = true ∧ Lexeme.quote '\'' "it's \"\\".toList = "'it\\'s \"\\\\'".toList ∧
    ∃ whole part first later,
      tokenize .unchanged {} (Lexeme.quote '\'' "it's \"\\".toList ++ "!'[\"\\'".toList) = .ok whole ∧
      tokenize .unchanged {} "!'[\"\\'".toList = .ok part ∧
      whole.nodes = first :: later ∧
      first.kind = .quoted ∧ first.value = "it's \"\\".toList ∧
      first.raw = Lexeme.quote '\'' "it's \"\\".toList ∧
      (later.map fun n => (n.kind, n.raw)) = part.nodes.map fun n => (n.kind, n.raw) :=
  ⟨rfl, by decide, tokenize_quoted {} '\'' "it's \"\\".toList "!'[\"\\'".toList rfl⟩

end GlobPattern
