import GlobPattern.Proofs.Diagnostic.Range
import GlobPattern.Workspace

/-!
# Published diagnostics are well placed

The patterns of a list are its lines, so they hold no line break and the diagnostics of each are on
its nodes, within its line. The lines come in order, and so do the diagnostics of the whole list.

* `Diagnostic.On`: a diagnostic on the characters of a node of a pattern;
* `PatternList.WellPlaced`: diagnostics in the lines of a text, in order and apart;
* `PatternList.checkAll_placed`: the diagnostics of patterns in order;
* **`Workspace.published_wellPlaced`**: what is published when the text of a document is set.
-/

namespace GlobPattern

/-- A diagnostic covers the characters of a node of a pattern and says what is to be said of it. -/
structure Diagnostic.On (pattern : List Char) (n : Node) (d : Diagnostic) : Prop where
  reported : n.finding? = some d.finding
  start_eq : d.start = n.span.start.offset
  stop_eq : d.stop = n.span.stop.offset
  nonempty : d.start < d.stop
  within : d.stop ≤ pattern.length
  text_eq : (pattern.take d.stop).drop d.start = n.raw

namespace PatternList

/-- A diagnostic of a pattern on a line with an index: on a node of the pattern. -/
def Stands (p : List Char × Nat) (d : Diagnostic) : Prop :=
  d.line = p.2 ∧ ∃ a, tokenize .unchanged {} p.1 = .ok a ∧ ∃ n ∈ a.nodes, d.On p.1 n

/-- One diagnostic ends before the other begins. -/
def Precedes (d e : Diagnostic) : Prop := d.line < e.line ∨ d.line = e.line ∧ d.stop ≤ e.start

/-- What is to be said about a text: a diagnostic for each node that there is something to be said
about, of the pattern in each line that is neither blank nor begins with `#`, on the characters of
this node. They are in order of lines and of their first characters, and none reaches into
another. -/
structure WellPlaced (text : List Char) (found : List Diagnostic) : Prop where
  placed : ∀ d, d ∈ found ↔ ∃ (index : Nat) (line : Text.Line) (a : Ast) (n : Node),
    d.line = index ∧ (Text.lines text)[index]? = some line ∧
    Text.allBlank line.content = false ∧ line.content.head? ≠ some '#' ∧
    tokenize .unchanged {} line.content = .ok a ∧ n ∈ a.nodes ∧ d.On line.content n
  sorted : found.Pairwise fun d e => d.line < e.line ∨ d.line = e.line ∧ d.start < e.start
  disjoint : found.Pairwise fun d e => d.line = e.line → d.stop ≤ e.start

end PatternList

/-! ## The diagnostics of one line -/

theorem Node.StandsIn.on_onNode {source : List Char} {n : Node} (h : n.StandsIn source)
    {finding : Finding} (hf : n.finding? = some finding) (line : Int) :
    (Diagnostic.onNode line n finding).On source n where
  reported := hf
  start_eq := rfl
  stop_eq := rfl
  nonempty := h.start_lt_stop
  within := h.stop_le
  text_eq := by
    have hlength : n.span.stop.offset - n.span.start.offset = n.raw.length := by
      rw [h.stop_offset]
      omega
    change (source.take n.span.stop.offset).drop n.span.start.offset = n.raw
    rw [List.drop_take, hlength, h.take_drop]

theorem Diagnostic.On.eq_onNode {source : List Char} {n : Node} {d : Diagnostic}
    (h : d.On source n) : d = onNode d.line n d.finding := by
  obtain ⟨line, start, stop, finding⟩ := d
  obtain rfl : start = _ := h.start_eq
  obtain rfl : stop = _ := h.stop_eq
  rfl

theorem Diagnostic.check_placed {pattern : List Char} (hp : '\n' ∉ pattern) (index : Nat) :
    ∃ found, (∀ d, d ∈ found ↔ PatternList.Stands (pattern, index) d) ∧
      found.Pairwise PatternList.Precedes ∧
      ∀ (ε : Type) (refuse : Place → Option ε),
        check refuse .unchanged pattern index = tell refuse found := by
  obtain ⟨ls, h⟩ := exists_segments pattern
  refine ⟨_, fun d => ⟨fun hd => ?_, ?_⟩, ?_, fun ε refuse => check_of_segments refuse h hp index⟩
  · obtain ⟨n, hn, f, hf, rfl⟩ := mem_onNodes.1 hd
    exact ⟨rfl, _, tokenize_of_segments h {}, n, hn, (h.standsIn_of_mem hn).on_onNode hf _⟩
  · rintro ⟨hline, a, ha, n, hn, hon⟩
    rw [tokenize_of_segments h {}] at ha
    cases ha
    rw [hon.eq_onNode, hline]
    exact mem_onNodes.2 ⟨n, hn, d.finding, hon.reported, rfl⟩
  · refine (pairwise_onNodes h.pairwise_nodes _).imp_of_mem fun {d e} hd he hde => ?_
    obtain ⟨_, _, _, _, rfl⟩ := mem_onNodes.1 hd
    obtain ⟨_, _, _, _, rfl⟩ := mem_onNodes.1 he
    exact .inr ⟨rfl, hde⟩

namespace PatternList

/-! ## The diagnostics of a list -/

theorem mem_patterns_iff {text pattern : List Char} {index : Nat} :
    (pattern, index) ∈ patterns text ↔ ∃ line, (Text.lines text)[index]? = some line ∧
      line.content = pattern ∧ Text.allBlank pattern = false ∧ pattern.head? ≠ some '#' := by
  simp only [patterns, List.mem_filter, List.mem_zipIdx_iff_getElem?, List.getElem?_map,
    Option.map_eq_some_iff, holdsPattern, Bool.and_eq_true, Bool.not_eq_true', bne_iff_ne]
  constructor
  · rintro ⟨⟨line, hline, hc⟩, hb, hh⟩
    exact ⟨line, hline, hc, hb, hh⟩
  · rintro ⟨line, hline, hc, hb, hh⟩
    exact ⟨⟨line, hline, hc⟩, hb, hh⟩

theorem pairwise_patterns (text : List Char) : (patterns text).Pairwise fun p q => p.2 < q.2 := by
  refine List.Pairwise.filter _ ?_
  rw [← List.pairwise_map (f := Prod.snd), List.zipIdx_map_snd]
  exact List.pairwise_lt_range'

theorem newline_notMem_patterns {text : List Char} {p : List Char × Nat} (hp : p ∈ patterns text) :
    '\n' ∉ p.1 := by
  obtain ⟨line, hline, hc, -⟩ := mem_patterns_iff.1 hp
  intro hn
  rw [← hc] at hn
  exact absurd (Text.isLineBreak_of_mem_content text line (List.mem_of_getElem? hline) _ hn)
    (by decide)

/-- **The diagnostics of patterns in order** are those that stand in the patterns, in order and
apart. -/
theorem checkAll_placed {ps : List (List Char × Nat)} (hp : ∀ p ∈ ps, '\n' ∉ p.1)
    (hs : ps.Pairwise fun p q => p.2 < q.2) :
    ∃ found, (∀ d, d ∈ found ↔ ∃ p ∈ ps, Stands p d) ∧ found.Pairwise Precedes ∧
      ∀ (ε : Type) (refuse : Place → Option ε),
        checkAll refuse .unchanged ps = Diagnostic.tell refuse found := by
  induction hs with
  | nil => exact ⟨[], by simp, .nil, fun _ _ => rfl⟩
  | @cons p ps hlater _ ih =>
    obtain ⟨pattern, index⟩ := p
    obtain ⟨found, hstands, hfound, hcheck⟩ :=
      Diagnostic.check_placed (hp _ List.mem_cons_self) index
    obtain ⟨rest, hplaced, hapart, hrest⟩ := ih fun p h => hp p (List.mem_cons_of_mem _ h)
    refine ⟨found ++ rest, fun d => ?_, ?_, fun ε refuse => ?_⟩
    · rw [List.mem_append, hstands, hplaced, List.exists_mem_cons_iff]
    · refine List.pairwise_append.2 ⟨hfound, hapart, fun d hd e he => .inl ?_⟩
      obtain ⟨p, hmem, hline, -⟩ := (hplaced e).1 he
      rw [((hstands d).1 hd).1, hline, Int.ofNat_lt]
      exact hlater p hmem
    · rw [checkAll, hcheck, hrest]
      exact (Diagnostic.tell_append refuse found rest).symm

/-- The diagnostics of a text are well placed, whatever places can be told. -/
theorem diagnostics_wellPlaced (text : List Char) :
    ∃ found, WellPlaced text found ∧ ∀ (ε : Type) (refuse : Place → Option ε),
      diagnostics refuse .unchanged text = Diagnostic.tell refuse found := by
  obtain ⟨found, hstands, hapart, hfound⟩ :=
    checkAll_placed (fun p hp => newline_notMem_patterns hp) (pairwise_patterns text)
  refine ⟨found, ⟨fun d => (hstands d).trans ⟨?_, ?_⟩, ?_, ?_⟩, hfound⟩
  · rintro ⟨⟨pattern, index⟩, hmem, hline, a, ha, n, hn, hon⟩
    obtain ⟨line, hat, rfl, hblank, hhash⟩ := mem_patterns_iff.1 hmem
    exact ⟨index, line, a, n, hline, hat, hblank, hhash, ha, hn, hon⟩
  · rintro ⟨index, line, a, n, hline, hat, hblank, hhash, ha, hn, hon⟩
    exact ⟨(line.content, index), mem_patterns_iff.2 ⟨line, hat, rfl, hblank, hhash⟩,
      hline, a, ha, n, hn, hon⟩
  · refine hapart.imp_of_mem fun {d e} hd _ h => h.imp_right fun h => ⟨h.1, ?_⟩
    obtain ⟨_, _, _, _, _, _, _, hon⟩ := (hstands d).1 hd
    exact hon.nonempty.trans_le h.2
  · refine hapart.imp fun h heq => ?_
    rcases h with h | h
    · omega
    · exact h.2

end PatternList

/-! ## Publications -/

namespace Workspace

variable {σ ε δ : Type}

/-- **Published diagnostics are well placed.** Whenever a text is set in a workspace that returns the
last text stored, this is to say the same about the document: diagnostics on the characters of the
nodes in the lines of the text, in order and apart. They are published under the identifier of the
document, if all places that they name can be told; otherwise nothing is, for the reason why the
first that cannot is refused. Nothing is published either if the workspace refuses the text. -/
theorem published_wellPlaced (w : Workspace σ ε) (hw : w.ReturnsLast) (refuse : Place → Option δ)
    (event : Event) (s : σ) (uri : String) (text : List Char) :
    ∃ found, PatternList.WellPlaced text found ∧
      match w.store event s uri text with
      | .error e => w.handle refuse .unchanged event s uri text = (s, .error (.unkept e))
      | .ok s' => ∃ result, Diagnostic.Told refuse found result ∧
          w.handle refuse .unchanged event s uri text = (s', publication uri result) := by
  obtain ⟨found, hplaced, hfound⟩ := PatternList.diagnostics_wellPlaced text
  refine ⟨found, hplaced, ?_⟩
  cases hstore : w.store event s uri text with
  | error e => rw [handle, hstore]
  | ok s' =>
    refine ⟨_, Diagnostic.told_tell refuse found, ?_⟩
    rw [handle, hstore]
    dsimp only
    rw [publish, hw event s uri text s' hstore]
    dsimp only
    rw [hfound]

/-- An open document changes: the new text has a comment, a blank line and two patterns. -/
theorem published_wellPlaced_changed :
    let w : Workspace (List (String × List Char)) (Unkept Empty) := keeping id fun _ => none
    let text := "#'\n \n!it's\r\na!".toList
    let found : List Diagnostic := [⟨2, 3, 4, .openQuote ['\'']⟩, ⟨3, 1, 2, .literalNegation⟩]
    w.ReturnsLast ∧ PatternList.WellPlaced text found ∧
      w.handle (Place.outOfRange? 2147483647) .unchanged .changed [("globs", ['a'])] "globs" text =
        ([("globs", text)], .ok ⟨"globs", found⟩) := by
  intro w text found
  have hw : w.ReturnsLast := keeping_returnsLast _ _
  obtain ⟨found', hplaced, result, htold, hhandle⟩ := published_wellPlaced w hw
    (Place.outOfRange? 2147483647) .changed [("globs", ['a'])] "globs" text
  have heval : (w.handle (Place.outOfRange? 2147483647) .unchanged .changed [("globs", ['a'])]
      "globs" text).2.toOption = some ⟨"globs", found⟩ := by decide +kernel
  rw [hhandle] at heval
  cases htold with
  | all =>
    obtain rfl : found' = found := congrArg Publication.diagnostics (Option.some.inj heval)
    exact ⟨hw, hplaced, hhandle⟩
  | untold => cases heval

end Workspace

end GlobPattern
