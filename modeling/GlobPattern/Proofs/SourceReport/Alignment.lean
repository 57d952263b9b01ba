import GlobPattern.Operation
import GlobPattern.Proofs.Lexer.Safety
import GlobPattern.Proofs.SourceReport
import GlobPattern.Proofs.Text.OneLine

/-!
# Alignment of reports

A report has five rows as text. The gutter bars of the last three stand one above the other, and
the carets of the last stand under the line in the fourth: the first one under the character that
the column counts, the second, if there is one, still within the line.

* `Text.exists_text_eq_append`, `SourceReport.newline_notMem_rows`: no row holds a line feed;
* `SourceReport.splitOn_text`: the rows are what stands between the line feeds of the text;
* `SourceReport.Aligned`, `SourceReport.LaidOut`: what the last three rows have to show, and a text
  of five rows in which they show it;
* `SourceReport.aligned_rows`, **`SourceReport.laidOut_text`**;
* `SourceReport.Outcome`, **`SourceReport.outcome_render`**: the reports that have a text, and why
  others have none;
* `LexFault.oneLine_message`, `LexError.PlacedIn`, `Lexer.placedIn_of_perform`: the errors of a
  lexer have a message of one line, and a place in the source;
* **`SourceReport.render_laidOut`**: reports in general, and those on the errors of a lexer.
-/

namespace GlobPattern

open Text

/-! ## Places and lines -/

namespace Text

variable {c : Char} {s : List Char}

theorem idxOf?_append_cons (h : c ∉ s) (t : List Char) :
    (s ++ c :: t).idxOf? c = some s.length := by
  rw [List.idxOf?_eq_some_iff]
  refine ⟨by simp, by simp, fun j hj hc => h ?_⟩
  rw [List.getElem_append_left hj] at hc
  exact hc ▸ List.getElem_mem hj

theorem exists_text_eq_append (s : List Char) :
    ∀ l ∈ lines s, ∃ u v, l.text = u ++ v ∧ '\n' ∉ u ∧ ∀ c ∈ v, c = '\n' := by
  fun_induction lines s with
  | case1 => simp
  | case2 r ih => exact List.forall_mem_cons.2 ⟨⟨['\r'], ['\n'], rfl, by decide, by simp⟩, ih⟩
  | case3 c r _ hc ih =>
    refine List.forall_mem_cons.2 ⟨?_, ih⟩
    by_cases hf : c = '\n'
    · exact ⟨[], [c], rfl, by simp, by simpa using hf⟩
    · exact ⟨[c], [], rfl, by simpa using Ne.symm hf, by simp⟩
  | case4 c r _ hc h ih =>
    have hf : '\n' ≠ c := by rintro rfl; exact hc (by decide)
    exact List.forall_mem_singleton.2 ⟨[c], [], rfl, by simpa using hf, by simp⟩
  | case5 c r _ hc l rest h ih =>
    have hf : '\n' ≠ c := by rintro rfl; exact hc (by decide)
    rw [h, List.forall_mem_cons] at ih
    obtain ⟨⟨u, v, hl, hu, hv⟩, hrest⟩ := ih
    refine List.forall_mem_cons.2 ⟨⟨c :: u, v, ?_, ?_, hv⟩, hrest⟩
    · exact congrArg (c :: ·) hl
    · simpa [hf] using hu

end Text

namespace SourceReport

variable {r : SourceReport}

/-! ## Rows -/

theorem newline_notMem_shownLine (r : SourceReport) : '\n' ∉ r.shownLine := by
  unfold shownLine
  split
  · split
    · next l hl =>
      obtain ⟨u, v, htext, hu, hv⟩ := exists_text_eq_append r.source l (List.mem_of_getElem? hl)
      rw [htext, trimBreak_append hu hv]
      exact fun hc => hu ((List.rdropWhile_prefix _ _).subset hc)
    · exact List.not_mem_nil
  · exact List.not_mem_nil

theorem newline_notMem_rows (hm : '\n' ∉ r.message.toList) (hf : '\n' ∉ r.fileName.toList) :
    ∀ row ∈ r.rows, '\n' ∉ row := by
  have hline : '\n' ∉ r.lineNumber := notMem_toString (by decide) (by decide) _
  have hcolumn := notMem_toString (by decide : '\n' ≠ '-') (by decide) r.column
  have hmargin : '\n' ∉ r.margin := by simp [margin, blanks]
  have hblanks : '\n' ∉ blanks (r.column - 1) := by simp [blanks]
  have hcarets : '\n' ∉ List.replicate r.caretCount '^' := by simp
  rw [rows]
  simp only [List.forall_mem_cons]
  simp only [List.mem_append, List.mem_cons, not_or]
  refine ⟨⟨by decide, hm⟩, ?_, ⟨hmargin, by decide⟩,
    ⟨⟨hline, by decide⟩, r.newline_notMem_shownLine⟩,
    ⟨⟨⟨hmargin, by decide⟩, hblanks⟩, hcarets⟩, List.forall_mem_nil _⟩
  exact ⟨⟨⟨⟨hmargin, by decide⟩, hf⟩, by decide, hline⟩, by decide, hcolumn⟩

theorem splitOn_text (hm : '\n' ∉ r.message.toList) (hf : '\n' ∉ r.fileName.toList) :
    r.text.toList.splitOn '\n' = r.rows := by
  rw [text, String.toList_ofList]
  exact List.splitOn_intercalate '\n' (newline_notMem_rows hm hf) (List.cons_ne_nil _ _)

/-! ## What stands below what -/

/-- The last three rows of a report fit together. Each has its first bar at the index `bar`, in the
top row behind nothing but blanks. A blank behind the bar the middle row goes on with the shown line
and the bottom row with blanks and one or two carets: the first caret has the index that character
number `column` of the line has, and they end with the line, unless there is only one and the column
lies beyond it. -/
structure Aligned (r : SourceReport) (bar carets : Nat) (top middle bottom : List Char) : Prop where
  bars : top.idxOf? '|' = some bar ∧ middle.idxOf? '|' = some bar ∧ bottom.idxOf? '|' = some bar
  top_eq : top = List.replicate bar ' ' ++ ['|']
  shown : middle.drop (bar + 2) = r.shownLine
  bottom_eq : bottom = top ++ ' ' :: List.replicate (r.column - 1).toNat ' ' ++
    List.replicate carets '^'
  carets_eq : carets = 1 ∨ carets = 2
  caret : bottom.idxOf? '^' = some (bar + 2 + (r.column - 1).toNat)
  under : middle[bar + 2 + (r.column - 1).toNat]? = r.shownLine[(r.column - 1).toNat]?
  within : r.column ≤ r.shownLine.length → bottom.length ≤ middle.length
  beyond : r.shownLine.length < r.column → carets = 1

/-- A text falls into five rows between line feeds, and the last three fit together. -/
def LaidOut (r : SourceReport) (text : String) : Prop :=
  ∃ heading place top middle bottom bar carets,
    text.toList.splitOn '\n' = [heading, place, top, middle, bottom] ∧
    r.Aligned bar carets top middle bottom

theorem caretCount_eq_one (h : r.shownLine.length < r.column) : r.caretCount = 1 := by
  unfold caretCount
  omega

theorem caretCount_le (h : r.column ≤ r.shownLine.length) :
    r.column - 1 + r.caretCount ≤ r.shownLine.length := by
  unfold caretCount
  omega

theorem aligned_rows (h : 1 ≤ r.column) :
    r.Aligned (r.lineNumber.length + 1) r.caretCount (r.margin ++ ['|'])
      (r.lineNumber ++ " | ".toList ++ r.shownLine)
      (r.margin ++ "| ".toList ++ blanks (r.column - 1) ++ List.replicate r.caretCount '^') := by
  have hlength : r.margin.length = r.lineNumber.length + 1 := by simp [margin, blanks]
  have hgutter : (r.lineNumber ++ " | ".toList).length = r.lineNumber.length + 1 + 2 := by simp
  have hmargin : '|' ∉ r.margin := by simp [margin, blanks]
  -- the bar of the middle row stands behind the line number and a blank
  have hnumber : '|' ∉ r.lineNumber ++ [' '] := by
    rw [List.mem_append, not_or]
    exact ⟨notMem_toString (by decide) (by decide) _, by decide⟩
  constructor
  case bars =>
    have htop := idxOf?_append_cons hmargin []
    have hmiddle := idxOf?_append_cons hnumber (' ' :: r.shownLine)
    have hbottom := idxOf?_append_cons hmargin
      (' ' :: blanks (r.column - 1) ++ List.replicate r.caretCount '^')
    rw [hlength] at htop hbottom
    exact ⟨htop, by simpa using hmiddle, by simpa using hbottom⟩
  case top_eq => rfl
  case shown => rw [← hgutter, List.drop_left]
  case bottom_eq => simp [blanks]
  case carets_eq =>
    have := r.caretCount_bounds
    omega
  case caret =>
    obtain ⟨front, carets, hrow, hfront, hcaret⟩ :=
      caretRow_eq (show r.column = ((r.column - 1).toNat : Int) + 1 by omega)
    have hbottom := idxOf?_append_cons hcaret carets
    rw [hfront, hgutter, ← Option.some.inj hrow] at hbottom
    exact hbottom
  case under =>
    rw [← hgutter, List.getElem?_append_right (Nat.le_add_right _ _), Nat.add_sub_cancel_left]
  case within =>
    intro hc
    have hcarets := caretCount_le hc
    have hfront : (r.margin ++ "| ".toList ++ blanks (r.column - 1)).length =
        r.lineNumber.length + 1 + 2 + (r.column - 1).toNat := by
      simp [hlength, blanks]
      omega
    rw [List.length_append, hfront, List.length_replicate, List.length_append, hgutter]
    omega
  case beyond => exact caretCount_eq_one

/-- **The text of a report with rows is laid out.** -/
theorem laidOut_text (hm : '\n' ∉ r.message.toList) (hf : '\n' ∉ r.fileName.toList)
    (hc : 1 ≤ r.column) : r.LaidOut r.text :=
  ⟨_, _, _, _, _, _, _, splitOn_text hm hf, aligned_rows hc⟩

/-- The last column of a line has one caret. -/
example : (SourceReport.mk "boom" patternName 10 4
      (List.replicate 9 '\n' ++ "a*bc\r\nd".toList)).text =
    "error: boom\n   --> <pattern>:10:4\n   |\n10 | a*bc\n   |    ^" := by
  decide +kernel

/-! ## Reports that have a text -/

/-- How it ends to render a report where memory holds as many blanks: with its text, or because no
index is as large as its column, memory does not hold the blanks in front of its carets, or its line
number is too long to be written. -/
inductive Outcome (memory : Nat) (r : SourceReport) : Except RenderError String → Prop
  | text (column_index : r.column ≤ 0x8000000000000000) (column_le : r.column ≤ memory + 1)
      (digits_le : r.digitCount ≤ maxDigits) : Outcome memory r (.ok r.text)
  | columnOutOfRange (lt_column : 0x8000000000000000 < r.column) :
      Outcome memory r (.error (.layout .columnOutOfRange))
  | outOfMemory (column_index : r.column ≤ 0x8000000000000000) (lt_column : memory + 1 < r.column) :
      Outcome memory r (.error (.layout .outOfMemory))
  | tooManyDigits (column_index : r.column ≤ 0x8000000000000000) (column_le : r.column ≤ memory + 1)
      (lt_digits : maxDigits < r.digitCount) : Outcome memory r (.error .tooManyDigits)

theorem outcome_render (memory : Nat) (hc : 1 ≤ r.column) :
    r.Outcome memory (r.render memory) := by
  by_cases hindex : r.column ≤ 0x8000000000000000
  · by_cases hmemory : r.column ≤ memory + 1
    · rw [render, layout_eq_text hc hindex hmemory]
      dsimp only
      split
      · next hd => exact .tooManyDigits hindex hmemory hd
      · next hd => exact .text hindex hmemory (Nat.not_lt.1 hd)
    · rw [render, layout_eq_outOfMemory hindex (Int.not_le.1 hmemory)]
      exact .outOfMemory hindex (Int.not_le.1 hmemory)
  · rw [render, layout_eq_columnOutOfRange (Int.not_le.1 hindex)]
    exact .columnOutOfRange (Int.not_le.1 hindex)

theorem Outcome.eq_text {memory : Nat} {o : Except RenderError String} (h : r.Outcome memory o)
    (hindex : r.column ≤ 0x8000000000000000) (hmemory : r.column ≤ memory + 1)
    (hd : r.digitCount ≤ maxDigits) : o = .ok r.text := by
  cases h with
  | text => rfl
  | columnOutOfRange hlt => omega
  | outOfMemory _ hlt => omega
  | tooManyDigits _ _ hlt => omega

/-- A line number that is an index, or the next one, can be written. -/
theorem digitCount_le (h : r.line.natAbs ≤ 0x8000000000000000) : r.digitCount ≤ maxDigits := by
  have hdigits : r.line.natAbs < 10 ^ 20 := by omega
  rw [digitCount, Nat.toString_eq_repr]
  exact ((Nat.length_repr_le_iff (by decide)).2 hdigits).trans (by decide)

end SourceReport

/-! ## Lexing errors -/

theorem LexFault.oneLine_message (f : LexFault) : OneLine f.message.toList := by
  have hquoted : ∀ t, OneLine (String.ofList (quoted t)).toList := by
    intro t
    rw [String.toList_ofList]
    exact oneLine_quoted t
  unfold message
  cases f with
  | noRule next =>
    dsimp only
    rw [String.toList_append]
    exact OneLine.append (by decide) (hquoted _)
  | noProgress rule =>
    dsimp only
    rw [String.toList_append, String.toList_append]
    exact (OneLine.append (by decide) (hquoted _)).append (by decide)

theorem Cursor.column_le (c : Cursor) : c.position.column ≤ c.source.length + 1 := by
  have := (List.rtakeWhile_suffix (· != '\n') c.parsed).length_le
  rw [column_eq, lineBefore, source, List.length_append]
  omega

theorem Cursor.line_le (c : Cursor) : c.position.line ≤ c.source.length + 1 := by
  have := List.count_le_length (a := '\n') (l := c.parsed)
  rw [line_eq, source, List.length_append]
  omega

/-- The error speaks of the place of a cursor in a source. -/
def LexError.PlacedIn (e : LexError) (source : List Char) : Prop :=
  ∃ c : Cursor, c.source = source ∧ e.position = c.position ∧ e.source = c.source

namespace Lexer

variable {lx lx' : Lexer} {e : LexError}

theorem placedIn_of_step (h : lx.step = (lx', .error (.lex e))) : e.PlacedIn lx.cursor.source := by
  cases ending_of_step h with
  | faulted _ _ here _ hsource => exact ⟨lx'.cursor, source_of_step h, here, hsource⟩

theorem placedIn_of_run (h : lx.run = (lx', .error (.lex e))) : e.PlacedIn lx.cursor.source := by
  obtain ⟨n, last, steps, hrun⟩ := lx.run_cases
  -- the steps in front of the one that fails keep the source
  have hsource := steps.invariant (P := fun a => a.cursor.source = lx.cursor.source)
    (fun a ha _ b hs => (source_of_step hs).trans ha) rfl
  rcases hrun with ⟨-, hrun⟩ | ⟨lx'', e', -, hs, hrun⟩
  · rw [hrun] at h
    cases h
  · rw [hrun] at h
    cases h
    exact hsource ▸ placedIn_of_step hs

theorem eq_of_answering_eq_failure {answer : Lexer → Answer} {r : Lexer × Except Failure Unit}
    {f : Failure} (h : (answering answer r).2 = .error (.failure f)) : r = (r.1, .error f) := by
  obtain ⟨lx, _ | _⟩ := r <;> cases h
  rfl

theorem placedIn_of_perform {op : Operation} (h : (lx.perform op).2 = .error (.failure (.lex e))) :
    e.PlacedIn lx.cursor.source := by
  cases op with
  | step => exact placedIn_of_step (eq_of_answering_eq_failure h)
  | run => exact placedIn_of_run (eq_of_answering_eq_failure h)
  | consume n =>
    rw [perform] at h
    split at h <;> cases h
  | pop name =>
    rw [perform] at h
    split at h <;> cases h
  | rule kind => cases h
  | push name => cases h

end Lexer

namespace LexError

open SourceReport

variable {e : LexError} {source : List Char}

theorem PlacedIn.source_eq (h : e.PlacedIn source) : e.source = source := by
  obtain ⟨c, hsource, -, he⟩ := h
  exact he.trans hsource

theorem PlacedIn.one_le_column (h : e.PlacedIn source) : 1 ≤ e.position.column := by
  obtain ⟨c, -, hposition, -⟩ := h
  rw [hposition, c.column_eq]
  omega

theorem PlacedIn.column_report_le (h : e.PlacedIn source) (fileName : String) :
    (e.report fileName).column ≤ source.length + 1 := by
  obtain ⟨c, rfl, hposition, -⟩ := h
  have hcolumn := c.column_le
  rw [← hposition] at hcolumn
  simp only [report]
  omega

theorem PlacedIn.digitCount_report_le (h : e.PlacedIn source)
    (hlength : source.length < 0x8000000000000000) (fileName : String) :
    (e.report fileName).digitCount ≤ maxDigits := by
  obtain ⟨c, rfl, hposition, -⟩ := h
  have hline := c.line_le
  rw [← hposition] at hline
  apply digitCount_le
  simp only [report, Int.natAbs_natCast]
  omega

end LexError

/-! ## Every report, and those on lexing errors -/

namespace SourceReport

/-- **The carets of a report stand under the place that it speaks of.** For every line and every
column from one on: if the message and the file name hold no line feed, the text of the report is
laid out. However much memory there is, rendering ends with this text, unless memory does not hold
the blanks in front of the carets, no index counts them, or the line number is too long.

With any rules under any names, and at any point of its work, the reports on the errors of a lexer
are of this kind, and rendering ends with their text if memory holds as many blanks as the source
has characters, and an index counts them. -/
theorem render_laidOut :
    (∀ r : SourceReport, '\n' ∉ r.message.toList → '\n' ∉ r.fileName.toList → 1 ≤ r.column →
      r.LaidOut r.text ∧ ∀ memory, r.Outcome memory (r.render memory)) ∧
    ∀ (lx : Lexer) (op : Lexer.Operation) (e : LexError) (fileName : String),
      (lx.perform op).2 = .error (.failure (.lex e)) → '\n' ∉ fileName.toList →
      e.source = lx.cursor.source ∧ (e.report fileName).LaidOut (e.report fileName).text ∧
      ∀ memory, (e.report fileName).Outcome memory ((e.report fileName).render memory) ∧
        (lx.cursor.source.length ≤ memory → lx.cursor.source.length < 0x8000000000000000 →
          (e.report fileName).render memory = .ok (e.report fileName).text) := by
  refine ⟨fun r hm hf hc => ⟨laidOut_text hm hf hc, fun memory => outcome_render memory hc⟩,
    fun lx op e fileName h hf => ?_⟩
  have placed := Lexer.placedIn_of_perform h
  have hm : '\n' ∉ (e.report fileName).message.toList := e.fault.oneLine_message.newline_notMem
  have hc : 1 ≤ (e.report fileName).column := Int.ofNat_le.2 placed.one_le_column
  refine ⟨placed.source_eq, laidOut_text hm hf hc, fun memory => ?_⟩
  have outcome := outcome_render memory hc
  refine ⟨outcome, fun hmemory hlength => ?_⟩
  have hcolumn := placed.column_report_le fileName
  exact outcome.eq_text (by omega) (by omega) (placed.digitCount_report_le hlength fileName)

/-- The second of two rules offers a node without taking anything. Its name holds a line feed, and
the lexer stands in the second line of its source. -/
theorem render_laidOut_stuck :
    let source := "a\nb(c".toList
    let rules : RuleSet := ⟨[("slash", .builtin .slash), ("paren\nopen", .stuck ['('])]⟩
    let lx := { Lexer.start source {} rules with cursor := (Cursor.start source).advance 3 }
    let e : LexError := ⟨.noProgress "paren\nopen", ⟨2, 2, 3⟩, source⟩
    (lx.perform .step).2 = .error (.failure (.lex e)) ∧
      (e.report "globs").LaidOut (e.report "globs").text ∧
      (e.report "globs").render 5 = .ok (e.report "globs").text := by
  intro source rules lx e
  have hstep : (lx.perform .step).2 = .error (.failure (.lex e)) := by rfl
  obtain ⟨-, hlaid, hrender⟩ := render_laidOut.2 lx .step e "globs" hstep (by decide)
  exact ⟨hstep, hlaid, (hrender 5).2 (by decide) (by decide)⟩

/-- A column beyond the indices leaves a report without text, however much memory there is. -/
theorem not_render_column_out_of_range :
    let r : SourceReport := ⟨"boom", patternName, 1, 9223372036854775809, ['a']⟩
    '\n' ∉ r.message.toList ∧ '\n' ∉ r.fileName.toList ∧ 1 ≤ r.column ∧
      ∀ memory, r.render memory = .error (.layout .columnOutOfRange) ∧
        ¬ ∃ text, r.render memory = .ok text ∧ r.LaidOut text := by
  intro r
  refine ⟨by decide, by decide, by decide, fun memory => ?_⟩
  have hrender : r.render memory = .error (.layout .columnOutOfRange) := by
    rw [render, layout_eq_columnOutOfRange (by decide)]
  refine ⟨hrender, ?_⟩
  rintro ⟨text, htext, -⟩
  rw [hrender] at htext
  cases htext

end SourceReport

end GlobPattern
