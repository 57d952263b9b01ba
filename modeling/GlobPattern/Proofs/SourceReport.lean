import GlobPattern.Cursor
import GlobPattern.SourceReport
import GlobPattern.Proofs.Text.StrayBreak

/-!
# Reports on the place of a cursor

A cursor counts lines by line feeds, a report takes its line from the lines of the source, which end
at other characters too. So a report shows the line around the cursor, and its first caret stands
under the character ahead, as long as no line break is stray; behind a stray break that more text
follows, some place is shown with another line than its own.

* `Cursor.lineBefore`, `Cursor.lineBehind`, `Cursor.lineHere`: the line around a cursor;
* `Cursor.reportHere`, `Cursor.ShownBy`: a report on the place of a cursor, and what it has to show;
* `Position.column_after_start`: the column counts the characters behind the last line feed;
* `Cursor.shownBy_iff`: it shows it exactly if the right line is taken;
* `shownAt_zero`, `shownAt_add`, `shownAt_stray`, `shownAt_feeds`: which line is taken;
* **`Cursor.reportHere_shows_iff`**: the sources with every place shown.
-/

namespace GlobPattern

open Text

theorem Position.column_after_start (s : List Char) :
    (Position.start.after s).column = (s.rtakeWhile (· != '\n')).length + 1 := by
  induction s using List.reverseRecOn with
  | nil => rfl
  | append_singleton s c ih =>
    rw [Position.after_append, Position.after_cons, Position.after_nil, Position.next,
      List.rtakeWhile_concat]
    by_cases hc : c = '\n'
    · simp [hc]
    · simp [hc, ih]

/-! ## The line around a cursor -/

namespace Cursor

/-- What stands in the line in front of the cursor. -/
def lineBefore (c : Cursor) : List Char := c.parsed.rtakeWhile (· != '\n')

/-- What stands in the line behind the cursor. -/
def lineBehind (c : Cursor) : List Char := c.remaining.takeWhile (· != '\n')

/-- The text between the line feeds around the cursor, without the carriage returns at its end. -/
def lineHere (c : Cursor) : List Char := (c.lineBefore ++ c.lineBehind).rdropWhile (· == '\r')

/-- A report on the place of the cursor. -/
def reportHere (c : Cursor) (message fileName : String) : SourceReport :=
  ⟨message, fileName, c.position.line, c.position.column, c.source⟩

/-- The fourth row of a report shows the line around the cursor. If the cursor is in front of a
character of what is shown, the first caret of the fifth row stands under that character. -/
structure ShownBy (c : Cursor) (r : SourceReport) : Prop where
  line : r.rows[3]? = some (r.lineNumber ++ " | ".toList ++ c.lineHere)
  caret : c.lineBefore.length < c.lineHere.length → ∃ shown marks i d,
    r.rows[3]? = some shown ∧ r.rows[4]? = some marks ∧
    i = (r.lineNumber ++ " | ".toList).length + c.lineBefore.length ∧
    c.source[c.offset]? = some d ∧ shown[i]? = some d ∧
    marks[i]? = some '^' ∧ '^' ∉ marks.take i

variable (c : Cursor) (message fileName : String)

/-- The consumed text up to and with its last line feed. -/
def linesBefore : List Char := c.parsed.rdropWhile (· != '\n')

/-- The text from the first line feed behind the cursor on. -/
def linesBehind : List Char := c.remaining.dropWhile (· != '\n')

@[simp] theorem linesBefore_append_lineBefore : c.linesBefore ++ c.lineBefore = c.parsed :=
  List.rdropWhile_append_rtakeWhile

@[simp] theorem lineBehind_append_linesBehind : c.lineBehind ++ c.linesBehind = c.remaining :=
  List.takeWhile_append_dropWhile

theorem source_eq_lines :
    c.source = c.linesBefore ++ ((c.lineBefore ++ c.lineBehind) ++ c.linesBehind) := by
  rw [source, List.append_assoc, lineBehind_append_linesBehind, ← List.append_assoc,
    linesBefore_append_lineBefore]

theorem endsInFeed_linesBefore : EndsInFeed c.linesBefore := endsInFeed_rdropWhile c.parsed

theorem newline_notMem_line : '\n' ∉ c.lineBefore ++ c.lineBehind := by
  rw [List.mem_append, not_or]
  exact ⟨newline_notMem_rtakeWhile c.parsed, fun h => by simpa using List.mem_takeWhile_imp h⟩

theorem head?_linesBehind : ∀ d ∈ c.linesBehind.head?, d = '\n' := by
  intro d hd
  have := List.head?_dropWhile_not (· != '\n') c.remaining
  rw [show List.head? (List.dropWhile _ c.remaining) = some d from hd] at this
  simpa using this

theorem count_parsed : c.parsed.count '\n' = c.linesBefore.count '\n' :=
  (count_rdropWhile c.parsed).symm

theorem line_eq : c.position.line = 1 + c.parsed.count '\n' := by
  rw [position_eq, Position.line_after]
  rfl

theorem column_eq : c.position.column = c.lineBefore.length + 1 := by
  rw [position_eq, Position.column_after_start]
  rfl

end Cursor

/-! ## What a report shows -/

theorem SourceReport.caretRow_eq {r : SourceReport} {k : Nat} (h : r.column = k + 1) :
    ∃ front carets, r.rows[4]? = some (front ++ '^' :: carets) ∧
      front.length = (r.lineNumber ++ " | ".toList).length + k ∧ '^' ∉ front := by
  obtain ⟨n, hn⟩ := Nat.exists_eq_add_one.2 r.caretCount_bounds.1
  refine ⟨r.margin ++ "| ".toList ++ blanks (r.column - 1), List.replicate n '^', ?_, ?_, ?_⟩
  · change some (_ ++ List.replicate r.caretCount '^') = _
    rw [hn, List.replicate_succ]
  · simp [margin, blanks, h]
    omega
  · simp [margin, blanks]

namespace Cursor

variable (c : Cursor) (message fileName : String)

/-- **A report shows the place of a cursor exactly if it takes the line around it.** -/
theorem shownBy_iff :
    c.ShownBy (c.reportHere message fileName) ↔
      (c.reportHere message fileName).shownLine = c.lineHere := by
  constructor
  · intro h
    exact List.append_cancel_left (Option.some.inj h.line)
  · intro h
    have shown : (c.reportHere message fileName).rows[3]? =
        some ((c.reportHere message fileName).lineNumber ++ " | ".toList ++ c.lineHere) := by
      rw [← h]
      rfl
    refine ⟨shown, fun hlt => ?_⟩
    obtain ⟨t, ht⟩ := List.rdropWhile_prefix (· == '\r') (c.lineBefore ++ c.lineBehind)
    change c.lineHere ++ t = _ at ht
    -- what is shown reaches beyond the cursor, so a character stands there
    have hne : c.lineBehind ≠ [] := by
      intro hnil
      rw [hnil, List.append_nil] at ht
      have := congrArg List.length ht
      rw [List.length_append] at this
      omega
    obtain ⟨d, rest, hd⟩ := List.exists_cons_of_ne_nil hne
    have hsource : c.source[c.offset]? = some d := by
      rw [source, offset_eq_length, List.getElem?_append_right le_rfl, Nat.sub_self,
        ← c.lineBehind_append_linesBehind, hd]
      rfl
    have hhere : c.lineHere[c.lineBefore.length]? = some d := by
      rw [← List.getElem?_append_left hlt, ht, hd,
        List.getElem?_append_right le_rfl, Nat.sub_self]
      rfl
    have marks := (c.reportHere message fileName).caretRow_eq
      (show (c.reportHere message fileName).column = (c.lineBefore.length : Int) + 1 by
        simp [reportHere, column_eq])
    obtain ⟨front, carets, hrow, hlength, hfront⟩ := marks
    refine ⟨_, _, _, d, shown, hrow, rfl, hsource, ?_, ?_, ?_⟩
    · rw [List.getElem?_append_right (Nat.le_add_right _ _), Nat.add_sub_cancel_left, hhere]
    · rw [← hlength, List.getElem?_append_right le_rfl, Nat.sub_self]
      rfl
    · rw [← hlength, List.take_left]
      exact hfront

end Cursor

/-! ## Which line is taken -/

namespace SourceReport

variable {a d e p r s t u v : List Char} {b : Char} {j k : Nat}

/-- What is shown of the line with an index. -/
def shownAt (s : List Char) (k : Nat) : List Char :=
  (((lines s).drop k).head?.map fun l => trimBreak l.text).getD []

theorem shownAt_of_lines {l : Line} {rest : List Line} (h : lines s = l :: rest) :
    shownAt s 0 = trimBreak l.text := by
  rw [shownAt, List.drop_zero, h]
  rfl

/-- Line feeds at the end are cut off first, and then the carriage returns in front of them. -/
theorem trimBreak_append (hu : '\n' ∉ u) (hv : ∀ c ∈ v, c = '\n') :
    trimBreak (u ++ v) = u.rdropWhile (· == '\r') := by
  have hself : u.rdropWhile (· == '\n') = u := by
    rw [List.rdropWhile_eq_self_iff]
    intro hl hc
    exact hu (eq_of_beq hc ▸ List.getLast_mem hl)
  have hcut : (u ++ v).rdropWhile (· == '\n') = u := by
    rw [rdropWhile_append_of_forall (by simpa using hv), hself]
  conv_rhs => rw [← hcut]
  simp [trimBreak, List.rdropWhile]

theorem trimBreak_of_mem_feedBreaks (h : s ∈ feedBreaks) : trimBreak s = [] := by
  simp only [feedBreaks, List.mem_cons, List.not_mem_nil, or_false] at h
  rcases h with rfl | rfl | rfl <;> rfl

/-- The first line is shown without its carriage returns, if nothing else stands behind its first
stray break. -/
theorem shownAt_zero (hv : '\n' ∉ v) (hd : ∀ d ∈ behindStray? v, ∀ c ∈ d, c = '\r')
    (ht : ∀ c ∈ t.head?, c = '\n') : shownAt (v ++ t) 0 = v.rdropWhile (· == '\r') := by
  cases h : behindStray? v with
  | none =>
    have hplain := isLineBreak_of_behindStray?_eq_none h hv
    cases t with
    | nil =>
      by_cases hne : v = []
      · subst hne
        rfl
      · rw [List.append_nil, shownAt_of_lines (lines_of_plain hplain hne)]
        exact trimBreak_append (v := []) hv (by simp)
    | cons f t =>
      obtain rfl : f = '\n' := ht f rfl
      have hfeed := lines_cons_break (c := '\n') (r := t) (by decide) (by simp)
      rw [shownAt_of_lines (lines_append_of_plain hplain hfeed)]
      exact trimBreak_append hv (by simp)
  | some d =>
    obtain ⟨p, b, rfl, hp, hb⟩ := exists_eq_of_behindStray? h
    have hd := hd d h
    simp only [List.mem_append, List.mem_cons, not_or] at hv
    have hplain := isLineBreak_of_behindStray?_eq_none hp hv.1
    have hpb : '\n' ∉ p ++ [b] := by simp [hv.1, hv.2.1]
    have hshown : shownAt ((p ++ b :: d) ++ t) 0 = (p ++ [b]).rdropWhile (· == '\r') := by
      rw [List.append_assoc, List.cons_append]
      by_cases hpair : b = '\r' ∧ (d ++ t).head? = some '\n'
      · -- the break is stray in its line, but a pair with the line feed behind the line
        obtain ⟨rfl, hhead⟩ := hpair
        obtain ⟨t, hdt⟩ := List.head?_eq_some_iff.1 hhead
        rw [hdt, shownAt_of_lines (lines_append_of_plain hplain (lines.eq_2 t))]
        have := trimBreak_append (v := ['\n']) hpb (by simp)
        rwa [List.append_assoc] at this
      · rw [shownAt_of_lines (lines_append_of_plain hplain (lines_cons_break hb.isLineBreak hpair))]
        have := trimBreak_append (v := []) hpb (by simp)
        rwa [List.append_nil] at this
    rw [hshown, List.append_cons p b d]
    exact (rdropWhile_append_of_forall (by simpa using hd)).symm

theorem shownAt_add (h : (lines s).drop j = lines t) (k : Nat) :
    shownAt s (j + k) = shownAt t k := by
  rw [shownAt, shownAt, ← h, List.drop_drop]

/-- Behind a stray break that only carriage returns and line feeds follow, nothing is shown. -/
theorem shownAt_stray (ha : behindStray? a = none) (hb : IsStray b d)
    (hd : ∀ c ∈ d, c = '\r' ∨ c = '\n') (k : Nat) :
    shownAt (a ++ b :: d) (a.count '\n' + 1 + k) = [] := by
  rw [shownAt_add (drop_lines_stray ha hb) k, shownAt]
  cases h : (lines d).drop k with
  | nil => rfl
  | cons l rest =>
    have hl : l ∈ lines d := List.mem_of_mem_drop (by rw [h]; exact List.mem_cons_self)
    exact trimBreak_of_mem_feedBreaks (text_mem_feedBreaks hd l hl)

theorem length_shownAt_le (hp : ∀ c ∈ p, isLineBreak c = false) (hb : IsStray b r) :
    (shownAt (p ++ b :: r) 0).length ≤ p.length + 1 := by
  have hlines := lines_append_of_plain hp (lines_cons_break hb.isLineBreak hb.not_pair)
  have hpb : '\n' ∉ p ++ [b] := by
    rw [List.mem_append, List.mem_singleton, not_or]
    exact ⟨fun h => absurd (hp _ h) (by decide), Ne.symm hb.ne_feed⟩
  have htrim := trimBreak_append (v := []) hpb (by simp)
  rw [List.append_nil] at htrim
  rw [shownAt_of_lines hlines, show Line.text _ = p ++ [b] from rfl, htrim]
  exact ((List.rdropWhile_prefix _ _).length_le).trans (by simp)

/-- Behind a stray break and line feeds an earlier line is shown, which is empty. -/
theorem shownAt_feeds (ha : behindStray? a = none) (hb : IsStray b (e ++ t))
    (he : ∀ c ∈ e, c = '\r' ∨ c = '\n') (hl : EndsInFeed e) (hne : e ≠ []) :
    shownAt (a ++ b :: (e ++ t)) (a.count '\n' + e.count '\n') = [] := by
  obtain ⟨k, hk⟩ := Nat.exists_eq_add_one.2 (hl.count_pos hne)
  rw [show a.count '\n' + e.count '\n' = a.count '\n' + 1 + k by omega,
    shownAt_add (drop_lines_stray ha hb) k, shownAt]
  cases h : (lines (e ++ t)).drop k with
  | nil => rfl
  | cons l rest =>
    have hmem : l ∈ (lines (e ++ t)).take (e.count '\n') := by
      rw [hk, List.take_add_one, ← List.head?_drop, h]
      simp
    exact trimBreak_of_mem_feedBreaks (text_mem_feedBreaks_of_take he hl t l hmem)

end SourceReport

/-! ## Which places are shown -/

namespace Cursor

open SourceReport

variable (c : Cursor) (message fileName : String)

theorem shownLine_reportHere :
    (c.reportHere message fileName).shownLine = shownAt c.source (c.parsed.count '\n') := by
  have hline : (c.reportHere message fileName).line = 1 + (c.parsed.count '\n' : Int) := by
    simp [reportHere, line_eq]
  have hindex : (1 + (c.parsed.count '\n' : Int) - 1).toNat = c.parsed.count '\n' := by omega
  have hsource : (c.reportHere message fileName).source = c.source := rfl
  rw [shownLine, hline, if_pos (by omega), hindex, hsource, shownAt, List.head?_drop]
  cases (lines c.source)[c.parsed.count '\n']? <;> rfl

theorem shownBy_of_behindStray?
    (h : ∀ d ∈ behindStray? (c.parsed ++ c.lineBehind), ∀ x ∈ d, x = '\r') :
    c.ShownBy (c.reportHere message fileName) := by
  rw [← c.linesBefore_append_lineBefore, List.append_assoc,
    behindStray?_append c.endsInFeed_linesBefore] at h
  rw [shownBy_iff, shownLine_reportHere, count_parsed, source_eq_lines]
  cases hu : behindStray? c.linesBefore with
  | none =>
    rw [hu] at h
    rw [show c.linesBefore.count '\n' = c.linesBefore.count '\n' + 0 from rfl,
      shownAt_add (drop_lines_append hu c.endsInFeed_linesBefore _)]
    exact shownAt_zero c.newline_notMem_line h c.head?_linesBehind
  | some d =>
    -- the stray break is in front of a line feed, which is no carriage return
    obtain ⟨a, b, hcut, -, hb⟩ := exists_eq_of_behindStray? hu
    obtain ⟨hne, hends⟩ := (hcut ▸ c.endsInFeed_linesBefore).behind_stray hb
    have hmem := List.count_pos_iff.1 (hends.count_pos hne)
    rw [hu] at h
    exact absurd (h _ rfl '\n' (List.mem_append_left _ hmem)) (by decide)

theorem shownBy_of_source
    (h : ∀ d ∈ behindStray? c.source, ∀ x ∈ d, x = '\r' ∨ x = '\n') :
    c.ShownBy (c.reportHere message fileName) := by
  have hline := c.newline_notMem_line
  rw [source_eq_lines, behindStray?_append c.endsInFeed_linesBefore] at h
  cases hu : behindStray? c.linesBefore with
  | none =>
    apply shownBy_of_behindStray?
    rw [← c.linesBefore_append_lineBefore, List.append_assoc,
      behindStray?_append c.endsInFeed_linesBefore]
    rw [hu] at h ⊢
    intro d hd x hx
    obtain ⟨p, b, hcut, hp, hb⟩ := exists_eq_of_behindStray? hd
    rw [hcut, List.append_assoc, List.cons_append,
      behindStray?_append_cons hp (hb.append (List.ne_nil_of_mem hx) c.linesBehind)] at h
    refine (h _ rfl x (List.mem_append_left _ hx)).resolve_right fun he => hline ?_
    rw [hcut, ← he]
    exact List.mem_append_right _ (List.mem_cons_of_mem _ hx)
  | some d =>
    -- a stray break before the line: everything from there on is empty lines
    obtain ⟨a, b, hcut, ha, hb⟩ := exists_eq_of_behindStray? hu
    rw [hu] at h
    have hd := h _ rfl
    obtain ⟨hne, hends⟩ := (hcut ▸ c.endsInFeed_linesBefore).behind_stray hb
    obtain ⟨k, hk⟩ := Nat.exists_eq_add_one.2 (hends.count_pos hne)
    have hhere : c.lineHere = [] := by
      rw [lineHere, List.rdropWhile_eq_nil_iff]
      intro x hx
      have := hd x (List.mem_append_right _ (List.mem_append_left _ hx))
      simpa using this.resolve_right fun he => hline (he ▸ hx)
    have hcount : c.linesBefore.count '\n' = a.count '\n' + 1 + k := by
      rw [hcut, List.count_append, List.count_cons_of_ne hb.ne_feed, hk]
      omega
    rw [shownBy_iff, shownLine_reportHere, count_parsed, source_eq_lines, hhere, hcount, hcut,
      List.append_assoc, List.cons_append]
    exact shownAt_stray ha (hb.append hne _) hd k

/-- Where other text follows the first stray break, the place in front of its first character is
not shown. -/
theorem not_shownBy {a e f : List Char} {b x : Char} {c : Cursor}
    (hparsed : c.parsed = a ++ b :: e) (hremaining : c.remaining = x :: f)
    (ha : behindStray? a = none) (hb : IsStray b (e ++ x :: f))
    (he : ∀ y ∈ e, y = '\r' ∨ y = '\n') (hx : ¬ (x = '\r' ∨ x = '\n')) :
    ¬ c.ShownBy (c.reportHere message fileName) := by
  rw [not_or] at hx
  rw [shownBy_iff, shownLine_reportHere]
  have hsource : c.source = a ++ b :: (e ++ x :: f) := by
    rw [source, hparsed, hremaining, List.append_assoc, List.cons_append]
  -- the line around the cursor reaches at least over the character ahead
  have hhere : c.lineBefore.length < c.lineHere.length := by
    have hbehind : c.lineBehind = x :: f.takeWhile (· != '\n') := by
      rw [lineBehind, hremaining, List.takeWhile_cons_of_pos (by simpa using hx.2)]
    have hprefix := prefix_rdropWhile (u := c.lineBefore) (v := f.takeWhile (· != '\n'))
      (q := (· == '\r')) (c := x) (by simpa using hx.1)
    rw [← hbehind] at hprefix
    have := hprefix.length_le
    rw [List.length_append] at this
    exact this
  by_cases hf : '\n' ∈ e
  · -- the line is behind line feeds that follow the break: an empty one is shown
    have hne : e.rdropWhile (· != '\n') ≠ [] := by
      rw [Ne, List.rdropWhile_eq_nil_iff]
      exact fun h => by simpa using h '\n' hf
    have hcut : e ++ x :: f =
        e.rdropWhile (· != '\n') ++ (e.rtakeWhile (· != '\n') ++ x :: f) := by
      rw [← List.append_assoc, List.rdropWhile_append_rtakeWhile]
    have hshown := shownAt_feeds ha (hcut ▸ hb)
      (fun y hy => he y ((List.rdropWhile_prefix _ _).subset hy)) (endsInFeed_rdropWhile e) hne
    rw [hsource, hparsed, hcut, List.count_append, List.count_cons_of_ne hb.ne_feed,
      ← count_rdropWhile e, hshown]
    intro hnil
    rw [← hnil] at hhere
    exact Nat.not_lt_zero _ hhere
  · -- the break is in the line: no more is shown than up to it
    have hbe : ∀ y ∈ b :: e, (y != '\n') = true := by
      simpa [hb.ne_feed] using fun y hy => fun h : y = '\n' => hf (h ▸ hy)
    have hcut : a = a.rdropWhile (· != '\n') ++ a.rtakeWhile (· != '\n') :=
      List.rdropWhile_append_rtakeWhile.symm
    have hbefore : c.lineBefore = a.rtakeWhile (· != '\n') ++ b :: e := by
      rw [lineBefore, hparsed, rtakeWhile_append_of_forall hbe]
    have hstrays := ha
    rw [hcut, behindStray?_append (endsInFeed_rdropWhile a)] at hstrays
    split at hstrays
    · cases hstrays
    · next hu =>
      have hplain :=
        isLineBreak_of_behindStray?_eq_none hstrays (newline_notMem_rtakeWhile a)
      have hshown := length_shownAt_le hplain hb
      have hfeeds : '\n' ∉ b :: e := fun h => by simpa using hbe '\n' h
      have hcount : c.parsed.count '\n' = (a.rdropWhile (· != '\n')).count '\n' + 0 := by
        rw [hparsed, List.count_append, List.count_eq_zero.2 hfeeds, count_rdropWhile]
      have hlines : c.source =
          a.rdropWhile (· != '\n') ++ (a.rtakeWhile (· != '\n') ++ b :: (e ++ x :: f)) := by
        rw [hsource, ← List.append_assoc, List.rdropWhile_append_rtakeWhile]
      rw [hcount, hlines, shownAt_add (drop_lines_append hu (endsInFeed_rdropWhile a) _)]
      intro heq
      rw [← heq, hbefore, List.length_append, List.length_cons] at hhere
      omega

theorem consume_start {source : List Char} {n : Nat} (hn : n ≤ source.length) :
    (start source).consume n = .ok (source.take n, (start source).advance n) :=
  consume_natCast (by rwa [remaining_start])

/-- **Every place of a source is shown exactly if only carriage returns and line feeds stand behind
its first stray line break.** A single place is shown in any case if up to the end of its line
nothing but carriage returns stands behind the first stray break. A report on it can be laid out, as
long as memory holds the blanks and an index counts them. -/
theorem reportHere_shows_iff (source : List Char) (message fileName : String) :
    ((∀ n ≤ source.length, ∃ text c, (start source).consume n = .ok (text, c) ∧
        c.ShownBy (c.reportHere message fileName)) ↔
      ∀ d ∈ behindStray? source, ∀ x ∈ d, x = '\r' ∨ x = '\n') ∧
    ∀ n ≤ source.length, ∃ text c, (start source).consume n = .ok (text, c) ∧ c.offset = n ∧
      ((∀ d ∈ behindStray? (c.parsed ++ c.lineBehind), ∀ x ∈ d, x = '\r') →
        c.ShownBy (c.reportHere message fileName)) ∧
      ∀ memory, n ≤ memory → n < 0x8000000000000000 →
        (c.reportHere message fileName).layout memory =
          .ok (c.reportHere message fileName).text := by
  refine ⟨⟨fun h d hd => ?_, fun h n hn => ⟨_, _, consume_start hn, ?_⟩⟩, fun n hn => ?_⟩
  · obtain ⟨a, b, rfl, ha, hb⟩ := exists_eq_of_behindStray? hd
    cases hfind : d.find? fun y => !(y == '\r' || y == '\n') with
    | none => simpa [or_iff_not_imp_left] using List.find?_eq_none.1 hfind
    | some x =>
      obtain ⟨hx, e, f, rfl, he⟩ := List.find?_eq_some_iff_append.1 hfind
      have hn : (a ++ b :: e).length ≤ (a ++ b :: (e ++ x :: f)).length := by simp
      obtain ⟨text, c, hc, hshown⟩ := h _ hn
      rw [consume_start hn] at hc
      cases hc
      have hcut : a ++ b :: (e ++ x :: f) = (a ++ b :: e) ++ x :: f := by simp
      refine absurd hshown (not_shownBy _ _ (a := a) (b := b) (e := e) (x := x) (f := f)
        ?_ ?_ ha hb (by simpa using he) (by simpa using hx))
      · rw [parsed_advance, parsed_start, List.nil_append, remaining_start, hcut, List.take_left]
      · rw [remaining_advance, remaining_start, hcut, List.drop_left]
  · exact shownBy_of_source _ _ _ (by rwa [source_advance, source_start])
  · refine ⟨_, _, consume_start hn, ?_, shownBy_of_behindStray? _ _ _, fun memory hmemory hlt => ?_⟩
    · simp [hn]
    · have hcolumn := ((start source).advance n).column_eq
      have hlength : ((start source).advance n).lineBefore.length ≤ n := by
        have hp := (List.rtakeWhile_suffix (· != '\n') ((start source).advance n).parsed).length_le
        rw [← offset_eq_length] at hp
        simpa [lineBefore, hn] using hp
      refine layout_eq_text ?_ ?_ ?_ <;> simp only [reportHere, hcolumn] <;> omega

/-- Behind a vertical tab the second line is shown with the rest of the first. -/
theorem not_shownBy_vertical_tab :
    ∃ text c, (start "a\x0bb\nc".toList).consume 4 = .ok (text, c) ∧ c.lineHere = ['c'] ∧
      (c.reportHere "boom" patternName).rows[3]? = some "2 | b".toList ∧
      ¬ c.ShownBy (c.reportHere "boom" patternName) := by
  refine ⟨_, _, consume_start (by decide), by decide, by decide, ?_⟩
  rw [shownBy_iff]
  decide

end Cursor

end GlobPattern
