import GlobPattern.Operation
import GlobPattern.Proofs.Rule
import GlobPattern.Proofs.SourceReport

/-!
# What a cursor passes

Whatever is done with a cursor, it moves forward over the text that it hands out, and over no other.
So where it stands, and its line and its column, depend on nothing but how much was consumed; and
what stands between a mark and the cursor is what was consumed since.

A match of any pattern is no exception. All that a cursor sees of a pattern is where its match ends.

A built-in rule takes what it recognises at the cursor, and then only the cursor, the flags and the
wrap have changed; or it passes, and then the lexer is as it was. The rule for a leading dot takes
nothing, but sets two flags. This holds of every lexer, wherever its cursor stands and whatever
contexts are open, also where no run would ever apply the rule. No rule is refused.

* `Cursor.Pattern`: a pattern as a cursor sees it; `Pattern.ofText?`: a fixed text, or plain text;
* `Cursor.Passes`: from one cursor to another a text was consumed;
* `Cursor.Call`, `Reading.call`, **`Reading.passes_call`**: what a single call passes;
* `Reading.callAll`, `Reading.taken`, **`Reading.passes_callAll`**: calls in sequence, those that
  are refused included;
* **`Reading.callAll_places`**: where a cursor stands behind any calls, and what its marks tell;
* `Lexer.Took`: what is left behind a node that was taken;
* `Lexer.RuleOutcome`, **`Lexer.perform_rule`**: the outcomes of a built-in rule.
-/

namespace GlobPattern

namespace Cursor

/-- From `c` to `d` the text `t` was consumed. -/
structure Passes (c d : Cursor) (t : List Char) : Prop where
  source_eq : d.source = c.source
  parsed_eq : d.parsed = c.parsed ++ t

namespace Passes

variable {c d e : Cursor} {t u : List Char}

theorem refl (c : Cursor) : c.Passes c [] := ⟨rfl, (List.append_nil _).symm⟩

theorem trans (h : c.Passes d t) (h' : d.Passes e u) : c.Passes e (t ++ u) :=
  ⟨h'.source_eq.trans h.source_eq, by rw [h'.parsed_eq, h.parsed_eq, List.append_assoc]⟩

theorem advance (c : Cursor) (k : Nat) : c.Passes (c.advance k) (c.remaining.take k) :=
  ⟨c.source_advance k, c.parsed_advance k⟩

theorem text_eq (h : c.Passes d t) : d.text c.offset d.offset = t := by
  have hsource : d.source = c.parsed ++ t ++ d.remaining := by rw [source, h.parsed_eq]
  have hoffset : (d.offset : Int) = c.parsed.length + t.length := by
    rw [d.offset_eq_length, h.parsed_eq, List.length_append, Int.natCast_add]
  rw [text, hsource, hoffset, c.offset_eq_length, Text.slice_append]

end Passes

theorem parsed_eq_take (c : Cursor) : c.parsed = c.source.take c.offset := by
  rw [source, offset_eq_length, List.take_left]

/-- A pattern as a cursor sees it: where its match ends if it has one that begins at a given place
of a source. A match ends behind its beginning and within the source. -/
structure Pattern where
  stop? : (source : List Char) → (place : Nat) → Option Nat
  bounds : ∀ {source place stop}, place ≤ source.length → stop? source place = some stop →
    place ≤ stop ∧ stop ≤ source.length

/-- What can be done with a cursor, matches of any pattern included. -/
inductive Call where
  | operation (op : Operation)
  | matchPattern (p : Pattern)

/-- The call consumes the text that it answers. -/
def Call.consumes : Call → Bool
  | operation (.consume _) => true
  | operation (.matchText _) => true
  | matchPattern _ => true
  | operation _ => false

/-- The text that a call has consumed, by its answer. -/
def Call.consumed (c : Call) : Except Overrun Answer → List Char
  | .ok (.text t) => if c.consumes then t else []
  | _ => []

theorem matched?_isPrefix {c : Cursor} {t? : Option (List Char)} {t : List Char}
    (h : c.matched? t? = some t) : t <+: c.remaining := by
  unfold matched? at h
  split at h
  · split at h <;> cases h
    next hp => exact List.isPrefixOf_iff_prefix.1 hp
  · exact (Lexeme.plainRun?_isPrefix h).2

/-- A given text as a pattern, or the pattern of plain text. -/
def Pattern.ofText? (t? : Option (List Char)) : Pattern where
  stop? source place := (((start source).advance place).matched? t?).map (place + ·.length)
  bounds := by
    intro source place stop hplace h
    obtain ⟨t, ht, rfl⟩ := Option.map_eq_some_iff.1 h
    have hlen := (matched?_isPrefix ht).length_le
    rw [remaining_advance, remaining_start, List.length_drop] at hlen
    omega

theorem advance_start_offset (c : Cursor) : (start c.source).advance c.offset = c := by
  ext1
  · simp [start, advance, source, parsed]
  · rw [remaining_advance, remaining_start, source, offset_eq_length, List.drop_left]

end Cursor

namespace Reading

open Cursor

variable {r : Reading} {name : String}

/-- Carry out a call. A match consumes as many characters as lie between its ends. -/
def call (r : Reading) : Call → Reading × Except Overrun Answer
  | .operation op => r.perform op
  | .matchPattern p =>
    match p.stop? r.cursor.source r.cursor.offset with
    | some stop => r.perform (.consume (stop - r.cursor.offset))
    | none => (r, .ok .nothing)

/-- The reading behind calls in sequence, those that are refused included. -/
def callAll (r : Reading) (calls : List Call) : Reading :=
  calls.foldl (fun r c => (r.call c).1) r

/-- The texts that calls in sequence consume, in order. -/
def taken (r : Reading) : List Call → List Char
  | [] => []
  | c :: calls => c.consumed (r.call c).2 ++ (r.call c).1.taken calls

theorem callAll_append (r : Reading) (calls more : List Call) :
    r.callAll (calls ++ more) = (r.callAll calls).callAll more := List.foldl_append

/-! ## Single calls -/

theorem perform_consume_of_ok {n : Int} {t : List Char} {c : Cursor}
    (h : r.cursor.consume n = .ok (t, c)) :
    r.perform (.consume n) = ({ r with cursor := c }, .ok (.text t)) := by
  rw [perform, h]

theorem perform_consume_of_error {n : Int} {e : Overrun} (h : r.cursor.consume n = .error e) :
    r.perform (.consume n) = (r, .error e) := by
  rw [perform, h]

theorem call_ofText? (r : Reading) (t? : Option (List Char)) :
    r.call (.matchPattern (.ofText? t?)) = r.perform (.matchText t?) := by
  rw [call, Pattern.ofText?, perform]
  dsimp only
  rw [advance_start_offset]
  cases h : r.cursor.matched? t? with
  | none => rfl
  | some t =>
    have hprefix := matched?_isPrefix h
    have hcount : ((r.cursor.offset + t.length : Nat) : Int) - r.cursor.offset = t.length := by
      omega
    have hconsume := consume_natCast hprefix.length_le
    rw [← List.prefix_iff_eq_take.1 hprefix] at hconsume
    rw [Option.map_some]
    dsimp only
    rw [hcount, perform_consume_of_ok hconsume]

theorem passes_consume (r : Reading) (n : Int) :
    r.cursor.Passes (r.perform (.consume n)).1.cursor
      (Call.consumed (.operation (.consume n)) (r.perform (.consume n)).2) := by
  cases h : r.cursor.consume n with
  | error e =>
    rw [perform_consume_of_error h]
    exact .refl _
  | ok moved =>
    obtain ⟨t, c⟩ := moved
    rw [perform_consume_of_ok h]
    unfold consume at h
    split at h <;> cases h
    exact .advance _ _

/-- **A call passes the text that it hands out as consumed**, and no other. -/
theorem passes_call (r : Reading) (c : Call) :
    r.cursor.Passes (r.call c).1.cursor (c.consumed (r.call c).2) := by
  have passes_match (p : Pattern) : r.cursor.Passes (r.call (.matchPattern p)).1.cursor
      (Call.consumed (.matchPattern p) (r.call (.matchPattern p)).2) := by
    rw [call]
    split
    · exact r.passes_consume _
    · exact .refl _
  cases c with
  | matchPattern p => exact passes_match p
  | operation op =>
    cases op with
    | consume n => exact r.passes_consume n
    | matchText t? =>
      have h := passes_match (.ofText? t?)
      rw [call_ofText?] at h
      exact h
    | stamp name =>
      rw [call, perform]
      split <;> exact .refl _
    | peek | startsWith | mark | text => exact .refl _

theorem call_eq_error_iff {c : Call} {e : Overrun} : (r.call c).2 = .error e ↔
    ∃ n, c = .operation (.consume n) ∧ r.cursor.consume n = .error e := by
  have never_match (p : Pattern) : (r.call (.matchPattern p)).2 ≠ .error e := by
    rw [call]
    split
    · next stop hstop =>
      have hplace : r.cursor.offset ≤ r.cursor.source.length := by
        rw [offset_eq_length, source, List.length_append]
        omega
      obtain ⟨hbegin, hend⟩ := p.bounds hplace hstop
      rw [offset_eq_length] at hbegin
      rw [source, List.length_append] at hend
      have hcount : (stop : Int) - r.cursor.offset =
          ((stop - r.cursor.parsed.length : Nat) : Int) := by
        rw [offset_eq_length]
        omega
      rw [hcount, perform_consume_of_ok (consume_natCast (by omega))]
      simp
    · simp
  cases c with
  | matchPattern p => exact iff_of_false (never_match p) (by simp)
  | operation op =>
    cases op with
    | consume n =>
      rw [call]
      cases h : r.cursor.consume n with
      | error e' => simp [perform_consume_of_error h, h]
      | ok moved => simp [perform_consume_of_ok h, h]
    | matchText t? =>
      have h := never_match (.ofText? t?)
      rw [call_ofText?] at h
      exact iff_of_false h (by simp)
    | stamp name =>
      rw [call, perform]
      split <;> simp
    | peek | startsWith | mark | text => simp [call, perform]

theorem lookup_call {c : Call} (h : c ≠ .operation (.mark name)) :
    (r.call c).1.marks.lookup name = r.marks.lookup name := by
  have marks_consume (n : Int) : (r.perform (.consume n)).1.marks = r.marks := by
    cases h : r.cursor.consume n with
    | error e => rw [perform_consume_of_error h]
    | ok moved => rw [perform_consume_of_ok h]
  have marks_match (p : Pattern) : (r.call (.matchPattern p)).1.marks = r.marks := by
    rw [call]
    split
    · exact marks_consume _
    · rfl
  cases c with
  | matchPattern p => rw [marks_match]
  | operation op =>
    cases op with
    | consume n => rw [call, marks_consume]
    | matchText t? => rw [call, ← call_ofText?, marks_match]
    | mark other =>
      have hne : other ≠ name := by
        rintro rfl
        exact h rfl
      rw [call, perform, List.lookup_cons, beq_false_of_ne (Ne.symm hne)]
    | stamp other =>
      rw [call, perform]
      split <;> rfl
    | peek | startsWith | text => rfl

/-! ## Calls in sequence -/

/-- **Calls in sequence pass the texts that they hand out as consumed**, one behind the other. -/
theorem passes_callAll (r : Reading) (calls : List Call) :
    r.cursor.Passes (r.callAll calls).cursor (r.taken calls) := by
  induction calls generalizing r with
  | nil => exact .refl _
  | cons c calls ih => exact (r.passes_call c).trans (ih (r.call c).1)

theorem lookup_callAll {calls : List Call} (h : .operation (.mark name) ∉ calls) :
    (r.callAll calls).marks.lookup name = r.marks.lookup name := by
  induction calls generalizing r with
  | nil => rfl
  | cons c calls ih =>
    rw [List.mem_cons, not_or] at h
    exact (ih h.2).trans (lookup_call (Ne.symm h.1))

theorem call_stamp_of_mark {later : List Call} (h : .operation (.mark name) ∉ later) :
    let marked := r.callAll (.operation (.mark name) :: later)
    marked.call (.operation (.stamp name)) =
      (marked, .ok (.stamp ⟨r.cursor.position, marked.cursor.position⟩
        (r.taken (.operation (.mark name) :: later)))) := by
  intro marked
  have hmark : marked.marks.lookup name = some r.cursor.position := by
    change ((r.call (.operation (.mark name))).1.callAll later).marks.lookup name = _
    rw [lookup_callAll h, call, perform, List.lookup_cons_self]
  have htext := (r.passes_callAll (.operation (.mark name) :: later)).text_eq
  rw [call, perform, hmark]
  exact congrArg (fun t => (_, Except.ok (Answer.stamp _ t))) htext

/-- **Where a cursor stands is decided by how much it consumed**, whatever was done with it: that
is a beginning of the source, and its line and its column are those of the text consumed. Only
consuming is refused, exactly if the text does not reach so far, and then nothing changes; else as
many characters are consumed as were asked for. What stands between an earlier place, or a mark,
and the cursor is what was consumed since. -/
theorem callAll_places (source : List Char) (calls : List Call) :
    let r := (start source).callAll calls
    (r.cursor.offset ≤ source.length ∧ r.cursor.parsed = source.take r.cursor.offset ∧
      r.cursor.parsed ++ r.cursor.remaining = source) ∧
    (r.cursor.position.line = 1 + r.cursor.parsed.count '\n' ∧
      r.cursor.position.column = 1 + (r.cursor.parsed.rtakeWhile (· != '\n')).length) ∧
    (∀ c e, (r.call c).2 = .error e ↔ ∃ n : Int, c = .operation (.consume n) ∧
      (n < 0 ∨ r.cursor.remaining.length < n) ∧ e = ⟨n, r.cursor.offset⟩) ∧
    (∀ c e, (r.call c).2 = .error e → (r.call c).1 = r) ∧
    (∀ k : Nat, k ≤ r.cursor.remaining.length → r.call (.operation (.consume k)) =
      ({ r with cursor := r.cursor.advance k }, .ok (.text (r.cursor.remaining.take k)))) ∧
    (∀ before later, calls = before ++ later →
      r.cursor.text ((start source).callAll before).cursor.offset r.cursor.offset =
        ((start source).callAll before).taken later) ∧
    (∀ before later name, calls = before ++ .operation (.mark name) :: later →
      .operation (.mark name) ∉ later →
      r.call (.operation (.stamp name)) =
        (r, .ok (.stamp ⟨((start source).callAll before).cursor.position, r.cursor.position⟩
          (((start source).callAll before).taken (.operation (.mark name) :: later))))) := by
  intro r
  have hsource : r.cursor.source = source := (passes_callAll (start source) calls).source_eq
  refine ⟨⟨?_, ?_, hsource⟩, ⟨r.cursor.line_eq, ?_⟩, fun c e => ?_, fun c e h => ?_,
    fun k hk => perform_consume_of_ok (consume_natCast hk), ?_, ?_⟩
  · rw [offset_eq_length, ← hsource, Cursor.source, List.length_append]
    omega
  · rw [← hsource]
    exact r.cursor.parsed_eq_take
  · rw [column_eq, Nat.add_comm, lineBefore]
  · rw [call_eq_error_iff]
    exact exists_congr fun n => and_congr_right' consume_eq_error_iff
  · obtain ⟨n, rfl, hn⟩ := call_eq_error_iff.1 h
    rw [call, perform_consume_of_error hn]
  · rintro before later rfl
    have hpass := passes_callAll ((start source).callAll before) later
    rw [← callAll_append] at hpass
    exact hpass.text_eq
  · rintro before later name rfl hlater
    have hstamp := call_stamp_of_mark (r := (start source).callAll before) hlater
    rwa [← callAll_append] at hstamp

end Reading

/-! ## The contract of the built-in rules -/

theorem Cursor.passes_raw {c : Cursor} {l : Lexeme} (h : l.Covers c.remaining) :
    c.Passes (c.advance l.raw.length) l.raw := by
  have hpass := Passes.advance c l.raw.length
  rwa [h.take_eq] at hpass

theorem Cursor.consume_take_raw {c : Cursor} {l : Lexeme} (h : l.Covers c.remaining) {k : Nat}
    (hk : k ≤ l.raw.length) : c.consume k = .ok (l.raw.take k, c.advance k) := by
  rw [consume_natCast (hk.trans h.2.length_le), ← h.take_eq, List.take_take, Nat.min_eq_left hk]

namespace Lexer

/-- From `lx` to `lx'` the node `n` was taken: the cursor has moved over its raw text, no part of
which it would refuse, and the nodes, the open contexts and the paths are those from before. -/
structure Took (lx lx' : Lexer) (n : Node) : Prop where
  raw_pos : 0 < n.raw.length
  consume_eq : ∀ k ≤ n.raw.length, lx.cursor.consume k = .ok (n.raw.take k, lx.cursor.advance k)
  cursor_eq : lx'.cursor = lx.cursor.advance n.raw.length
  offset_eq : lx'.cursor.offset = lx.cursor.offset + n.raw.length
  raw_eq : n.raw = lx.cursor.text lx.cursor.offset lx'.cursor.offset
  span_eq : n.span = lx'.cursor.spanFrom lx.cursor.position
  nodes_eq : lx'.nodes = lx.nodes
  contexts_eq : lx'.state.contexts = lx.state.contexts
  paths_eq : lx'.state.paths = lx.state.paths
  options_eq : lx'.options = lx.options
  rules_eq : lx'.rules = lx.rules

/-- What a built-in rule can do to a lexer, with the node that it answers. -/
inductive RuleOutcome (kind : Kind) (lx : Lexer) : Lexer → Option Node → Prop
  | passed (h : lx.recognise? kind = none)
      (hdot : kind = .leadingDot →
        ¬ (lx.cursor.parsed = [] ∧ Lexeme.leadsWithDot lx.cursor.remaining = true)) :
      RuleOutcome kind lx lx none
  | noted (hk : kind = .leadingDot) (hstart : lx.cursor.parsed = [])
      (hdot : Lexeme.leadsWithDot lx.cursor.remaining = true) :
      RuleOutcome kind lx
        { lx with
          state := { lx.state with strictOpen := lx.options.strictOpen, addPrefix := true } } none
  | took {lx' : Lexer} {n : Node} (hk : kind ≠ .leadingDot)
      (hl : lx.recognise? kind = some n.toLexeme) (h : lx.Took lx' n) :
      RuleOutcome kind lx lx' (some n)

theorem took_accept (lx : Lexer) {l : Lexeme} (h : l.Covers lx.cursor.remaining) :
    lx.Took (lx.withScan (lx.accept l)) (l.nodeAt lx.cursor.position) where
  raw_pos := h.length_pos
  consume_eq _ := Cursor.consume_take_raw h
  cursor_eq := rfl
  offset_eq := Cursor.offset_advance_raw h
  raw_eq := by
    have htext := (Cursor.passes_raw h).text_eq
    rw [Cursor.text, Cursor.source_advance] at htext
    exact htext.symm
  span_eq := congrArg Node.span (Scan.nodeOf_eq h).symm
  nodes_eq := rfl
  contexts_eq := lx.state.contexts_record l.shape
  paths_eq := lx.state.paths_record l.shape
  options_eq := rfl
  rules_eq := rfl

/-- **A built-in rule is never refused, and does one of three things**: it takes the node that it
recognises and moves over its raw text; or, for a dot and a separator in front of the pattern, it
sets the two flags of a leading dot; or it passes and changes nothing. -/
theorem perform_rule (lx : Lexer) (kind : Kind) : ∃ lx' node?,
    lx.perform (.rule kind) = (lx', .ok (.node node?)) ∧ lx.RuleOutcome kind lx' node? := by
  refine ⟨_, _, rfl, ?_⟩
  have hstart : lx.atStart = true ↔ lx.cursor.parsed = [] := by
    rw [← List.isEmpty_iff, Cursor.parsed, List.isEmpty_reverse, Scan.atStart]
  rcases lx.applyKind_cases kind with ⟨rfl, h⟩ | ⟨l, hk, hrec, hl, h⟩ | ⟨hk, hrec, h⟩
  · rw [h, Scan.noteLeadingDot]
    split
    · next hdot =>
      obtain ⟨hs, hd⟩ := Bool.and_eq_true_iff.1 hdot
      exact .noted rfl (hstart.1 hs) hd
    · next hdot =>
      refine .passed rfl fun _ hn => hdot ?_
      rw [hstart.2 hn.1, hn.2]
      rfl
  · rw [h]
    exact .took hk hrec (lx.took_accept hl)
  · rw [h]
    exact .passed hrec fun hdot => absurd hdot hk

end Lexer

end GlobPattern
