import GlobPattern.Proofs.Layout
import GlobPattern.Proofs.Reading

/-!
# The segments of a pattern

Where a pattern is cut depends on nothing but the text ahead. What was read before, and the
options, only decide how a segment is read: as the negation of the whole pattern or as plain `!`,
as a dot that opens a path segment or as any other, as a globstar or as a star. So reading a pattern
comes in two parts, its segments, and what they are in their place.

* `Lexeme.ahead?`: the lexeme that begins a text on its own;
* `Lexeme.inPlace`, `Lexeme.inPlaces`: lexemes behind other text, read with some options;
  **`Scan.lexeme?_eq`**: the rules see the lexeme ahead, in its place;
* `Segments`: a text with the lexemes that it falls into; **`exists_segments`**;
* `ScanState.recordAll`: what lexemes add to the state;
* `Ast.ofSegments`, **`tokenize_of_segments`**: the nodes of a pattern are its segments in their
  places, whatever the options are;
* **`forall₂_layOut_inPlaces`**: how two readings of the same segments are compared.
-/

namespace GlobPattern

namespace Lexeme

variable {options : Options} {front r : List Char} {l : Lexeme} {ls ms : List Lexeme}

/-- The lexeme that the rules see ahead when nothing stands before it and every option is off. -/
def ahead? (r : List Char) : Option Lexeme := (Scan.start r {}).lexeme?

/-- A run of `!`, in front of the whole pattern or behind other text. -/
def negation (noNegate first : Bool) (raw : List Char) : Lexeme :=
  let odd := raw.length % 2 == 1
  ⟨.not (first && odd && !noNegate), if first && !(odd && noNegate) then [] else raw, raw⟩

/-- A path segment begins behind the text. -/
def beginsSegment (front : List Char) : Bool := front.isEmpty || front.getLast? == some '/'

/-- How a lexeme is read behind `front`. -/
def inPlace (options : Options) (front : List Char) (l : Lexeme) : Lexeme :=
  match l.shape with
  | .not _ => negation options.noNegate front.isEmpty l.raw
  | .dot _ => { l with shape := .dot (beginsSegment front && l.raw == ['.']) }
  | .qmark _ => { l with shape := .qmark front }
  | .globstar _ inside =>
    { l with
      shape := if options.noGlobstar then .star else .globstar front inside
      value := if options.noGlobstar then ['*'] else l.value }
  | _ => l

/-- How lexemes in sequence are read behind `front`. -/
def inPlaces (options : Options) : List Char → List Lexeme → List Lexeme
  | _, [] => []
  | front, l :: ls => l.inPlace options front :: inPlaces options (front ++ l.raw) ls

theorem beginsSegment_of_ne_nil (hf : front ≠ []) :
    beginsSegment front = (front.getLast? == some '/') := by
  rw [beginsSegment, List.isEmpty_eq_false_iff.2 hf, Bool.false_or]

theorem beginsSegment_append (u : List Char) (hf : front ≠ []) :
    beginsSegment (u ++ front) = beginsSegment front := by
  rw [beginsSegment_of_ne_nil hf, beginsSegment_of_ne_nil (List.append_ne_nil_of_right_ne_nil _ hf),
    List.getLast?_append_of_ne_nil _ hf]

theorem negation_of_even {noNegate : Bool} {raw : List Char} (h : raw.length % 2 = 0) :
    negation noNegate true raw = ⟨.not false, [], raw⟩ := by
  simp [negation, h]

theorem negation_of_odd {noNegate : Bool} {raw : List Char} (h : raw.length % 2 = 1) :
    negation noNegate true raw = ⟨.not (!noNegate), if noNegate then raw else [], raw⟩ := by
  cases noNegate <;> simp [negation, h]

@[simp] theorem raw_inPlace : (l.inPlace options front).raw = l.raw := by
  obtain ⟨shape, value, raw⟩ := l
  cases shape <;> rfl

@[simp] theorem inPlaces_nil : inPlaces options front [] = [] := rfl

@[simp] theorem inPlaces_cons : inPlaces options front (l :: ls) =
    l.inPlace options front :: inPlaces options (front ++ l.raw) ls := rfl

theorem inPlaces_append : inPlaces options front (ls ++ ms) =
    inPlaces options front ls ++ inPlaces options (front ++ covered ls) ms := by
  induction ls generalizing front with
  | nil => simp
  | cons l ls ih => simp [ih, List.append_assoc]

theorem exists_of_inPlaces_eq_append {front : List Char} {read later : List Lexeme}
    (h : inPlaces options front ls = read ++ later) :
    ∃ ls₁ ls₂, ls = ls₁ ++ ls₂ ∧ read = inPlaces options front ls₁ ∧
      later = inPlaces options (front ++ covered ls₁) ls₂ := by
  induction read generalizing front ls with
  | nil => exact ⟨[], ls, rfl, rfl, by rw [covered_nil, List.append_nil]; exact h.symm⟩
  | cons m read ih =>
    cases ls with
    | nil => cases h
    | cons l ls =>
      rw [inPlaces_cons, List.cons_append, List.cons.injEq] at h
      obtain ⟨ls₁, ls₂, rfl, rfl, rfl⟩ := ih h.2
      refine ⟨l :: ls₁, ls₂, rfl, ?_, ?_⟩
      · rw [inPlaces_cons, h.1]
      · rw [covered_cons, List.append_assoc]

theorem covered_eq_nil_iff (h : ∀ l ∈ ls, l.raw ≠ []) : covered ls = [] ↔ ls = [] := by
  cases ls with
  | nil => simp
  | cons l ls => simp [h l List.mem_cons_self]

@[simp] theorem covered_inPlaces : covered (inPlaces options front ls) = covered ls := by
  induction ls generalizing front with
  | nil => rfl
  | cons l ls ih => rw [inPlaces_cons, covered_cons, covered_cons, raw_inPlace, ih]

theorem inPlace_eq_self (h : l.kind ∉ [Kind.not, .dot, .qmark, .globstar]) :
    l.inPlace options front = l := by
  obtain ⟨shape, value, raw⟩ := l
  cases shape with
  | not | dot | qmark | globstar => simp [Lexeme.kind, Shape.kind] at h
  | _ => rfl

theorem inPlaces_eq_self (h : ∀ l ∈ ls, l.kind ∉ [Kind.not, .dot, .qmark, .globstar]) :
    inPlaces options front ls = ls := by
  induction ls generalizing front with
  | nil => rfl
  | cons l ls ih =>
    obtain ⟨hl, hls⟩ := List.forall_mem_cons.1 h
    rw [inPlaces_cons, inPlace_eq_self hl, ih hls]

theorem kind_inPlace : (l.inPlace options front).kind =
    if l.kind = .globstar ∧ options.noGlobstar = true then .star else l.kind := by
  obtain ⟨shape, value, raw⟩ := l
  cases shape with
  | globstar => cases h : options.noGlobstar <;> simp [inPlace, kind, Shape.kind, h]
  | _ => rfl

/-! ## The kinds that depend on their place -/

theorem not?_eq : not? options.noNegate front.isEmpty r =
    (not? false true r).map (inPlace options front) := by
  unfold not?
  dsimp only
  split
  · rfl
  · rfl

theorem dot?_eq : dot? (beginsSegment front) r = (dot? true r).map (inPlace options front) := by
  unfold dot? plain?
  dsimp only
  split
  · rfl
  · rfl

theorem qmark?_eq : qmark? front r = (qmark? [] r).map (inPlace options front) := by
  unfold qmark? plain?
  split
  · rfl
  · rfl

theorem globstar?_eq {inside : Enclosure} : globstar? options.noGlobstar front inside r =
    (globstar? false [] inside r).map (inPlace options front) := by
  unfold globstar?
  split
  · dsimp only
    split
    · rw [Option.map_some, inPlace]
      cases options.noGlobstar <;> rfl
    · rfl
  · rfl

end Lexeme

/-! ## What the rules see ahead -/

namespace Scan

variable {s : Scan} {l : Lexeme}

/-- A rule recognises lexemes of its own kind, except that a quote may be an escape and a globstar
may be a star. -/
theorem kind_of_recognise? {kind : Kind} (h : s.recognise? kind = some l) :
    l.kind = kind ∨ (kind = .quoted ∧ l.kind = .escape) ∨ (kind = .globstar ∧ l.kind = .star) := by
  cases kind <;> simp only [recognise?] at h <;> generalize s.cursor.remaining = r at h
  case leadingDot => cases h
  case escape =>
    unfold Lexeme.escape? at h
    split at h
    · cases h
    · split at h <;> cases h <;> exact .inl rfl
  case quoted =>
    unfold Lexeme.quoted? at h
    split at h
    · cases h
    · split at h
      · split at h <;> cases h
        · exact .inl rfl
        · exact .inr (.inl ⟨rfl, rfl⟩)
      · cases h
  case not => unfold Lexeme.not? at h; dsimp only at h; split at h <;> cases h; exact .inl rfl
  case dot => rw [(Lexeme.plain?_eq_some.1 h).2]; exact .inl rfl
  case plus => unfold Lexeme.plus? at h; split at h <;> cases h; exact .inl rfl
  case qmark => rw [(Lexeme.plain?_eq_some.1 h).2]; exact .inl rfl
  case globstar =>
    unfold Lexeme.globstar? at h
    split at h
    · dsimp only at h
      split at h <;> cases h
      split
      · exact .inr (.inr ⟨rfl, rfl⟩)
      · exact .inl rfl
    · cases h
  case star =>
    unfold Lexeme.star? at h
    split at h
    · cases h
    · rw [(Lexeme.plain?_eq_some.1 h).2]; exact .inl rfl
  case slash => unfold Lexeme.slash? at h; split at h <;> cases h; exact .inl rfl
  case backslash =>
    unfold Lexeme.backslash? at h
    dsimp only at h
    split at h <;> cases h
    exact .inl rfl
  case square =>
    unfold Lexeme.square? at h
    split at h
    · split at h <;> cases h
      exact .inl rfl
    · cases h
  case bracket =>
    unfold Lexeme.bracket? at h
    split at h
    · next r =>
      cases h
      cases hn : Lexeme.negatedClass? r with
      | some m =>
        unfold Lexeme.negatedClass? at hn
        split at hn
        · split at hn
          · obtain ⟨b, _, rfl⟩ := Option.map_eq_some_iff.1 hn
            exact .inl rfl
          · cases hn
        · cases hn
      | none =>
        cases hb : Lexeme.classBody? r with
        | some b => exact .inl rfl
        | none => exact .inl rfl
    · cases h
  case text =>
    unfold Lexeme.text? at h
    split at h
    · cases h
    · rw [(Lexeme.plain?_eq_some.1 h).2]; exact .inl rfl

theorem parsed_isEmpty (s : Scan) : s.cursor.parsed.isEmpty = s.atStart := List.isEmpty_reverse

theorem beginsSegment_parsed (s : Scan) :
    Lexeme.beginsSegment s.cursor.parsed = s.atSegmentStart := by
  rw [Lexeme.beginsSegment, parsed_isEmpty, Cursor.parsed, List.getLast?_reverse, atSegmentStart]

theorem inBracket_of_contexts (hc : s.state.contexts = []) : s.inBracket = false := by
  rw [inBracket, ScanState.isInside, hc]
  rfl

theorem enclosure_of_contexts (hc : s.state.contexts = []) : s.state.enclosure = {} := by
  rw [ScanState.enclosure, ScanState.isInside, ScanState.isInside, hc]
  rfl

theorem map_inPlace_recognise? {options : Options} {front : List Char} {kind : Kind}
    (h : kind ∉ [Kind.not, .dot, .qmark, .globstar]) :
    (s.recognise? kind).map (Lexeme.inPlace options front) = s.recognise? kind := by
  cases hl : s.recognise? kind with
  | none => rfl
  | some l =>
    rw [Option.map_some, Lexeme.inPlace_eq_self]
    rcases kind_of_recognise? hl with hk | ⟨-, hk⟩ | ⟨rfl, -⟩
    · rwa [hk]
    · rw [hk]; decide
    · exact absurd (by decide) h

/-- **Outside of contexts a rule recognises what it sees in the text alone, in its place.** -/
theorem recognise?_eq (hc : s.state.contexts = []) (kind : Kind) :
    s.recognise? kind = ((Scan.start s.cursor.remaining {}).recognise? kind).map
      (Lexeme.inPlace s.options s.cursor.parsed) := by
  have hb := inBracket_of_contexts hc
  by_cases hk : kind ∈ [Kind.not, .dot, .qmark, .globstar]
  · simp only [List.mem_cons, List.not_mem_nil, or_false] at hk
    rcases hk with rfl | rfl | rfl | rfl
    · rw [recognise?, ← parsed_isEmpty]
      exact Lexeme.not?_eq
    · rw [recognise?, ← beginsSegment_parsed]
      exact Lexeme.dot?_eq
    · exact Lexeme.qmark?_eq
    · rw [recognise?, enclosure_of_contexts hc]
      exact Lexeme.globstar?_eq
  · rw [map_inPlace_recognise? hk]
    cases kind <;> simp only [recognise?, hb] <;> first | rfl | exact absurd (by decide) hk

/-- **Outside of contexts the rules see the lexeme that begins the text ahead, in its place.** -/
theorem lexeme?_eq (hc : s.state.contexts = []) :
    s.lexeme? = (Lexeme.ahead? s.cursor.remaining).map
      (Lexeme.inPlace s.options s.cursor.parsed) := by
  rw [Lexeme.ahead?, lexeme?, lexeme?, List.map_findSome?]
  congr 1
  funext kind
  exact recognise?_eq hc kind

end Scan

/-! ## Segments -/

/-- The lexemes that a text falls into, each the one that begins what is left of it. -/
inductive Segments : List Char → List Lexeme → Prop
  | nil : Segments [] []
  | cons {r : List Char} {l : Lexeme} {ls : List Lexeme} (h : Lexeme.ahead? r = some l)
      (rest : Segments (r.drop l.raw.length) ls) : Segments r (l :: ls)

namespace Lexeme

theorem covers_of_ahead? (h : ahead? r = some l) : l.Covers r := Scan.covers_of_lexeme? h

theorem exists_ahead? (hr : r ≠ []) : ∃ l, ahead? r = some l := Scan.exists_lexeme? rfl hr

end Lexeme

/-- **Every text falls into segments.** -/
theorem exists_segments (r : List Char) : ∃ ls, Segments r ls := by
  by_cases hr : r = []
  · exact ⟨[], hr ▸ .nil⟩
  · obtain ⟨l, hl⟩ := Lexeme.exists_ahead? hr
    have hpos := (Lexeme.covers_of_ahead? hl).length_pos
    have hlen := List.length_pos_iff.2 hr
    have hlt : (r.drop l.raw.length).length < r.length := by
      rw [List.length_drop]
      omega
    obtain ⟨ls, hs⟩ := exists_segments (r.drop l.raw.length)
    exact ⟨l :: ls, .cons hl hs⟩
termination_by r.length

namespace Segments

variable {r : List Char} {l : Lexeme} {ls ms : List Lexeme}

theorem cons_iff : Segments r (l :: ls) ↔
    Lexeme.ahead? r = some l ∧ Segments (r.drop l.raw.length) ls := by
  constructor
  · rintro (_ | ⟨hl, rest⟩)
    exact ⟨hl, rest⟩
  · rintro ⟨hl, rest⟩
    exact .cons hl rest

theorem exists_cons_of_ahead? (h : Segments r ls) (hl : Lexeme.ahead? r = some l) :
    ∃ ms, ls = l :: ms ∧ Segments (r.drop l.raw.length) ms := by
  cases h with
  | nil => cases hl
  | @cons _ m ms hm rest =>
    rw [hl, Option.some.injEq] at hm
    exact ⟨ms, hm ▸ rfl, hm ▸ rest⟩

theorem covered_eq (h : Segments r ls) : Lexeme.covered ls = r := by
  induction h with
  | nil => rfl
  | cons hl _ ih => rw [Lexeme.covered_cons, ih, (Lexeme.covers_of_ahead? hl).append_drop]

theorem raw_ne_nil (h : Segments r ls) : ∀ l ∈ ls, l.raw ≠ [] := by
  induction h with
  | nil => simp
  | cons hl _ ih =>
    intro m hm
    rcases List.mem_cons.1 hm with rfl | hm
    · exact (Lexeme.covers_of_ahead? hl).1
    · exact ih m hm

theorem of_append (h : Segments r (ls ++ ms)) : Segments (Lexeme.covered ms) ms := by
  have hr := h.covered_eq
  induction ls generalizing r with
  | nil =>
    rw [List.nil_append] at h hr
    rwa [hr]
  | cons l ls ih =>
    have rest := (cons_iff.1 h).2
    exact ih rest rest.covered_eq

end Segments

/-! ## Reading the segments -/

/-- What lexemes in sequence add to the state. -/
def ScanState.recordAll (s : ScanState) (ls : List Lexeme) : ScanState :=
  ls.foldl (fun s l => s.record l.shape) s

/-- The state in front of a pattern, where a leading dot has been noted. -/
def ScanState.opening (options : Options) (pattern : List Char) : ScanState :=
  if Lexeme.leadsWithDot pattern then ({} : ScanState).noteLeadingDot options else {}

theorem ScanState.opening_eq (options : Options) (pattern : List Char) :
    ScanState.opening options pattern =
      { strictOpen := Lexeme.leadsWithDot pattern && options.strictOpen
        addPrefix := Lexeme.leadsWithDot pattern } := by
  cases h : Lexeme.leadsWithDot pattern <;> rw [opening, h] <;> rfl

/-- **Two readings of the same segments are related node by node**, if the nodes of each segment are
and if what is known about the two places carries over from segment to segment. -/
theorem forall₂_layOut_inPlaces {o p : Options} {R : Node → Node → Prop}
    {I : List Char → Position → List Char → Position → Prop}
    (hnode : ∀ l front q front' q', I front q front' q' →
      R ((Lexeme.inPlace o front l).nodeAt q) ((Lexeme.inPlace p front' l).nodeAt q'))
    (hnext : ∀ raw front q front' q', I front q front' q' →
      I (front ++ raw) (q.after raw) (front' ++ raw) (q'.after raw))
    (ls : List Lexeme) {front front' : List Char} {q q' : Position} (h : I front q front' q') :
    List.Forall₂ R (layOut q (Lexeme.inPlaces o front ls))
      (layOut q' (Lexeme.inPlaces p front' ls)) := by
  induction ls generalizing front front' q q' with
  | nil => exact .nil
  | cons l ls ih =>
    rw [Lexeme.inPlaces_cons, Lexeme.inPlaces_cons, layOut, layOut, Lexeme.raw_inPlace,
      Lexeme.raw_inPlace]
    exact .cons (hnode l _ _ _ _ h) (ih (hnext l.raw _ _ _ _ h))

/-- A pattern that was read, with its segments in their places. -/
def Ast.ofSegments (options : Options) (pattern : List Char) (ls : List Lexeme) : Ast :=
  let read := Lexeme.inPlaces options [] ls
  { pattern
    nodes := layOut Position.start read
    wrap := if read.any (·.shape.wraps) then some Wrap.negation else none
    state := (ScanState.opening options pattern).recordAll read }

namespace Scan

variable {s t : Scan} {ls : List Lexeme}

theorem noteLeadingDot_of_parsed (h : s.cursor.parsed ≠ []) : s.noteLeadingDot = s := by
  rw [noteLeadingDot, if_neg]
  rw [← parsed_isEmpty, List.isEmpty_eq_false_iff.2 h]
  simp

theorem noteLeadingDot_behind (h : s.lexeme? = some l) :
    (s.behind l).noteLeadingDot = s.behind l := by
  apply noteLeadingDot_of_parsed
  rw [cursor_behind, Cursor.parsed_advance, (covers_of_lexeme? h).take_eq]
  exact List.append_ne_nil_of_right_ne_nil _ (covers_of_lexeme? h).1

namespace Reads

theorem state_eq (h : Reads s ls t) :
    t.noteLeadingDot.state = s.noteLeadingDot.state.recordAll ls := by
  induction h with
  | nil s => rfl
  | cons hl _ ih =>
    rw [ih, noteLeadingDot_behind hl]
    rfl

theorem wrap_eq (h : Reads s ls t) :
    t.wrap = if ls.any (·.shape.wraps) then some Wrap.negation else s.wrap := by
  induction h with
  | nil s => rfl
  | @cons s t l ls hl _ ih =>
    rw [ih, List.any_cons]
    have hw : (s.behind l).wrap = if l.shape.wraps then some Wrap.negation else s.wrap := by
      rw [behind, accept, noteLeadingDot]
      split <;> rfl
    rw [hw]
    cases l.shape.wraps <;> simp

/-- **Segments are read in their places, one behind the other.** -/
theorem of_segments {r : List Char} (h : Segments r ls) (hr : s.cursor.remaining = r)
    (hc : s.state.contexts = []) :
    ∃ t, Reads s (Lexeme.inPlaces s.options s.cursor.parsed ls) t ∧ t.cursor.remaining = [] := by
  induction h generalizing s with
  | nil => exact ⟨s, .nil s, hr⟩
  | @cons r l ls hl _ ih =>
    subst hr
    have hs : s.lexeme? = some (l.inPlace s.options s.cursor.parsed) := by
      rw [lexeme?_eq hc, hl, Option.map_some]
    have hp : (s.behind (l.inPlace s.options s.cursor.parsed)).cursor.parsed =
        s.cursor.parsed ++ l.raw := by
      rw [cursor_behind, Cursor.parsed_advance, (covers_of_lexeme? hs).take_eq, Lexeme.raw_inPlace]
    obtain ⟨t, ht, hend⟩ := ih (s := s.behind (l.inPlace s.options s.cursor.parsed))
      (by rw [cursor_behind, Cursor.remaining_advance, Lexeme.raw_inPlace])
      (by rw [contexts_behind, hc])
    rw [options_behind, hp] at ht
    exact ⟨t, .cons hs ht, hend⟩

end Reads

end Scan

/-- **The nodes of a pattern are its segments in their places, whatever the options are.** -/
theorem tokenize_of_segments {pattern : List Char} {ls : List Lexeme} (h : Segments pattern ls)
    (options : Options) :
    tokenize .unchanged options pattern = .ok (.ofSegments options pattern ls) := by
  obtain ⟨t, ht, hend⟩ := Scan.Reads.of_segments (s := Scan.start pattern options) h rfl rfl
  have hstate : t.state = (ScanState.opening options pattern).recordAll
      (Lexeme.inPlaces options [] ls) := by
    have hs := ht.state_eq
    rw [Scan.noteLeadingDot_eq_self (by rw [hend]; simp)] at hs
    rw [hs, ScanState.opening, Scan.noteLeadingDot]
    congr 1
    change (if Lexeme.leadsWithDot pattern then _ else _ : Scan).state = _
    split <;> rfl
  have hwrap := ht.wrap_eq
  refine (RuleSet.tokenize_ofKinds Kind.admissible_all ht hend).trans ?_
  rw [hstate, hwrap]
  rfl

end GlobPattern
