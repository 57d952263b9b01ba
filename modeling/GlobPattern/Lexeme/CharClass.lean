import GlobPattern.Lexeme

/-!
# Character classes

A class is a stretch between brackets, possibly with a sigil `!` or `^` in front that negates it.
One character between brackets makes a lexeme of its own.

A class that nothing closes still takes text: it reaches up to the last character of the pattern
that is none of `*`, `+` and `?`, which then closes it. A class never begins with a closing
bracket, except in the form `[]-`.

* `Lexeme.square?`, `Lexeme.bracket?`;
* `Lexeme.ClassBody`, `Lexeme.classBody?`: what stands in a class and what closes it;
* `Lexeme.collapse`: the first run of several backslashes shortened to two;
* `square?_covers`, `bracket?_covers`: a lexeme covers a beginning of the text ahead.
-/

namespace GlobPattern.Lexeme

/-- One character between brackets, other than a sigil and the backslash. -/
def square? (inBracket : Bool) : List Char → Option Lexeme
  | '[' :: c :: ']' :: _ =>
    if inBracket || c == '!' || c == '^' || c == '\\' then none
    else some ⟨.square, [c], ['[', c, ']']⟩
  | _ => none

/-- The first run of two or more backslashes shortened to two. -/
def collapse : List Char → List Char
  | '\\' :: '\\' :: r => '\\' :: '\\' :: afterRun '\\' r
  | c :: r => c :: collapse r
  | [] => []

/-- The characters that never end an unclosed class. -/
def isRepeater (c : Char) : Bool := c == '*' || c == '+' || c == '?'

/-- The signs that negate a class. -/
def isSigil (c : Char) : Bool := c == '!' || c == '^'

/-- What stands in a class, and the text that closes it. -/
structure ClassBody where
  body : List Char
  close : List Char
  deriving DecidableEq, Repr

/-- A class without a closing bracket: of the text up to its last character that is no repeater,
that character closes the class and at least one stands in front of it. -/
def openBody? (s : List Char) : Option ClassBody :=
  match s.reverse.dropWhile isRepeater with
  | c :: d :: before => some ⟨(d :: before).reverse, [c]⟩
  | _ => none

/-- What closes a class that begins with `]-`: a bracket, else all characters up to a repeater. -/
def hyphenClose? : List Char → Option (List Char)
  | ']' :: _ => some [']']
  | r =>
    let close := r.takeWhile (!isRepeater ·)
    if close = [] then none else some close

/-- How the class goes on behind its opening bracket and its sigil, if it is one. -/
def classBody? : List Char → Option ClassBody
  | ']' :: '-' :: r => (hyphenClose? r).map (⟨[']', '-'], ·⟩)
  | ']' :: _ => none
  | s => if ']' ∈ s then some ⟨s.takeWhile (· != ']'), [']']⟩ else openBody? s

/-- The class of a given opening (bracket and sigil), body and close. -/
def ofClass (opening : List Char) (negated : Bool) (b : ClassBody) : Lexeme :=
  let inner := collapse b.body
  let raw := opening ++ b.body ++ b.close
  ⟨.bracket negated inner b.close, if inner.length < b.body.length then collapse raw else raw, raw⟩

/-- The class that opens in front of `s` with a sigil. -/
def negatedClass? : List Char → Option Lexeme
  | c :: s => if isSigil c then (classBody? s).map (ofClass ['[', c] true) else none
  | [] => none

/-- A class, read with its sigil if that can be, else without, else a lone bracket. -/
def bracket? : List Char → Option Lexeme
  | '[' :: s =>
    some ((negatedClass? s).getD (((classBody? s).map (ofClass ['['] false)).getD
      (plain (.bracket false [] []) ['['])))
  | _ => none

/-! ## Laws -/

theorem square?_covers {b : Bool} {r : List Char} {l : Lexeme} (h : square? b r = some l) :
    l.Covers r := by
  unfold square? at h
  split at h
  · split at h <;> cases h
    exact ⟨by simp, by simp⟩
  · cases h

theorem takeWhile_bne_append_isPrefix {c : Char} {s : List Char} (h : c ∈ s) :
    s.takeWhile (· != c) ++ [c] <+: s := by
  induction s with
  | nil => simp at h
  | cons d s ih =>
    by_cases hd : d = c
    · simp [hd]
    · have hm : c ∈ s := by simpa [Ne.symm hd] using h
      simpa [hd] using ih hm

theorem openBody?_isPrefix {s : List Char} {b : ClassBody} (h : openBody? s = some b) :
    b.body ++ b.close <+: s := by
  unfold openBody? at h
  split at h
  · next c d before hr =>
    cases h
    have := List.dropWhile_suffix (p := isRepeater) (l := s.reverse)
    rw [hr] at this
    simpa using List.reverse_prefix.2 this
  · cases h

theorem hyphenClose?_isPrefix {s close : List Char} (h : hyphenClose? s = some close) :
    close <+: s := by
  unfold hyphenClose? at h
  split at h
  · cases h; simp
  · dsimp only at h
    split at h <;> cases h
    exact List.takeWhile_prefix _

theorem classBody?_isPrefix {s : List Char} {b : ClassBody} (h : classBody? s = some b) :
    b.body ++ b.close <+: s := by
  unfold classBody? at h
  split at h
  · obtain ⟨close, hc, rfl⟩ := Option.map_eq_some_iff.1 h
    simpa using hyphenClose?_isPrefix hc
  · cases h
  · split at h
    · next hm => cases h; exact takeWhile_bne_append_isPrefix hm
    · exact openBody?_isPrefix h

theorem ofClass_covers {opening s : List Char} {negated : Bool} {b : ClassBody}
    (hn : opening ≠ []) (h : b.body ++ b.close <+: s) :
    (ofClass opening negated b).Covers (opening ++ s) := by
  refine ⟨by simp [ofClass, hn], ?_⟩
  simpa [ofClass, List.append_assoc] using h

theorem bracket?_covers {r : List Char} {l : Lexeme} (h : bracket? r = some l) : l.Covers r := by
  unfold bracket? at h
  split at h
  · next s =>
    cases h
    cases hn : negatedClass? s with
    | some l =>
      unfold negatedClass? at hn
      split at hn
      · split at hn
        · obtain ⟨b, hb, rfl⟩ := Option.map_eq_some_iff.1 hn
          exact ofClass_covers (by simp) (classBody?_isPrefix hb)
        · cases hn
      · cases hn
    | none =>
      cases hb : classBody? s with
      | some b => exact ofClass_covers (by simp) (classBody?_isPrefix hb)
      | none => exact ⟨by simp [plain], by simp [plain]⟩
  · cases h

end GlobPattern.Lexeme
