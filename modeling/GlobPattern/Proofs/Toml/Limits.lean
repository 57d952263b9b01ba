import GlobPattern.Toml.Document

/-!
# Texts within the limits

Every reader of a document goes forward in the text, and each level of nesting costs it an opening
bracket or brace. So a text with no more of them than the stack has room for, and with few digits,
is refused for no other reason than that it is malformed, whatever else stands in it.

* `Toml.Forward`, `Toml.Meets`: readers that go forward, and readers that refuse only what is
  malformed;
* `Toml.Stack.Holds`: the room that a number of openings takes; `Toml.Fits`: what is left of a text
  is within the limits;
* `Toml.readersMeet`: the readers of values on a text that fits;
* **`Toml.meets_document`**: a document that fits is read, or malformed.
-/

namespace GlobPattern.Toml

variable {α β : Type} {s t : List Char}

/-! ## Readers that go forward -/

/-- What the reader leaves stands at the end of the text. -/
def Forward (s : List Char) (read? : Option (α × List Char)) : Prop :=
  ∀ a r, read? = some (a, r) → r <:+ s

namespace Forward

variable {read? : Option (α × List Char)}

theorem none : Forward s (Option.none : Option (α × List Char)) := nofun

theorem some {a : α} (h : t <:+ s) : Forward s (Option.some (a, t)) := by
  rintro _ _ ⟨⟩
  exact h

theorem mono (h : Forward t read?) (hs : t <:+ s) : Forward s read? :=
  fun a r hr => (h a r hr).trans hs

theorem map (h : Forward s read?) {f : α × List Char → β × List Char}
    (hf : ∀ x, (f x).2 <:+ x.2 := by exact fun _ => List.suffix_rfl) :
    Forward s (read?.map f) := by
  rintro _ _ hr
  obtain ⟨⟨a, r⟩, hread, hx⟩ := Option.map_eq_some_iff.1 hr
  exact (congrArg Prod.snd hx ▸ hf (a, r)).trans (h a r hread)

theorem bind (h : Forward s read?) {f : α × List Char → Option (β × List Char)}
    (hf : ∀ a r, Forward r (f (a, r))) : Forward s (read? >>= f) := by
  rintro b t hr
  obtain ⟨⟨a, r⟩, hread, hfr⟩ := Option.bind_eq_some_iff.1 hr
  exact (hf a r b t hfr).trans (h a r hread)

end Forward

theorem suffix_of_cons_suffix {c : Char} (h : c :: t <:+ s) : t <:+ s :=
  (List.suffix_cons c t).trans h

theorem skipSpace_suffix (s : List Char) : skipSpace s <:+ s := List.dropWhile_suffix _

theorem suffix_of_skipSpace_eq {c : Char} (h : skipSpace s = c :: t) : t <:+ s :=
  suffix_of_cons_suffix (h ▸ skipSpace_suffix s)

namespace Quotation

theorem forward_coded? (k : Nat) (s : List Char) : Forward s (coded? k s) := by
  unfold coded?
  dsimp only
  split
  · exact .some (List.drop_suffix _ _)
  · exact .none

theorem continued?_suffix {r : List Char} (h : continued? s = some r) : r <:+ s := by
  unfold continued? at h
  split at h
  · cases h
    exact List.nil_suffix
  · next r' hr =>
    cases h
    exact (List.dropWhile_suffix _).trans (suffix_of_skipSpace_eq hr)
  · cases h

theorem forward_escape? (long : Bool) (s : List Char) : Forward s (escape? long s) := by
  unfold escape?
  split
  case h_8 => exact (forward_coded? 4 _).mono (List.suffix_cons _ _)
  case h_9 => exact (forward_coded? 8 _).mono (List.suffix_cons _ _)
  case h_10 =>
    split
    · rintro _ _ hr
      obtain ⟨r, hc, ⟨⟩⟩ := Option.map_eq_some_iff.1 hr
      exact continued?_suffix hc
    · exact .none
  case h_11 => exact .none
  all_goals exact .some (List.suffix_cons _ _)

theorem forward_basicRest? (long : Bool) (fuel : Nat) (s : List Char) :
    Forward s (basicRest? long fuel s) := by
  induction fuel generalizing s with
  | zero => exact .none
  | succ fuel ih =>
    unfold basicRest?
    split
    · exact .none
    · split
      · split
        · exact .some (List.suffix_append ['"', '"', '"'] _)
        · exact ((ih _).mono (List.suffix_cons _ _)).map
      · exact .some (List.suffix_cons _ _)
    · exact ((forward_escape? long _).bind fun cs r => (ih r).map).mono (List.suffix_cons _ _)
    · split
      · exact .none
      · exact ((ih _).mono (List.suffix_cons _ _)).map

theorem forward_literalRest? (long : Bool) (s : List Char) :
    Forward s (literalRest? long s) := by
  fun_induction literalRest? long s with
  | case1 => exact .none
  | case2 => exact .some (List.suffix_append ['\'', '\'', '\''] _)
  | case3 r _ _ ih => exact (ih.mono (List.suffix_cons _ _)).map
  | case4 => exact .some (List.suffix_cons _ _)
  | case5 => exact .none
  | case6 c r _ _ ih => exact (ih.mono (List.suffix_cons _ _)).map

theorem dropFeed_suffix (s : List Char) : dropFeed s <:+ s := by
  unfold dropFeed
  split
  · exact List.suffix_cons _ _
  · exact List.suffix_rfl

theorem withQuotes_suffix (quote : Char) (x : List Char × List Char) :
    (withQuotes quote x).2 <:+ x.2 := by
  unfold withQuotes
  split
  · split
    · split
      · exact List.suffix_append [_, _] _
      · exact List.suffix_cons _ _
    · exact List.suffix_rfl
  · split
    · exact List.nil_suffix
    · exact List.suffix_rfl
  · exact List.suffix_rfl

theorem forward_basic? (s : List Char) : Forward s (basic? s) := forward_basicRest? false _ s

theorem forward_literal? (s : List Char) : Forward s (literal? s) := forward_literalRest? false s

theorem forward_longBasic? (s : List Char) : Forward s (longBasic? s) :=
  ((forward_basicRest? true _ _).mono (dropFeed_suffix s)).map (withQuotes_suffix _)

theorem forward_longLiteral? (s : List Char) : Forward s (longLiteral? s) :=
  ((forward_literalRest? true _).mono (dropFeed_suffix s)).map (withQuotes_suffix _)

end Quotation

theorem forward_keyPart? (s : List Char) : Forward s (keyPart? s) := by
  unfold keyPart?
  split
  · exact ((Quotation.forward_literal? _).mono (List.suffix_cons _ _)).map
  · exact ((Quotation.forward_basic? _).mono (List.suffix_cons _ _)).map
  · split
    · exact .none
    · exact .some (List.dropWhile_suffix _)

theorem forward_keyRest? (fuel : Nat) (s : List Char) : Forward s (keyRest? fuel s) := by
  induction fuel generalizing s with
  | zero => exact .none
  | succ fuel ih =>
    unfold keyRest?
    refine (forward_keyPart? s).bind fun part r => ?_
    dsimp only
    split
    · next r' h =>
      exact ((ih _).mono ((skipSpace_suffix r').trans (suffix_of_skipSpace_eq h))).map
    · exact .some (skipSpace_suffix r)

theorem forward_key? (s : List Char) : Forward s (key? s) := forward_keyRest? _ s

/-! ## Numbers -/

namespace Scalar

theorem moreDigits_isPrefix (isDigit : Char → Bool) (s : List Char) :
    moreDigits isDigit s <+: s := by
  fun_induction moreDigits isDigit s with
  | case1 c r _ ih => exact (List.prefix_cons_inj _).2 ((List.prefix_cons_inj _).2 ih)
  | case2 => exact List.nil_prefix
  | case3 c r _ _ ih => exact (List.prefix_cons_inj _).2 ih
  | case4 => exact List.nil_prefix
  | case5 => exact List.nil_prefix

theorem digits_isPrefix (isDigit : Char → Bool) (s : List Char) : digits isDigit s <+: s := by
  unfold digits
  split
  · split
    · exact (List.prefix_cons_inj _).2 (moreDigits_isPrefix _ _)
    · exact List.nil_prefix
  · exact List.nil_prefix

theorem sign_isPrefix (s : List Char) : sign s <+: s := by
  unfold sign
  split
  · exact List.prefix_append ['+'] _
  · exact List.prefix_append ['-'] _
  · exact List.nil_prefix

theorem whole_isPrefix (s : List Char) : whole s <+: s := by
  unfold whole
  split
  · exact List.prefix_append ['0'] _
  · exact digits_isPrefix _ _

theorem spelling_isPrefix {n : Number} (h : number? s = some n) (hw : n.whole = true) :
    n.spelling <+: s := by
  unfold number? at h
  split at h
  · cases h
    cases hw
  · unfold decimal? at h
    dsimp only at h
    split at h
    · cases h
    · cases h
      obtain ⟨hf, he⟩ := Bool.and_eq_true_iff.1 hw
      rw [List.isEmpty_iff] at hf he
      dsimp only
      rw [he, hf, List.append_nil, List.append_nil]
      calc sign s ++ whole (s.drop (sign s).length)
          <+: sign s ++ s.drop (sign s).length :=
            (List.prefix_append_right_inj _).2 (whole_isPrefix _)
        _ = s := List.prefix_iff_eq_append.1 (sign_isPrefix s)

end Scalar

/-! ## Limits -/

/-- The brackets and braces of a text that may open a value. -/
def openings (s : List Char) : Nat := s.countP fun c => c == '[' || c == '\x7b'

/-- The stack has room for values that lie as many levels deep: each level takes three readers at
most, and one more reads the entry that holds them all. -/
structure Stack.Holds (stack : Stack) (levels : Nat) : Prop where
  value : ∀ n ≤ 3 * levels + 1, ∀ t, stack.value n t = true
  entry : ∀ n ≤ 3 * levels, ∀ t, stack.entry n t = true

/-- While as many readers wait, the stack has room for all values that may open in the text, and no
number of the text has too many digits. -/
structure Fits (stack : Stack) (waiting : Nat) (s : List Char) : Prop where
  value : ∀ n ≤ waiting + 3 * openings s, ∀ t, stack.value n t = true
  entry : ∀ n < waiting + 3 * openings s, ∀ t, stack.entry n t = true
  digits : s.countP Char.isDigit ≤ maxDigits

namespace Fits

variable {stack : Stack} {waiting waiting' : Nat}

theorem of_holds (h : stack.Holds (openings s)) (hd : s.countP Char.isDigit ≤ maxDigits) :
    Fits stack 1 s where
  value n hn := h.value n (by omega)
  entry n hn := h.entry n (by omega)
  digits := hd

theorem of_sublist (h : Fits stack waiting s) (hs : t.Sublist s) : Fits stack waiting t := by
  have hopen : openings t ≤ openings s := hs.countP_le
  exact ⟨fun n hn => h.value n (by omega), fun n hn => h.entry n (by omega),
    Nat.le_trans hs.countP_le h.digits⟩

theorem mono (h : Fits stack waiting s) (hs : t <:+ s) : Fits stack waiting t :=
  h.of_sublist hs.sublist

theorem weaken (h : Fits stack waiting s) (hw : waiting' ≤ waiting) : Fits stack waiting' s :=
  ⟨fun n hn => h.value n (by omega), fun n hn => h.entry n (by omega), h.digits⟩

/-- Behind an opening three more readers may wait. -/
theorem opened {c : Char} (h : Fits stack waiting (c :: s)) (hc : c = '[' ∨ c = '\x7b') :
    Fits stack (waiting + 3) s := by
  have hopen : openings (c :: s) = openings s + 1 := by
    rw [openings, List.countP_cons_of_pos (by simpa using hc), openings]
  exact ⟨fun n hn => h.value n (by omega), fun n hn => h.entry n (by omega),
    (h.mono (List.suffix_cons _ _)).digits⟩

theorem value_self (h : Fits stack waiting s) (t : List Char) : stack.value waiting t = true :=
  h.value waiting (Nat.le_add_right _ _) t

theorem entry_self (h : Fits stack (waiting + 1) s) (t : List Char) :
    stack.entry waiting t = true :=
  h.entry waiting (by omega) t

end Fits

/-- The reader finds what meets a condition, or else that the text is malformed. -/
def Meets (P : α → Prop) : Except Fault α → Prop
  | .ok a => P a
  | .error e => e = .malformed

namespace Meets

variable {P : α → Prop} {Q : β → Prop} {r : Except Fault α}

theorem mono {P' : α → Prop} (h : Meets P r) (hP : ∀ a, P a → P' a) : Meets P' r := by
  cases r with
  | error e => exact h
  | ok a => exact hP a h

theorem bind (h : Meets P r) {f : α → Except Fault β} (hf : ∀ a, P a → Meets Q (f a)) :
    Meets Q (r >>= f) := by
  cases r with
  | error e => exact h
  | ok a => exact hf a h

theorem map (h : Meets P r) {f : α → β} (hf : ∀ a, P a → Q (f a)) : Meets Q (r.map f) := by
  cases r with
  | error e => exact h
  | ok a => exact hf a h

theorem behind {c : Char} {r : Except Fault (List Char)} (h : Meets (· <:+ s) r) :
    Meets (· <:+ c :: s) r :=
  h.mono fun _ ht => ht.trans (List.suffix_cons _ _)

end Meets

theorem meets_enter {room : Bool} (h : room = true) : Meets (fun _ => True) (enter room) := by
  rw [h]
  trivial

theorem meets_orMalformed {P : α → Prop} {a? : Option α} (h : ∀ a, a? = some a → P a) :
    Meets P (orMalformed a?) := by
  cases a? with
  | none => rfl
  | some a => exact h a rfl

theorem meets_orMalformed_true (a? : Option α) : Meets (fun _ => True) (orMalformed a?) :=
  meets_orMalformed fun _ _ => trivial

theorem Forward.meets {read? : Option (α × List Char)} (h : Forward s read?) :
    Meets (fun x => x.2 <:+ s) (orMalformed read?) :=
  meets_orMalformed fun x hx => h x.1 x.2 hx

/-! ## Values -/

theorem meets_scalar (hdigits : s.countP Char.isDigit ≤ maxDigits) :
    Meets (fun x => x.2 <:+ s) (scalar s) := by
  unfold scalar
  split
  · split
    · exact List.drop_suffix _ _
    · rfl
  · split
    · exact List.drop_suffix _ _
    · split
      · next n hn =>
        have hfew : ¬ (n.whole = true ∧ maxDigits < n.digitCount) := by
          rintro ⟨hw, hlt⟩
          have hle := (Scalar.spelling_isPrefix hn hw).sublist.countP_le (p := Char.isDigit)
          exact absurd (Nat.le_trans hle hdigits) (Nat.not_le.2 hlt)
        rw [if_neg hfew]
        exact List.drop_suffix _ _
      · split
        · exact List.drop_suffix _ _
        · rfl

theorem meets_skipComment (s : List Char) : Meets (· <:+ s) (skipComment s) := by
  fun_induction skipComment s with
  | case1 => exact List.nil_suffix
  | case2 => exact List.suffix_rfl
  | case3 => rfl
  | case4 c r _ _ ih => exact ih.behind

theorem meets_skipBlank (inComment : Bool) (s : List Char) :
    Meets (· <:+ s) (skipBlank inComment s) := by
  fun_induction skipBlank inComment s with
  | case1 => exact List.nil_suffix
  | case2 _ _ ih => exact ih.behind
  | case3 => rfl
  | case4 _ _ _ _ ih => exact ih.behind
  | case5 _ _ _ _ ih => exact ih.behind
  | case6 _ _ _ _ _ _ _ ih => exact ih.behind
  | case7 => exact List.suffix_rfl

theorem meets_string {read? : Option (List Char × List Char)} (hr : Forward t read?)
    (ht : t <:+ s) : Meets (fun x => x.2 <:+ s) (string read?) :=
  (hr.mono ht).meets.map fun _ h => h

/-- The readers of values that have as much fuel go forward, and on a text that fits they refuse
only what is malformed. -/
structure ReadersMeet (stack : Stack) (fuel : Nat) : Prop where
  value : ∀ {n : Nat} {s : List Char}, Fits stack n s →
    Meets (fun x => x.2 <:+ s) (value stack fuel n s)
  items : ∀ {n : Nat} {s : List Char} (done : List Value), Fits stack n s →
    Meets (fun x => x.2 <:+ s) (items stack fuel n done s)
  fields : ∀ {n : Nat} {s : List Char} (done : Entries), Fits stack (n + 1) s →
    Meets (fun x => x.2 <:+ s) (fields stack fuel n done s)
  pair : ∀ {n : Nat} {s : List Char}, Fits stack (n + 1) s →
    Meets (fun x => x.2.2 <:+ s) (pair stack fuel n s)

namespace ReadersMeet

variable {stack : Stack} {fuel n : Nat} (ih : ReadersMeet stack fuel)
include ih

theorem succ_value (h : Fits stack n s) :
    Meets (fun x => x.2 <:+ s) (Toml.value stack (fuel + 1) n s) := by
  unfold Toml.value
  refine (meets_enter (h.value_self s)).bind fun _ _ => ?_
  split
  · exact meets_string (Quotation.forward_longBasic? _) (List.suffix_append ['"', '"', '"'] _)
  · exact meets_string (Quotation.forward_basic? _) (List.suffix_cons _ _)
  · exact meets_string (Quotation.forward_longLiteral? _)
      (List.suffix_append ['\'', '\'', '\''] _)
  · exact meets_string (Quotation.forward_literal? _) (List.suffix_cons _ _)
  · exact List.suffix_append ['t', 'r', 'u', 'e'] _
  · exact List.suffix_append ['f', 'a', 'l', 's', 'e'] _
  · next r =>
    have hopened := (h.opened (.inl rfl)).weaken (Nat.le_succ (n + 2))
    refine (meets_skipBlank false r).bind fun r' hr' => ?_
    have hs := hr'.trans (List.suffix_cons '[' r)
    exact (ih.items [] (hopened.mono hr')).mono fun _ hx => hx.trans hs
  · next r =>
    have hopened := h.opened (.inr rfl)
    split
    · next rest heq => exact (suffix_of_skipSpace_eq heq).trans (List.suffix_cons _ _)
    · have hr := skipSpace_suffix r
      exact (ih.fields [] (hopened.mono hr)).mono fun _ hx =>
        (hx.trans hr).trans (List.suffix_cons _ _)
  · exact meets_scalar h.digits

theorem succ_items (done : List Value) (h : Fits stack n s) :
    Meets (fun x => x.2 <:+ s) (Toml.items stack (fuel + 1) n done s) := by
  unfold Toml.items
  split
  · exact List.suffix_cons _ _
  · refine (ih.value h).bind ?_
    rintro ⟨v, r⟩ hr
    refine (meets_skipBlank false r).bind fun r' hr' => ?_
    have hs : r' <:+ s := hr'.trans hr
    split
    · exact suffix_of_cons_suffix hs
    · next r'' =>
      refine (meets_skipBlank false r'').bind fun t ht => ?_
      have hts : t <:+ s := ht.trans (suffix_of_cons_suffix hs)
      exact (ih.items _ (h.mono hts)).mono fun _ hx => hx.trans hts
    · rfl

theorem succ_fields (done : Entries) (h : Fits stack (n + 1) s) :
    Meets (fun x => x.2 <:+ s) (Toml.fields stack (fuel + 1) n done s) := by
  unfold Toml.fields
  refine (ih.pair h).bind ?_
  rintro ⟨key, v, r⟩ hr
  refine (meets_orMalformed_true _).bind fun done' _ => ?_
  split
  · next rest heq => exact (suffix_of_skipSpace_eq heq).trans hr
  · next r' heq =>
    have hts : skipSpace r' <:+ s :=
      (skipSpace_suffix r').trans ((suffix_of_skipSpace_eq heq).trans hr)
    exact (ih.fields done' (h.mono hts)).mono fun _ hx => hx.trans hts
  · rfl

theorem succ_pair (h : Fits stack (n + 1) s) :
    Meets (fun x => x.2.2 <:+ s) (Toml.pair stack (fuel + 1) n s) := by
  unfold Toml.pair
  refine (meets_enter (h.entry_self s)).bind fun _ _ => (forward_key? s).meets.bind ?_
  rintro ⟨key, r⟩ hr
  dsimp only
  split
  · next r' =>
    have hs : skipSpace r' <:+ s := (skipSpace_suffix r').trans (suffix_of_cons_suffix hr)
    exact (ih.value (h.mono hs)).bind fun _ hx => hx.trans hs
  · rfl

end ReadersMeet

/-- By induction on the fuel: what a reader leaves for the next one still fits. -/
theorem readersMeet (stack : Stack) (fuel : Nat) : ReadersMeet stack fuel := by
  induction fuel with
  | zero =>
    constructor
    · intro n s _
      rw [value]
      rfl
    · intro n s done _
      rw [items]
      rfl
    · intro n s done _
      rw [fields]
      rfl
    · intro n s _
      rw [pair]
      rfl
  | succ fuel ih =>
    exact ⟨ih.succ_value, ih.succ_items, ih.succ_fields, ih.succ_pair⟩

/-! ## Documents -/

theorem meets_headerKey (close s : List Char) :
    Meets (fun x => x.2 <:+ s) (headerKey close s) := by
  refine ((forward_key? _).mono (skipSpace_suffix s)).meets.bind ?_
  rintro ⟨key, r⟩ hr
  dsimp only
  split
  · exact (List.drop_suffix _ _).trans hr
  · rfl

theorem meets_statement {stack : Stack} (h : Fits stack 1 s) :
    Meets (fun x => x.2 <:+ s) (statement stack s) := by
  unfold statement
  split
  · next r => exact (meets_headerKey _ r).map fun _ hx =>
      hx.trans (List.suffix_append ['[', '['] r)
  · next r _ => exact (meets_headerKey _ r).map fun _ hx => hx.trans (List.suffix_cons _ _)
  · exact ((readersMeet stack _).pair h).map fun _ hx => hx

theorem meets_apply (d : Document) (st : Statement) : Meets (fun _ => True) (d.apply st) := by
  cases st <;> exact (meets_orMalformed_true _).map fun _ _ => trivial

theorem meets_lineBreak (r : List Char) :
    r <:+ s → Meets (· <:+ s) (match r with
      | [] => .ok []
      | '\n' :: rest => .ok rest
      | _ => .error .malformed) := by
  intro hr
  split
  · exact List.nil_suffix
  · exact suffix_of_cons_suffix hr
  · rfl

theorem meets_lineEnd (s : List Char) : Meets (· <:+ s) (lineEnd s) := by
  unfold lineEnd
  dsimp only
  split
  · next r heq =>
    exact (meets_skipComment r).bind fun t ht =>
      meets_lineBreak t (ht.trans (suffix_of_skipSpace_eq heq))
  · exact meets_lineBreak _ (skipSpace_suffix s)

theorem meets_statements {stack : Stack} (fuel : Nat) (d : Document) (h : Fits stack 1 s) :
    Meets (fun _ => True) (statements stack fuel d s) := by
  induction fuel generalizing d s with
  | zero => rfl
  | succ fuel ih =>
    have hs := skipSpace_suffix s
    unfold statements
    split
    · trivial
    · next r heq => exact ih d (h.mono (suffix_of_skipSpace_eq heq))
    · next r heq =>
      rw [heq] at hs
      exact (meets_lineEnd _).bind fun t ht => ih d (h.mono (ht.trans hs))
    · refine (meets_statement (h.mono hs)).bind ?_
      rintro ⟨st, r⟩ hr
      exact (meets_apply d st).bind fun d' _ => (meets_lineEnd r).bind fun t ht =>
        ih d' (h.mono ((ht.trans hr).trans hs))

theorem joinFeeds_sublist (s : List Char) : (joinFeeds s).Sublist s := by
  fun_induction joinFeeds s with
  | case1 r ih => exact (ih.cons_cons _).cons _
  | case2 c r _ ih => exact ih.cons_cons _
  | case3 => exact List.Sublist.refl _

theorem meets_document {stack : Stack} (h : Fits stack 1 s) :
    Meets (fun _ => True) (document stack s) := by
  have hjoin : Fits stack 1 (joinFeeds s) := h.of_sublist (joinFeeds_sublist s)
  exact (meets_statements _ _ hjoin).map fun _ _ => trivial

end GlobPattern.Toml
