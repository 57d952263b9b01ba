import GlobPattern.Toml.Document

/-!
# The room that TOML readers need

A reader either stops for want of room, or more room makes no difference to it. So what is read on
one stack is read on every one that has the room, and a text that is malformed on one is a document
on none.

* `Toml.Settled`: what a reader gives on some stack, against what it gives where there is always
  room;
* `Toml.readersSettle`: the readers of values; **`Toml.settled_document`**;
* `Toml.IsDocument`: a text that is read where there is always room; `Toml.not_isDocument`.
-/

namespace GlobPattern.Toml

variable {α β : Type} {stack : Stack}

/-! ## Results that more room does not change -/

/-- The first result is for want of room, or the second is the same. -/
def Settled (r r' : Except Fault α) : Prop := r = .error .tooDeep ∨ r' = r

namespace Settled

variable {r r' : Except Fault α} {f f' : α → Except Fault β}

theorem refl (r : Except Fault α) : Settled r r := .inr rfl

theorem bind (h : Settled r r') (hf : ∀ a, Settled (f a) (f' a)) :
    Settled (r >>= f) (r' >>= f') := by
  obtain rfl | rfl := h
  · exact .inl rfl
  · cases r' with
    | error e => exact .refl _
    | ok a => exact hf a

theorem map (h : Settled r r') (g : α → β) : Settled (r.map g) (r'.map g) := by
  obtain rfl | rfl := h
  · exact .inl rfl
  · exact .refl _

theorem bind_right (r : Except Fault α) (hf : ∀ a, Settled (f a) (f' a)) :
    Settled (r >>= f) (r >>= f') :=
  (refl r).bind hf

end Settled

theorem settled_enter (room : Bool) : Settled (enter room) (enter true) := by
  cases room
  · exact .inl rfl
  · exact .refl _

/-! ## Values -/

/-- More room changes no result of the readers of values that have as much fuel. -/
structure ReadersSettle (stack : Stack) (fuel : Nat) : Prop where
  value : ∀ n s, Settled (value stack fuel n s) (value .unlimited fuel n s)
  items : ∀ n done s, Settled (items stack fuel n done s) (items .unlimited fuel n done s)
  fields : ∀ n done s, Settled (fields stack fuel n done s) (fields .unlimited fuel n done s)
  pair : ∀ n s, Settled (pair stack fuel n s) (pair .unlimited fuel n s)

namespace ReadersSettle

variable {fuel : Nat} (ih : ReadersSettle stack fuel)
include ih

theorem succ_value (n : Nat) (s : List Char) :
    Settled (Toml.value stack (fuel + 1) n s) (Toml.value .unlimited (fuel + 1) n s) := by
  unfold Toml.value
  refine (settled_enter _).bind fun _ => ?_
  split
  · exact .refl _
  · exact .refl _
  · exact .refl _
  · exact .refl _
  · exact .refl _
  · exact .refl _
  · exact .bind_right _ fun r => ih.items _ [] r
  · split
    · exact .refl _
    · exact ih.fields _ [] _
  · exact .refl _

theorem succ_items (n : Nat) (done : List Value) (s : List Char) :
    Settled (Toml.items stack (fuel + 1) n done s) (Toml.items .unlimited (fuel + 1) n done s) := by
  unfold Toml.items
  split
  · exact .refl _
  · refine (ih.value n s).bind ?_
    rintro ⟨v, r⟩
    refine .bind_right _ fun r' => ?_
    split
    · exact .refl _
    · exact .bind_right _ fun r'' => ih.items n _ r''
    · exact .refl _

theorem succ_fields (n : Nat) (done : Entries) (s : List Char) :
    Settled (Toml.fields stack (fuel + 1) n done s)
      (Toml.fields .unlimited (fuel + 1) n done s) := by
  unfold Toml.fields
  refine (ih.pair n s).bind ?_
  rintro ⟨key, v, r⟩
  refine .bind_right _ fun done' => ?_
  split
  · exact .refl _
  · exact ih.fields n done' _
  · exact .refl _

theorem succ_pair (n : Nat) (s : List Char) :
    Settled (Toml.pair stack (fuel + 1) n s) (Toml.pair .unlimited (fuel + 1) n s) := by
  unfold Toml.pair
  refine (settled_enter _).bind fun _ => .bind_right _ ?_
  rintro ⟨key, r⟩
  dsimp only
  split
  · exact (ih.value _ _).bind fun _ => .refl _
  · exact .refl _

end ReadersSettle

/-- By induction on the fuel: every reader hands one unit less to the readers it calls. -/
theorem readersSettle (stack : Stack) (fuel : Nat) : ReadersSettle stack fuel := by
  induction fuel with
  | zero =>
    constructor
    · intro n s
      rw [value, value]
      exact .refl _
    · intro n done s
      rw [items, items]
      exact .refl _
    · intro n done s
      rw [fields, fields]
      exact .refl _
    · intro n s
      rw [pair, pair]
      exact .refl _
  | succ fuel ih =>
    exact ⟨ih.succ_value, ih.succ_items, ih.succ_fields, ih.succ_pair⟩

/-! ## Documents -/

theorem settled_statement (stack : Stack) (s : List Char) :
    Settled (statement stack s) (statement .unlimited s) := by
  unfold statement
  split
  · exact .refl _
  · exact .refl _
  · exact ((readersSettle stack _).pair 0 s).map _

theorem settled_statements (stack : Stack) (fuel : Nat) (doc : Document) (s : List Char) :
    Settled (statements stack fuel doc s) (statements .unlimited fuel doc s) := by
  induction fuel generalizing doc s with
  | zero => exact .refl _
  | succ fuel ih =>
    unfold statements
    split
    · exact .refl _
    · exact ih doc _
    · exact .bind_right _ fun r => ih doc r
    · refine (settled_statement stack _).bind ?_
      rintro ⟨st, r⟩
      exact .bind_right _ fun doc' => .bind_right _ fun r' => ih doc' r'

/-- More room makes no difference to a document that is not refused for want of it. -/
theorem settled_document (stack : Stack) (text : List Char) :
    Settled (document stack text) (document .unlimited text) :=
  (settled_statements stack _ _ _).map _

/-- The text is read where there is always room. -/
def IsDocument (text : List Char) : Prop := ∃ entries, document .unlimited text = .ok entries

theorem isDocument_of_ok {text : List Char} {entries : Entries}
    (h : document stack text = .ok entries) : IsDocument text := by
  obtain hs | hs := settled_document stack text
  · rw [h] at hs
    cases hs
  · exact ⟨entries, hs.trans h⟩

theorem not_isDocument {text : List Char} (h : document stack text = .error .malformed) :
    ¬ IsDocument text := by
  rintro ⟨entries, hread⟩
  obtain hs | hs := settled_document stack text
  · rw [h] at hs
    cases hs
  · rw [h, hread] at hs
    cases hs

end GlobPattern.Toml
