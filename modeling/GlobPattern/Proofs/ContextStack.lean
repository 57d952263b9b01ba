import GlobPattern.Ast
import Mathlib.Data.List.Basic

/-!
# The stack of named contexts

Contexts need not be closed in the order in which they were opened. Closing a name takes the
innermost context of that name out of the stack, wherever it is, and leaves all others in their
order. So the contexts of one name can be counted without regard to any other: as many are open as
there were at first and as were opened since, less those that were closed; and a closing is refused
exactly when none is left.

* `ContextCall`, `ScanState.call`, `ContextCall.Outcome`, **`ScanState.outcome_call`**: opening and
  closing, and the three things that can come of it;
* `ScanState.callAll`, `ScanState.journal`, `ScanState.closings`: calls in sequence, those that are
  refused included, with their answers;
* **`ScanState.count_callAll`**: the balance of a name;
* **`ScanState.journal_own`**: the calls on a name are answered as if there were no others;
* **`ScanState.callAll_counts`**: what any calls say about a name.
-/

namespace GlobPattern

/-- A context is to be opened, or to be closed. -/
inductive ContextCall where
  | push (name : String)
  | pop (name : String)
  deriving DecidableEq, Repr

/-- The name that a call is about. -/
def ContextCall.name : ContextCall → String
  | push name => name
  | pop name => name

namespace ScanState

/-- Carry out a call. A call that is refused leaves the state as it is. -/
def call (s : ScanState) : ContextCall → ScanState × Except ContextNotOpen Unit
  | .push name => (s.pushContext name, .ok ())
  | .pop name =>
    match s.popContext name with
    | .ok t => (t, .ok ())
    | .error e => (s, .error e)

/-- The state behind calls in sequence, those that are refused included. -/
def callAll (s : ScanState) (calls : List ContextCall) : ScanState :=
  calls.foldl (fun s c => (s.call c).1) s

/-- Calls in sequence, each with its answer. -/
def journal (s : ScanState) : List ContextCall → List (ContextCall × Except ContextNotOpen Unit)
  | [] => []
  | c :: calls => (c, (s.call c).2) :: (s.call c).1.journal calls

/-- How many contexts called `name` the calls close. -/
def closings (s : ScanState) (name : String) (calls : List ContextCall) : Nat :=
  (s.journal calls).countP fun e => e.1 == .pop name && e.2.isOk

end ScanState

/-! ## Single calls -/

/-- What can come of a call: a context is opened, the innermost one of a name is closed, or there
is none of that name. -/
inductive ContextCall.Outcome (s : ScanState) :
    ContextCall → ScanState × Except ContextNotOpen Unit → Prop
  | opened (name : String) : Outcome s (.push name) (s.pushContext name, .ok ())
  | closed {name : String} {front back : List String} (h : s.contexts = front ++ name :: back)
      (innermost : name ∉ back) :
      Outcome s (.pop name) ({ s with contexts := front ++ back }, .ok ())
  | refused {name : String} (h : name ∉ s.contexts) : Outcome s (.pop name) (s, .error ⟨name⟩)

namespace ScanState

variable {s t : ScanState} {name : String} {c : ContextCall}

theorem isInside_iff : s.isInside name = true ↔ name ∈ s.contexts := List.contains_iff_mem

theorem call_pop_of_notMem (h : name ∉ s.contexts) :
    s.call (.pop name) = (s, .error ⟨name⟩) := by
  rw [call, popContext_eq_error_iff.2 ⟨h, rfl⟩]

theorem call_pop_of_mem (h : name ∈ s.contexts) :
    ∃ front back, s.contexts = front ++ name :: back ∧ name ∉ back ∧
      s.call (.pop name) = ({ s with contexts := front ++ back }, .ok ()) := by
  obtain ⟨inner, outer, hn, hcut, herase⟩ := List.exists_erase_eq (List.mem_reverse.2 h)
  refine ⟨outer.reverse, inner.reverse, ?_, by rwa [List.mem_reverse], ?_⟩
  · rw [← s.contexts.reverse_reverse, hcut]
    simp
  · rw [call, popContext, if_pos h, herase, List.reverse_append]

/-- **A call opens a context, closes the innermost one of its name, or is refused** because there
is none. -/
theorem outcome_call (s : ScanState) (c : ContextCall) : c.Outcome s (s.call c) := by
  cases c with
  | push name => exact .opened name
  | pop name =>
    by_cases h : name ∈ s.contexts
    · obtain ⟨front, back, hcut, hback, hcall⟩ := call_pop_of_mem h
      rw [hcall]
      exact .closed hcut hback
    · rw [call_pop_of_notMem h]
      exact .refused h

theorem call_eq (s : ScanState) (c : ContextCall) :
    ∃ contexts, (s.call c).1 = { s with contexts } := by
  have ho := s.outcome_call c
  generalize s.call c = o at ho ⊢
  cases ho with
  | opened => exact ⟨_, rfl⟩
  | closed => exact ⟨_, rfl⟩
  | refused => exact ⟨_, rfl⟩

theorem count_call (s : ScanState) (name : String) (c : ContextCall) :
    (s.call c).1.contexts.count name + s.closings name [c] =
      s.contexts.count name + [c].count (.push name) := by
  have ho := s.outcome_call c
  rw [closings, journal, journal]
  generalize s.call c = o at ho ⊢
  cases ho with
  | opened other =>
    by_cases h : other = name <;> simp [pushContext, h]
  | @closed other front back hcut _ =>
    rw [hcut]
    by_cases h : other = name
    · subst h
      simp [Except.isOk, Except.toBool]
      omega
    · simp [h]
  | refused => simp [Except.isOk, Except.toBool]

theorem count_call_of_ne (h : c.name ≠ name) :
    (s.call c).1.contexts.count name = s.contexts.count name := by
  have hbalance := s.count_call name c
  have hpush : c ≠ .push name := by rintro rfl; exact h rfl
  have hpop : c ≠ .pop name := by rintro rfl; exact h rfl
  simpa [closings, journal, hpush, hpop] using hbalance

/-- How a call is answered, and how many contexts of its name there are then, depends on nothing but
how many there were. -/
theorem call_congr (h : s.contexts.count c.name = t.contexts.count c.name) :
    (s.call c).2 = (t.call c).2 ∧
      (s.call c).1.contexts.count c.name = (t.call c).1.contexts.count c.name := by
  have hs := s.outcome_call c
  have ht := t.outcome_call c
  have hmem : c.name ∈ s.contexts ↔ c.name ∈ t.contexts := by
    rw [← List.count_pos_iff, ← List.count_pos_iff, h]
  have hanswer : (s.call c).2 = (t.call c).2 := by
    generalize s.call c = o at hs ⊢
    generalize t.call c = p at ht ⊢
    cases hs with
    | opened => cases ht; rfl
    | closed hcut =>
      cases ht with
      | closed => rfl
      | refused hn => exact absurd (hmem.1 (by simp [ContextCall.name, hcut])) hn
    | refused hn =>
      cases ht with
      | closed hcut => exact absurd (hmem.2 (by simp [ContextCall.name, hcut])) hn
      | refused => rfl
  refine ⟨hanswer, ?_⟩
  -- the two balances differ in nothing else
  have bs := s.count_call c.name c
  have bt := t.count_call c.name c
  rw [closings, journal, journal, hanswer] at bs
  rw [closings, journal, journal] at bt
  omega

/-! ## Calls in sequence -/

theorem callAll_eq (s : ScanState) (calls : List ContextCall) :
    ∃ contexts, s.callAll calls = { s with contexts } := by
  induction calls generalizing s with
  | nil => exact ⟨s.contexts, rfl⟩
  | cons c calls ih =>
    obtain ⟨contexts, hc⟩ := s.call_eq c
    obtain ⟨contexts', hcalls⟩ := ih (s.call c).1
    rw [hc] at hcalls
    exact ⟨contexts', by rw [callAll, List.foldl_cons, hc]; exact hcalls⟩

/-- **The balance of a name.** The contexts of the name that are open and those that were closed are
together the ones that were open at first and those that were opened. -/
theorem count_callAll (s : ScanState) (name : String) (calls : List ContextCall) :
    (s.callAll calls).contexts.count name + s.closings name calls =
      s.contexts.count name + calls.count (.push name) := by
  induction calls generalizing s with
  | nil => rfl
  | cons c calls ih =>
    have hc := s.count_call name c
    have hcalls := ih (s.call c).1
    have hclosings : s.closings name (c :: calls) =
        s.closings name [c] + (s.call c).1.closings name calls := by
      simp only [closings, journal, List.countP_cons, List.countP_nil]
      omega
    have hpushes : (c :: calls).count (.push name) =
        [c].count (.push name) + calls.count (.push name) :=
      (List.count_append : ([c] ++ calls).count _ = _)
    change ((s.call c).1.callAll calls).contexts.count name + _ = _
    rw [hclosings, hpushes]
    omega

/-- **The calls on a name are answered as if there were no others**, and leave as many contexts of
that name open. -/
theorem journal_own (name : String) (calls : List ContextCall)
    (h : s.contexts.count name = t.contexts.count name) :
    (s.journal calls).filter (·.1.name == name) = t.journal (calls.filter (·.name == name)) ∧
      (s.callAll calls).contexts.count name =
        (t.callAll (calls.filter (·.name == name))).contexts.count name := by
  induction calls generalizing s t with
  | nil => exact ⟨rfl, h⟩
  | cons c calls ih =>
    by_cases hc : c.name = name
    · subst hc
      obtain ⟨hanswer, hcount⟩ := call_congr h
      obtain ⟨hjournal, hcalls⟩ := ih hcount
      simp only [journal, List.filter_cons, beq_self_eq_true, if_true, hanswer, hjournal]
      exact ⟨trivial, hcalls⟩
    · have hb : (c.name == name) = false := by simpa using hc
      obtain ⟨hjournal, hcalls⟩ := ih ((count_call_of_ne hc).trans h)
      simp only [journal, List.filter_cons, hb, Bool.false_eq_true, if_false]
      exact ⟨hjournal, hcalls⟩

/-- **What any calls say about a name is a matter of counting.** The calls on the name are answered
as if there were no others. Behind all of them the name is open exactly if fewer of its contexts
were closed than there were and were opened; closing it is refused exactly if as many were, and then
nothing changes; else it takes the innermost context of the name out of the stack. Nothing but the
stack ever changes. -/
theorem callAll_counts (s : ScanState) (calls : List ContextCall) (name : String) :
    let t := s.callAll calls
    let own := calls.filter (·.name == name)
    let opened := s.contexts.count name + calls.count (.push name)
    let closed := s.closings name calls
    t = { s with contexts := t.contexts } ∧
    (s.journal calls).filter (·.1.name == name) = s.journal own ∧
    t.isInside name = (s.callAll own).isInside name ∧
    (t.isInside name = true ↔ closed < opened) ∧
    ((∃ e, (t.call (.pop name)).2 = .error e) ↔ closed = opened) ∧
    (closed = opened → t.call (.pop name) = (t, .error ⟨name⟩)) ∧
    (closed < opened → ∃ front back, t.contexts = front ++ name :: back ∧ name ∉ back ∧
      t.call (.pop name) = ({ t with contexts := front ++ back }, .ok ())) := by
  intro t own opened closed
  have hbalance : t.contexts.count name + closed = opened := s.count_callAll name calls
  have hmem : name ∈ t.contexts ↔ closed < opened := by
    rw [← List.count_pos_iff]
    omega
  obtain ⟨hjournal, hcount⟩ := journal_own (s := s) name calls rfl
  refine ⟨?_, hjournal, ?_, isInside_iff.trans hmem, ?_, ?_, ?_⟩
  · obtain ⟨contexts, ht⟩ := s.callAll_eq calls
    simp only [t, ht]
  · rw [Bool.eq_iff_iff, isInside_iff, isInside_iff, ← List.count_pos_iff, ← List.count_pos_iff,
      hcount]
  · by_cases h : name ∈ t.contexts
    · obtain ⟨front, back, -, -, hcall⟩ := call_pop_of_mem h
      have := hmem.1 h
      rw [hcall]
      exact iff_of_false (by simp) (by omega)
    · have := mt hmem.2 h
      rw [call_pop_of_notMem h]
      exact iff_of_true ⟨_, rfl⟩ (by omega)
  · intro heq
    exact call_pop_of_notMem fun h => by have := hmem.1 h; omega
  · intro hlt
    exact call_pop_of_mem (hmem.2 hlt)

end ScanState

end GlobPattern
