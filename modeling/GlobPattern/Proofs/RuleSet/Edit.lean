import GlobPattern.RuleSet
import Mathlib.Data.List.Nodup
import Mathlib.Data.List.TakeWhile

/-!
# Edits of rule sets

An edit concerns the first rule of a name. The rules with other names stay as they are and in their
order, and names that were distinct stay so whatever becomes of the edit.

An edit that is refused changes nothing, with one exception: a rule that is to be moved is taken out
before its new place is looked for, so if there is no such place the rule is lost.

* `RuleSet.IsFirst`: a rule set cut at the first rule of a name, and what looking up, erasing,
  replacing and inserting do there;
* `RuleSet.Edit.Outcome`: what each edit comes to;
* `RuleSet.others`: the rules with other names;
* `RuleSet.Edit.MovesNowhere`, **`RuleSet.apply_refused`**: what refused edits leave;
* **`RuleSet.nodup_names_apply`**, `RuleSet.applyEach`: distinct names, through any edits;
* `RuleSet.Edit.Done`, **`RuleSet.applyEach_exact`**: what an edit that succeeds does.
-/

namespace GlobPattern.RuleSet

variable {s t rest : RuleSet} {name before : String} {rule old : Rule}
  {front back : List (String × Rule)} {e : Edit} {o : RuleSet × Except UnknownRule Unit}

/-! ## The first rule of a name -/

/-- `rule` is the first rule called `name` and stands between `front` and `back`. -/
structure IsFirst (s : RuleSet) (name : String) (front : List (String × Rule)) (rule : Rule)
    (back : List (String × Rule)) : Prop where
  entries_eq : s.entries = front ++ (name, rule) :: back
  notMem : name ∉ front.map Prod.fst

theorem exists_isFirst (h : name ∈ s.names) :
    ∃ front rule back, s.IsFirst name front rule back := by
  obtain ⟨ahead, behind, hnames, hn⟩ := List.eq_append_cons_of_mem h
  obtain ⟨front, rest, hs, rfl, hrest⟩ := List.map_eq_append_iff.1 hnames
  obtain ⟨⟨_, rule⟩, back, rfl, rfl, -⟩ := List.map_eq_cons_iff.1 hrest
  exact ⟨front, rule, back, hs, hn⟩

theorem notMem_map_fst_iff {entries : List (String × Rule)} :
    name ∉ entries.map Prod.fst ↔ ∀ p ∈ entries, p.1 ≠ name := by
  simp only [List.mem_map, not_exists, not_and, ne_eq]

namespace IsFirst

theorem mem_names (h : s.IsFirst name front old back) : name ∈ s.names := by
  simp [names, h.entries_eq]

theorem ahead_eq (h : s.IsFirst name front old back) : s.ahead name = front := by
  have hfront := notMem_map_fst_iff.1 h.notMem
  rw [ahead, h.entries_eq, List.takeWhile_append_of_pos (by simpa using hfront)]
  simp

theorem onward_eq (h : s.IsFirst name front old back) : s.onward name = (name, old) :: back := by
  have happend := s.ahead_append_onward name
  rw [h.ahead_eq, h.entries_eq] at happend
  exact List.append_cancel_left happend

theorem get?_eq (h : s.IsFirst name front old back) : s.get? name = .ok old := by
  have hfront : front.lookup name = none := List.lookup_eq_none_iff.2 fun p hp => by
    simpa using (notMem_map_fst_iff.1 h.notMem p hp).symm
  rw [get?, h.entries_eq, List.lookup_append, hfront, List.lookup_cons_self]
  rfl

theorem eraseFirst_eq (h : s.IsFirst name front old back) :
    s.eraseFirst name = ⟨front ++ back⟩ := by
  have hfront := notMem_map_fst_iff.1 h.notMem
  rw [eraseFirst, h.entries_eq, List.eraseP_append_right _ (by simpa using hfront),
    List.eraseP_cons_of_pos (by simp)]

theorem replaceFirst_eq (h : s.IsFirst name front old back) (rule : Rule) :
    s.replaceFirst name rule = ⟨front ++ (name, rule) :: back⟩ := by
  rw [replaceFirst, h.ahead_eq, h.onward_eq]
  rfl

theorem insertBefore_eq (h : s.IsFirst before front old back) (name : String) (rule : Rule) :
    s.insertBefore before name rule = ⟨front ++ (name, rule) :: (before, old) :: back⟩ := by
  rw [insertBefore, h.ahead_eq, h.onward_eq]

theorem idxOf_eq (h : s.IsFirst name front old back) : s.names.idxOf name = front.length := by
  rw [names, h.entries_eq, List.map_append, List.idxOf_append_of_notMem h.notMem, List.map_cons,
    List.idxOf_cons_self, List.length_map, Nat.add_zero]

end IsFirst

theorem eraseFirst_of_notMem (h : name ∉ s.names) : s.eraseFirst name = s := by
  rw [eraseFirst, List.eraseP_of_forall_not (by simpa using notMem_map_fst_iff.1 h)]

theorem replaceFirst_of_notMem (h : name ∉ s.names) (rule : Rule) :
    s.replaceFirst name rule = ⟨s.entries ++ [(name, rule)]⟩ := by
  have hall : ∀ p ∈ s.entries, (p.1 != name) = true := by
    simpa using notMem_map_fst_iff.1 h
  rw [replaceFirst, ahead, onward, List.takeWhile_eq_self_iff.2 hall,
    List.dropWhile_eq_nil_iff.2 hall]
  rfl

theorem eraseFirst_eq_self_iff : s.eraseFirst name = s ↔ name ∉ s.names := by
  refine ⟨fun h hn => ?_, eraseFirst_of_notMem⟩
  obtain ⟨front, old, back, hs⟩ := exists_isFirst hn
  have hsize : (s.eraseFirst name).size = s.size := by rw [h]
  rw [hs.eraseFirst_eq, size, size, hs.entries_eq] at hsize
  simp at hsize

/-! ## What edits do -/

theorem set_of_mem (h : before ∈ (s.eraseFirst name).names) (rule : Rule) :
    s.set name rule (some before) = ((s.eraseFirst name).insertBefore before name rule, .ok ()) :=
  if_pos (contains_iff.2 h)

theorem set_of_notMem (h : before ∉ (s.eraseFirst name).names) (rule : Rule) :
    s.set name rule (some before) = (s.eraseFirst name, .error ⟨before⟩) :=
  if_neg (mt contains_iff.1 h)

theorem remove_of_mem (h : name ∈ s.names) : s.remove name = (s.eraseFirst name, .ok ()) :=
  if_pos (contains_iff.2 h)

theorem remove_of_notMem (h : name ∉ s.names) : s.remove name = (s, .error ⟨name⟩) :=
  if_neg (mt contains_iff.1 h)

/-- What edits of `s` come to: the set that they leave, and how they end. -/
inductive Edit.Outcome (s : RuleSet) : Edit → RuleSet × Except UnknownRule Unit → Prop
  | inPlace (name : String) (rule : Rule) :
      Outcome s (.set name rule none) (s.replaceFirst name rule, .ok ())
  | ahead {name before : String} (rule : Rule) (h : before ∈ (s.eraseFirst name).names) :
      Outcome s (.set name rule (some before))
        ((s.eraseFirst name).insertBefore before name rule, .ok ())
  | nowhere {name before : String} (rule : Rule) (h : before ∉ (s.eraseFirst name).names) :
      Outcome s (.set name rule (some before)) (s.eraseFirst name, .error ⟨before⟩)
  | removed {name : String} (h : name ∈ s.names) :
      Outcome s (.remove name) (s.eraseFirst name, .ok ())
  | missing {name : String} (h : name ∉ s.names) : Outcome s (.remove name) (s, .error ⟨name⟩)

theorem outcome_apply (s : RuleSet) (e : Edit) : e.Outcome s (s.apply e) := by
  cases e with
  | set name rule before? =>
    rw [apply]
    cases before? with
    | none => exact .inPlace name rule
    | some before =>
      by_cases h : before ∈ (s.eraseFirst name).names
      · rw [set_of_mem h]
        exact .ahead rule h
      · rw [set_of_notMem h]
        exact .nowhere rule h
  | remove name =>
    rw [apply]
    by_cases h : name ∈ s.names
    · rw [remove_of_mem h]
      exact .removed h
    · rw [remove_of_notMem h]
      exact .missing h

/-! ## The rules with other names -/

/-- The rules with other names, in order. -/
def others (s : RuleSet) (name : String) : List (String × Rule) := s.entries.filter (·.1 != name)

@[simp] theorem others_eraseFirst (s : RuleSet) (name : String) :
    (s.eraseFirst name).others name = s.others name := by
  by_cases h : name ∈ s.names
  · obtain ⟨front, old, back, hs⟩ := exists_isFirst h
    simp [others, hs.eraseFirst_eq, hs.entries_eq]
  · rw [eraseFirst_of_notMem h]

@[simp] theorem others_insertBefore (s : RuleSet) (before name : String) (rule : Rule) :
    (s.insertBefore before name rule).others name = s.others name := by
  have h := congrArg (List.filter (·.1 != name)) (s.ahead_append_onward before)
  rw [List.filter_append] at h
  simpa [others, insertBefore] using h

@[simp] theorem others_replaceFirst (s : RuleSet) (name : String) (rule : Rule) :
    (s.replaceFirst name rule).others name = s.others name := by
  by_cases h : name ∈ s.names
  · obtain ⟨front, old, back, hs⟩ := exists_isFirst h
    simp [others, hs.replaceFirst_eq, hs.entries_eq]
  · simp [others, replaceFirst_of_notMem h]

/-! ## Refused edits -/

/-- An edit that is to move a rule of the set ahead of one that is not among the others, which are
`rest`. -/
def Edit.MovesNowhere (e : Edit) (s rest : RuleSet) : Prop :=
  ∃ name rule before front old back, e = .set name rule (some before) ∧
    s.IsFirst name front old back ∧ rest = ⟨front ++ back⟩ ∧ before ∉ rest.names

theorem movesNowhere_set_iff : (Edit.set name rule (some before)).MovesNowhere s rest ↔
    name ∈ s.names ∧ rest = s.eraseFirst name ∧ before ∉ rest.names := by
  constructor
  · rintro ⟨_, _, _, front, old, back, ⟨⟩, hs, rfl, hb⟩
    exact ⟨hs.mem_names, hs.eraseFirst_eq.symm, hb⟩
  · rintro ⟨hn, rfl, hb⟩
    obtain ⟨front, old, back, hs⟩ := exists_isFirst hn
    exact ⟨name, rule, before, front, old, back, rfl, hs, hs.eraseFirst_eq, hb⟩

/-- **A refused edit changes nothing unless it is to move a rule ahead of one that is not there.**
Every edit of that kind is refused, and the rule that it was to move is lost: the others are left,
in their order. -/
theorem apply_refused (s : RuleSet) (e : Edit) :
    (∀ err, (s.apply e).2 = .error err →
      ((s.apply e).1 = s ↔ ¬ ∃ rest, e.MovesNowhere s rest)) ∧
    ∀ rest, e.MovesNowhere s rest → ∃ err, s.apply e = (rest, .error err) := by
  constructor
  · intro err herr
    have ho := s.outcome_apply e
    generalize s.apply e = o at ho herr ⊢
    cases ho with
    | inPlace => cases herr
    | ahead => cases herr
    | nowhere rule h =>
      rw [eraseFirst_eq_self_iff, not_iff_not]
      constructor
      · intro hn
        exact ⟨_, movesNowhere_set_iff.2 ⟨hn, rfl, h⟩⟩
      · rintro ⟨rest, hrest⟩
        exact (movesNowhere_set_iff.1 hrest).1
    | removed => cases herr
    | missing h =>
      refine iff_of_true rfl ?_
      rintro ⟨rest, _, _, _, _, _, _, ⟨⟩, -⟩
  · intro rest h
    obtain ⟨name, rule, before, front, old, back, rfl, -⟩ := id h
    obtain ⟨-, rfl, hb⟩ := movesNowhere_set_iff.1 h
    exact ⟨_, set_of_notMem hb rule⟩

/-- Moving the rule for plain text ahead of a rule that is not there is refused, and loses it. -/
theorem apply_loses_moved :
    let e := Edit.set "text" (.builtin .text) (some "nope")
    (RuleSet.default.apply e).2 = .error ⟨"nope"⟩ ∧ (RuleSet.default.apply e).1 ≠ RuleSet.default :=
  ⟨rfl, by decide⟩

/-! ## Edits in sequence -/

theorem nodup_names_eraseFirst (h : s.names.Nodup) : (s.eraseFirst name).names.Nodup :=
  h.sublist (List.eraseP_sublist.map _)

theorem notMem_names_eraseFirst (h : s.names.Nodup) : name ∉ (s.eraseFirst name).names := by
  by_cases hn : name ∈ s.names
  · obtain ⟨front, old, back, hs⟩ := exists_isFirst hn
    rw [names, hs.entries_eq, List.map_append, List.map_cons] at h
    rw [hs.eraseFirst_eq, names, List.map_append]
    exact (List.nodup_middle.1 h).notMem
  · rwa [eraseFirst_of_notMem hn]

theorem nodup_names_insertBefore (h : s.names.Nodup) (hn : name ∉ s.names) :
    (s.insertBefore before name rule).names.Nodup := by
  rw [names, insertBefore, List.map_append, List.map_cons, List.nodup_middle, ← List.map_append,
    ahead_append_onward]
  exact List.nodup_cons.2 ⟨hn, h⟩

theorem nodup_names_replaceFirst (h : s.names.Nodup) : (s.replaceFirst name rule).names.Nodup := by
  by_cases hn : name ∈ s.names
  · obtain ⟨front, old, back, hs⟩ := exists_isFirst hn
    rw [names, hs.entries_eq, List.map_append, List.map_cons] at h
    rwa [hs.replaceFirst_eq, names, List.map_append, List.map_cons]
  · rw [replaceFirst_of_notMem hn, names, List.map_append]
    exact List.nodup_append_comm.1 (List.nodup_cons.2 ⟨hn, h⟩)

theorem Edit.Outcome.nodup_names (h : s.names.Nodup) (ho : e.Outcome s o) : o.1.names.Nodup := by
  cases ho with
  | inPlace => exact nodup_names_replaceFirst h
  | ahead => exact nodup_names_insertBefore (nodup_names_eraseFirst h) (notMem_names_eraseFirst h)
  | nowhere => exact nodup_names_eraseFirst h
  | removed => exact nodup_names_eraseFirst h
  | missing => exact h

/-- **An edit keeps names distinct**, whether or not it is refused. -/
theorem nodup_names_apply (h : s.names.Nodup) (e : Edit) : (s.apply e).1.names.Nodup :=
  (s.outcome_apply e).nodup_names h

/-- The set behind edits in sequence, those that are refused included. -/
def applyEach (s : RuleSet) (edits : List Edit) : RuleSet :=
  edits.foldl (fun s e => (s.apply e).1) s

theorem nodup_names_applyEach (h : s.names.Nodup) (edits : List Edit) :
    (s.applyEach edits).names.Nodup := by
  induction edits generalizing s with
  | nil => exact h
  | cons e edits ih => exact ih (nodup_names_apply h e)

/-- What an edit that succeeds makes of `s`. A rule that is set is the one its name stands for, and
the rules with other names are as before. It stands next to the rule that it was to be put ahead of;
or, if there is none, where its name stood before, or last if it is new. A rule that is removed
leaves the others. -/
def Edit.Done (s t : RuleSet) : Edit → Prop
  | set name rule (some before) => t.get? name = .ok rule ∧ t.others name = s.others name ∧
      [name, before] <:+: t.names
  | set name rule none => t.get? name = .ok rule ∧ t.others name = s.others name ∧
      (name ∈ s.names → t.names.idxOf name = s.names.idxOf name) ∧
      (name ∉ s.names → t.entries = s.entries ++ [(name, rule)])
  | remove name => name ∉ t.names ∧ t.entries = s.others name

theorem others_eq_entries (h : name ∉ s.names) : s.others name = s.entries :=
  List.filter_eq_self.2 (by simpa using notMem_map_fst_iff.1 h)

theorem done_set_ahead (h : s.names.Nodup) (hb : before ∈ (s.eraseFirst name).names) :
    (Edit.set name rule (some before)).Done s
      ((s.eraseFirst name).insertBefore before name rule) := by
  obtain ⟨front, old, back, hrest⟩ := exists_isFirst hb
  have hn : name ∉ (s.eraseFirst name).names := notMem_names_eraseFirst h
  rw [names, hrest.entries_eq, List.map_append, List.mem_append, not_or] at hn
  have hinsert := hrest.insertBefore_eq name rule
  refine ⟨?_, by rw [others_insertBefore, others_eraseFirst], ?_⟩
  · have hfirst : IsFirst ((s.eraseFirst name).insertBefore before name rule) name front rule
        ((before, old) :: back) := ⟨by rw [hinsert], hn.1⟩
    exact hfirst.get?_eq
  · exact ⟨front.map Prod.fst, back.map Prod.fst, by rw [hinsert]; simp [names]⟩

theorem done_set_inPlace (s : RuleSet) (name : String) (rule : Rule) :
    (Edit.set name rule none).Done s (s.replaceFirst name rule) := by
  by_cases h : name ∈ s.names
  · obtain ⟨front, old, back, hs⟩ := exists_isFirst h
    have hreplace := hs.replaceFirst_eq rule
    have hfirst : (s.replaceFirst name rule).IsFirst name front rule back :=
      ⟨by rw [hreplace], hs.notMem⟩
    refine ⟨hfirst.get?_eq, others_replaceFirst .., fun _ => ?_, fun hn => absurd h hn⟩
    rw [hfirst.idxOf_eq, hs.idxOf_eq]
  · have hreplace := replaceFirst_of_notMem h rule
    have hfirst : (s.replaceFirst name rule).IsFirst name s.entries rule [] :=
      ⟨by rw [hreplace], h⟩
    exact ⟨hfirst.get?_eq, others_replaceFirst .., fun hn => absurd hn h,
      fun _ => hfirst.entries_eq⟩

theorem done_remove (h : s.names.Nodup) : (Edit.remove name).Done s (s.eraseFirst name) := by
  have hn : name ∉ (s.eraseFirst name).names := notMem_names_eraseFirst h
  exact ⟨hn, by rw [← others_eq_entries hn, others_eraseFirst]⟩

theorem done_of_apply (h : s.names.Nodup) (hok : s.apply e = (t, .ok ())) : e.Done s t := by
  have ho := s.outcome_apply e
  rw [hok] at ho
  cases ho with
  | inPlace name rule => exact s.done_set_inPlace name rule
  | ahead rule hb => exact done_set_ahead h hb
  | removed => exact done_remove h

/-- **Edits are exact.** Behind any edits of a rule set with distinct names, those that are refused
included, names are distinct, and an edit that succeeds does what it is to do and no more. -/
theorem applyEach_exact (s : RuleSet) (h : s.names.Nodup) (edits : List Edit) :
    (s.applyEach edits).names.Nodup ∧
      ∀ e t, (s.applyEach edits).apply e = (t, .ok ()) → e.Done (s.applyEach edits) t := by
  have hnodup := nodup_names_applyEach h edits
  exact ⟨hnodup, fun _ _ hok => done_of_apply hnodup hok⟩

/-- The rule for stars is moved to the front behind an edit that is refused. -/
theorem applyEach_exact_moved :
    let s := RuleSet.default.applyEach [.set "text" (.builtin .text) (some "nope")]
    let e := Edit.set "star" (.builtin .star) (some "prefix")
    s.names.Nodup ∧ e.Done s (s.apply e).1 := by
  have hexact := applyEach_exact RuleSet.default (by decide +kernel)
    [.set "text" (.builtin .text) (some "nope")]
  exact ⟨hexact.1, hexact.2 _ _ rfl⟩

end GlobPattern.RuleSet
