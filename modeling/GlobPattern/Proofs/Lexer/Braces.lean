import GlobPattern.Proofs.Lexer.Outcome
import GlobPattern.Proofs.RuleSet.Edit
import GlobPattern.Proofs.Segmentation

/-!
# Globstars in braces

With a rule that opens a context at `{` and one that closes it at `}`, a globstar records whether
it stands in a group. The two rules are asked only where a node begins. In the middle of a run of
plain text a brace is text like any other, since no rule can add to the characters that such a run
stops at. So what counts are the braces that nodes of plain text begin with.

* `RuleSet.ReadsBraces`: both rules stand ahead of plain text; `RuleSet.Extension.braces`,
  `RuleSet.exists_readsBraces`: the default rules with both of them;
* `Scan.PassesOver`, **`Lexer.exists_of_tryRules_ok`**: the rule that ends an attempt;
* `ScanState.Braced`, **`Lexer.braced_of_step`**: what a step does to the open contexts;
* `textsAt`, `plainText`: the nodes of plain text that begin with a character, and all their text;
* `Node.ToldBehind`, `Lexer.CountsBraces`, `Lexer.countsBraces_of_step`: nodes and open contexts
  that agree on the braces;
* **`RuleSet.toldBehind_of_tokenize`**, **`globstar_inside_braces`**: what globstars record.
-/

namespace GlobPattern

/-- A rule that opens a group at `{`. -/
def Literal.openBrace : Literal := { text := ['{'], push? := some "brace" }

/-- A rule that closes a group at `}`. -/
def Literal.closeBrace : Literal := { text := ['}'], pop? := some "brace" }

/-- A rule for braces, or a built-in rule other than the one for plain text. -/
inductive Rule.AheadOfText : Rule → Prop
  | openBrace : AheadOfText (.literal .openBrace)
  | closeBrace : AheadOfText (.literal .closeBrace)
  | builtin {kind : Kind} (h : kind ≠ .text) : AheadOfText (.builtin kind)

/-- The rule for plain text comes last, and ahead of it, among other built-in rules, both rules
for braces. -/
def RuleSet.ReadsBraces (rules : RuleSet) : Prop :=
  ∃ front, rules.entries.map Prod.snd = front ++ [.builtin .text] ∧
    .literal .openBrace ∈ front ∧ .literal .closeBrace ∈ front ∧ ∀ rule ∈ front, rule.AheadOfText

namespace RuleSet

/-- Put both rules for braces ahead of the rule for plain text, under given names. -/
def Extension.braces (openName closeName : String) : Extension :=
  .ofEdits [.set openName (.literal .openBrace) (some "text"),
    .set closeName (.literal .closeBrace) (some "text")]

theorem IsFirst.exists_apply_set {s : RuleSet} {before name : String}
    {front back : List (String × Rule)} {old : Rule} (h : s.IsFirst before front old back)
    (hn : name ∉ s.names) (rule : Rule) :
    ∃ t, s.apply (.set name rule (some before)) = (t, .ok ()) ∧
      t.IsFirst before (front ++ [(name, rule)]) old back ∧
      ∀ other, other ∈ t.names ↔ other = name ∨ other ∈ s.names := by
  refine ⟨⟨front ++ (name, rule) :: (before, old) :: back⟩, ?_, ⟨by simp, ?_⟩, fun other => ?_⟩
  · have hmem : before ∈ (s.eraseFirst name).names := by
      rw [eraseFirst_of_notMem hn]
      exact h.mem_names
    rw [apply, set_of_mem hmem, eraseFirst_of_notMem hn, h.insertBefore_eq]
  · have hne : before ≠ name := fun he => hn (he ▸ h.mem_names)
    rw [List.map_append, List.mem_append, not_or]
    exact ⟨h.notMem, by simpa using hne⟩
  · simp [names, h.entries_eq, or_left_comm]

theorem exists_readsBraces {openName closeName : String} (ho : openName ∉ RuleSet.default.names)
    (hc : closeName ∉ RuleSet.default.names) (hne : closeName ≠ openName) :
    ∃ rules, Extension.braces openName closeName RuleSet.default = .ok rules ∧
      rules.ReadsBraces := by
  have hdefault : RuleSet.default.IsFirst "text"
      (Kind.all.dropLast.map fun k => (k.name, .builtin k)) (.builtin .text) [] :=
    ⟨rfl, by decide⟩
  obtain ⟨t, ht, hopening, hnames⟩ := hdefault.exists_apply_set ho (.literal .openBrace)
  obtain ⟨u, hu, hclosing, -⟩ := hopening.exists_apply_set
    (fun hmem => ((hnames closeName).1 hmem).elim hne hc) (.literal .closeBrace)
  refine ⟨u, ?_, Kind.all.dropLast.map .builtin ++ [.literal .openBrace, .literal .closeBrace],
    ?_, by simp, by simp, ?_⟩
  · simp only [Extension.braces, Extension.ofEdits, applyAll, ht, hu]
  · rw [hclosing.entries_eq]
    rfl
  · intro rule hmem
    simp only [List.mem_append, List.mem_map, List.mem_cons, List.not_mem_nil, or_false] at hmem
    rcases hmem with ⟨kind, hkind, rfl⟩ | rfl | rfl
    · refine .builtin ?_
      rintro rfl
      exact absurd hkind (by decide)
    · exact .openBrace
    · exact .closeBrace

end RuleSet

/-! ## The rule that ends an attempt -/

/-- From `s` to `t` some rules are passed over. -/
inductive Scan.PassesOver : List Rule → Scan → Scan → Prop
  | nil (s : Scan) : PassesOver [] s s
  | cons {rule : Rule} {rules : List Rule} {s mid t : Scan} (h : rule.apply s = (mid, .ok none))
      (hc : mid.cursor = s.cursor) (rest : PassesOver rules mid t) : PassesOver (rule :: rules) s t

namespace Scan.PassesOver

variable {rules : List Rule} {rule : Rule} {s t : Scan}

theorem cursor_eq (h : PassesOver rules s t) : t.cursor = s.cursor := by
  induction h with
  | nil s => rfl
  | cons _ hc _ ih => exact ih.trans hc

theorem exists_of_mem (h : PassesOver rules s t) (hr : rule ∈ rules) :
    ∃ a b : Scan, a.cursor = s.cursor ∧ rule.apply a = (b, .ok none) := by
  induction h with
  | nil s => cases hr
  | @cons first rules s mid t ha hc _ ih =>
    rcases List.mem_cons.1 hr with rfl | hr
    · exact ⟨s, mid, rfl, ha⟩
    · obtain ⟨a, b, hcursor, hab⟩ := ih hr
      exact ⟨a, b, hcursor.trans hc, hab⟩

end Scan.PassesOver

/-- **An attempt that succeeds passes over some rules and ends with the one behind them**, which
consumes text. -/
theorem Lexer.exists_of_tryRules_ok {entries : List (String × Rule)} {lx lx' : Lexer}
    (h : tryRules entries lx = (lx', .ok ())) :
    ∃ pre rule s s' node?, pre ++ [rule] <+: entries.map Prod.snd ∧
      Scan.PassesOver pre lx.toScan s ∧ rule.apply s = (s', .ok node?) ∧
      s.cursor.offset < s'.cursor.offset ∧ lx' = (lx.withScan s').append node? := by
  fun_induction tryRules entries lx with
  | case1 lx => cases h
  | case2 name rule rest lx s e hr => cases h
  | case3 name rule rest lx s node? hr hs =>
    cases h
    refine ⟨[], rule, lx.toScan, s, node?, ?_, .nil _, hr, hs, rfl⟩
    exact List.prefix_append [rule] _
  | case4 name rule rest lx s node? hr hs hn => cases h
  | case5 name rule rest lx s node? hr hs hn ih =>
    obtain ⟨pre, last, t, t', made?, hpre, hpass, happly, hlt, rfl⟩ := ih h
    obtain rfl : node? = none := by simpa using hn
    have hcursor : s.cursor = lx.cursor := by
      have effect := rule.effect_apply lx.toScan
      rw [hr] at effect
      cases effect with
      | passed hc => exact hc
      | dropped l _ hl hc =>
        have := hl.length_pos
        rw [hc, Cursor.offset_advance_raw hl] at hs
        omega
    exact ⟨rule :: pre, last, t, t', made?, (List.prefix_cons_inj rule).2 hpre,
      .cons hr hcursor hpass, happly, hlt, rfl⟩

/-! ## Literals and braces -/

namespace Literal

variable {l : Literal} {s s' : Scan} {node? : Option Node}

/-- A literal that does not keep its node to itself passes only where its text does not follow. -/
theorem eq_of_apply_none (hd : l.drop = false) (h : l.apply s = (s', .ok none)) :
    s' = s ∧ ¬ l.text <+: s.cursor.remaining := by
  unfold apply at h
  split at h
  · dsimp only at h
    split at h
    · rw [hd] at h
      cases h
    · cases h
  · next hp =>
    cases h
    exact ⟨rfl, fun ht => hp (List.isPrefixOf_iff_prefix.2 ht)⟩

theorem apply_eq_ok_of_lt (h : l.apply s = (s', .ok node?))
    (hlt : s.cursor.offset < s'.cursor.offset) :
    l.text <+: s.cursor.remaining ∧ ∃ state, l.closed (l.opened s.state) = .ok state ∧
      s' = { s.advance l.text.length with state := l.noted state } ∧
      node? = if l.drop then none else some (s.nodeOf (.plain .text l.text)) := by
  unfold apply at h
  split at h
  · next hp =>
    refine ⟨List.isPrefixOf_iff_prefix.1 hp, ?_⟩
    dsimp only at h
    split at h
    · next state hs =>
      cases h
      exact ⟨state, hs, rfl, rfl⟩
    · cases h
  · cases h
    exact absurd hlt (Nat.lt_irrefl _)

end Literal

theorem Kind.notMem_openers_of_brace {c : Char} (hc : c = '{' ∨ c = '}') (kind : Kind) :
    c ∉ kind.openers := by
  rcases hc with rfl | rfl <;> cases kind <;> decide

theorem Scan.inside_eq_of_recognise? {s : Scan} {kind : Kind} {l : Lexeme} {parsed : List Char}
    {inside : Enclosure} (h : s.recognise? kind = some l) (hl : l.shape = .globstar parsed inside) :
    inside = s.state.enclosure := by
  have hkind : l.kind = .globstar := by rw [Lexeme.kind, hl]; rfl
  obtain rfl : kind = .globstar := by
    rcases kind_of_recognise? h with hk | ⟨-, hk⟩ | ⟨-, hk⟩ <;> rw [hkind] at hk
    · exact hk.symm
    · cases hk
    · cases hk
  unfold recognise? Lexeme.globstar? at h
  dsimp only at h
  split at h
  · split at h <;> cases h
    split at hl <;> cases hl
    rfl
  · cases h

/-! ## Steps that read braces -/

/-- What a lexeme does to the open contexts where braces are read. -/
inductive ScanState.Braced (s t : ScanState) : Lexeme → Prop
  | opened (hc : t.contexts = s.contexts ++ ["brace"]) : Braced s t (.plain .text ['{'])
  | closed (hs : "brace" ∈ s.contexts)
      (hc : t.contexts = (s.contexts.reverse.erase "brace").reverse) :
      Braced s t (.plain .text ['}'])
  | other {l : Lexeme} (hl : ∀ c, l.raw.head? = some c → ¬ (c = '{' ∨ c = '}'))
      (hc : t.contexts = s.contexts)
      (hi : ∀ parsed inside, l.shape = .globstar parsed inside → inside = s.enclosure) :
      Braced s t l

theorem ScanState.Braced.of_contexts_eq {r s t : ScanState} {l : Lexeme} (h : s.Braced t l)
    (hc : s.contexts = r.contexts) : r.Braced t l := by
  have hinside : s.enclosure = r.enclosure := by
    rw [enclosure, enclosure, isInside, isInside, isInside, isInside, hc]
  cases h with
  | opened ht => exact .opened (hc ▸ ht)
  | closed hs ht => exact .closed (hc ▸ hs) (hc ▸ ht)
  | other hl ht hi => exact .other hl (hc ▸ ht) (hinside ▸ hi)

namespace Scan

variable {s s' t : Scan} {node? : Option Node}

theorem braced_of_openBrace (h : Literal.openBrace.apply s = (s', .ok node?))
    (hlt : s.cursor.offset < s'.cursor.offset) :
    ∃ l, node? = some (l.nodeAt s.cursor.position) ∧ s.state.Braced s'.state l := by
  obtain ⟨hp, state, hs, rfl, rfl⟩ := Literal.apply_eq_ok_of_lt h hlt
  refine ⟨.plain .text ['{'], congrArg some (nodeOf_eq ⟨by decide, hp⟩), .opened ?_⟩
  cases hs
  rfl

theorem braced_of_closeBrace (h : Literal.closeBrace.apply s = (s', .ok node?))
    (hlt : s.cursor.offset < s'.cursor.offset) :
    ∃ l, node? = some (l.nodeAt s.cursor.position) ∧ s.state.Braced s'.state l := by
  obtain ⟨hp, state, hs, rfl, rfl⟩ := Literal.apply_eq_ok_of_lt h hlt
  have hpop : s.state.popContext "brace" = .ok state := hs
  unfold ScanState.popContext at hpop
  split at hpop
  · next hmem =>
    cases hpop
    exact ⟨.plain .text ['}'], congrArg some (nodeOf_eq ⟨by decide, hp⟩), .closed hmem rfl⟩
  · cases hpop

theorem braced_of_builtin {kind : Kind} (h : (Rule.builtin kind).apply s = (s', .ok node?))
    (hlt : s.cursor.offset < s'.cursor.offset)
    (ht : kind = .text → ∀ c, s.cursor.remaining.head? = some c → ¬ (c = '{' ∨ c = '}')) :
    ∃ l, node? = some (l.nodeAt s.cursor.position) ∧ s.state.Braced s'.state l := by
  rcases s.applyKind_cases kind with ⟨-, ha⟩ | ⟨l, -, hl, hcov, ha⟩ | ⟨-, -, ha⟩ <;>
    rw [Rule.apply, ha] at h <;> cases h
  · rw [cursor_noteLeadingDot] at hlt
    exact absurd hlt (Nat.lt_irrefl _)
  · refine ⟨l, rfl, .other ?_ (s.state.contexts_record l.shape)
      fun parsed inside => inside_eq_of_recognise? hl⟩
    intro c hc
    rw [hcov.head?_eq] at hc
    by_cases hk : kind = .text
    · exact ht hk c hc
    · obtain ⟨d, u, hd, hmem⟩ := mem_openers_of_recognise? hl hk
      rw [hd, List.head?_cons, Option.some.injEq] at hc
      exact fun hbrace => Kind.notMem_openers_of_brace (hc ▸ hbrace) kind hmem
  · exact absurd hlt (Nat.lt_irrefl _)

theorem PassesOver.contexts_eq {rules : List Rule} (h : PassesOver rules s t)
    (hr : ∀ rule ∈ rules, rule.AheadOfText) : t.state.contexts = s.state.contexts := by
  induction h with
  | nil s => rfl
  | @cons rule rules s mid t ha _ _ ih =>
    obtain ⟨hrule, hrules⟩ := List.forall_mem_cons.1 hr
    refine (ih hrules).trans ?_
    cases hrule with
    | openBrace => rw [(Literal.eq_of_apply_none rfl ha).1]
    | closeBrace => rw [(Literal.eq_of_apply_none rfl ha).1]
    | @builtin kind _ =>
      rw [Rule.apply] at ha
      rcases s.applyKind_cases kind with ⟨-, h⟩ | ⟨l, -, -, -, h⟩ | ⟨-, -, h⟩ <;>
        rw [h] at ha <;> cases ha
      · exact s.contexts_noteLeadingDot
      · rfl

theorem PassesOver.not_brace {rules : List Rule} (h : PassesOver rules s t)
    (hopen : .literal .openBrace ∈ rules) (hclose : .literal .closeBrace ∈ rules) :
    ∀ c, s.cursor.remaining.head? = some c → ¬ (c = '{' ∨ c = '}') := by
  have not_ahead {l : Literal} (hl : .literal l ∈ rules) (hd : l.drop = false) :
      ¬ l.text <+: s.cursor.remaining := by
    obtain ⟨a, b, ha, hab⟩ := h.exists_of_mem hl
    rw [← ha]
    exact (Literal.eq_of_apply_none hd hab).2
  intro c hc hbrace
  obtain ⟨u, hu⟩ := List.head?_eq_some_iff.1 hc
  rcases hbrace with rfl | rfl
  · exact not_ahead hopen rfl ⟨u, hu.symm⟩
  · exact not_ahead hclose rfl ⟨u, hu.symm⟩

end Scan

/-- **Where braces are read a step takes a lexeme**, and the open contexts follow the braces that
the lexemes begin with. -/
theorem Lexer.braced_of_step {lx lx' : Lexer} (hr : lx.rules.ReadsBraces)
    (h : lx.step = (lx', .ok ())) :
    ∃ l, lx'.nodes = lx.nodes.push (l.nodeAt lx.cursor.position) ∧
      lx.state.Braced lx'.state l := by
  obtain ⟨front, hfront, hopen, hclose, hrules⟩ := hr
  obtain ⟨pre, rule, s, s', node?, hpre, hpass, happly, hlt, rfl⟩ := exists_of_tryRules_ok h
  have hpre' : (pre = front ∧ rule = .builtin .text) ∨ pre ++ [rule] <+: front := by
    rw [hfront, List.prefix_concat_iff] at hpre
    refine hpre.imp_left fun he => ?_
    obtain ⟨hp, hl⟩ := List.append_inj' he rfl
    exact ⟨hp, List.singleton_inj.1 hl⟩
  have hahead : ∀ rule ∈ pre, rule.AheadOfText := by
    intro rule hmem
    rcases hpre' with ⟨rfl, -⟩ | hp
    · exact hrules rule hmem
    · exact hrules rule (hp.subset (List.mem_append_left _ hmem))
  have won : ∃ l, node? = some (l.nodeAt s.cursor.position) ∧ s.state.Braced s'.state l := by
    rcases hpre' with ⟨rfl, rfl⟩ | hp
    · -- plain text is taken only where both rules for braces passed
      refine Scan.braced_of_builtin happly hlt fun _ => ?_
      rw [hpass.cursor_eq]
      exact hpass.not_brace hopen hclose
    · cases hrules rule (hp.subset (List.mem_append_right _ (List.mem_singleton_self _))) with
      | openBrace => exact Scan.braced_of_openBrace happly hlt
      | closeBrace => exact Scan.braced_of_closeBrace happly hlt
      | builtin hk => exact Scan.braced_of_builtin happly hlt fun ht => absurd ht hk
  obtain ⟨l, rfl, hl⟩ := won
  refine ⟨l, ?_, hl.of_contexts_eq (hpass.contexts_eq hahead)⟩
  rw [hpass.cursor_eq]
  rfl

/-! ## Counting braces -/

/-- The number of nodes of plain text that begin with `c`. -/
def textsAt (c : Char) (nodes : List Node) : Nat :=
  nodes.countP fun n => n.shape == .text && n.raw.head? == some c

/-- What nodes of plain text cover. -/
def plainText (nodes : List Node) : List Char := coveredText (nodes.filter (·.shape == .text))

theorem textsAt_concat (c : Char) (nodes : List Node) (n : Node) : textsAt c (nodes ++ [n]) =
    textsAt c nodes + if n.shape = .text ∧ n.raw.head? = some c then 1 else 0 := by
  rw [textsAt, List.countP_append, List.countP_singleton]
  simp [textsAt]

theorem plainText_concat (nodes : List Node) (n : Node) :
    plainText (nodes ++ [n]) = plainText nodes ++ if n.shape = .text then n.raw else [] := by
  rw [plainText, List.filter_append, coveredText_append]
  by_cases ht : n.shape = .text <;> simp [plainText, coveredText, ht]

/-- A globstar tells whether more of the braces in front of it open a group than close one, counted
where plain text begins. Plain text that begins with a brace is that brace alone. -/
structure Node.ToldBehind (before : List Node) (n : Node) : Prop where
  inside_eq : ∀ parsed inside, n.shape = .globstar parsed inside →
    inside = ⟨decide (textsAt '}' before < textsAt '{' before), false⟩
  raw_eq : n.shape = .text → ∀ c, n.raw.head? = some c → c = '{' ∨ c = '}' → n.raw = [c]

theorem Node.ToldBehind.single (before : List Node) (c : Char) (p : Position) :
    ((Lexeme.plain .text [c]).nodeAt p).ToldBehind before where
  inside_eq _ _ hshape := nomatch hshape
  raw_eq _ _ hd _ := congrArg (fun d => [d]) (Option.some.inj hd)

theorem forall_behind_concat {P : List Node → Node → Prop} {nodes : List Node} {n : Node}
    (h : ∀ before m later, nodes = before ++ m :: later → P before m) (hn : P nodes n) :
    ∀ before m later, nodes ++ [n] = before ++ m :: later → P before m := by
  intro before m later he
  rcases List.eq_nil_or_concat' later with rfl | ⟨later, last, rfl⟩
  · obtain ⟨rfl, hm⟩ := List.append_inj' he rfl
    rwa [← List.singleton_inj.1 hm]
  · rw [← List.cons_append, ← List.append_assoc] at he
    exact h before m later (List.append_inj' he rfl).1

namespace Lexer

/-- The open contexts are the groups that nodes have opened and not closed, and the nodes tell of
them. -/
structure CountsBraces (lx : Lexer) : Prop where
  reads : lx.rules.ReadsBraces
  closed_le : textsAt '}' lx.nodes.toList ≤ textsAt '{' lx.nodes.toList
  contexts_eq : lx.state.contexts =
    List.replicate (textsAt '{' lx.nodes.toList - textsAt '}' lx.nodes.toList) "brace"
  told : ∀ before n later, lx.nodes.toList = before ++ n :: later → n.ToldBehind before

variable {lx lx' : Lexer}

theorem CountsBraces.enclosure_eq (h : lx.CountsBraces) : lx.state.enclosure =
    ⟨decide (textsAt '}' lx.nodes.toList < textsAt '{' lx.nodes.toList), false⟩ := by
  rw [ScanState.enclosure, ScanState.isInside, ScanState.isInside, h.contexts_eq]
  simp [List.mem_replicate, Nat.sub_eq_zero_iff_le]

theorem CountsBraces.toldBehind (h : lx.CountsBraces) {t : ScanState} {l : Lexeme}
    (hl : lx.state.Braced t l) (p : Position) : (l.nodeAt p).ToldBehind lx.nodes.toList := by
  cases hl with
  | opened => exact .single _ _ p
  | closed => exact .single _ _ p
  | other hl _ hi =>
    refine ⟨fun parsed inside hshape => ?_, fun _ c hc hbrace => absurd hbrace (hl c hc)⟩
    rw [hi parsed inside hshape, h.enclosure_eq]

/-- **A step keeps the count of the braces.** -/
theorem countsBraces_of_step (hlx : lx.CountsBraces) (h : lx.step = (lx', .ok ())) :
    lx'.CountsBraces := by
  obtain ⟨l, hnodes, hl⟩ := braced_of_step hlx.reads h
  have hlist : lx'.nodes.toList = lx.nodes.toList ++ [l.nodeAt lx.cursor.position] := by
    rw [hnodes, Array.toList_push]
  have hcount (c : Char) : textsAt c lx'.nodes.toList = textsAt c lx.nodes.toList +
      if l.shape = .text ∧ l.raw.head? = some c then 1 else 0 := by
    rw [hlist, textsAt_concat]
    rfl
  have hle := hlx.closed_le
  have hcontexts := hlx.contexts_eq
  have told := forall_behind_concat hlx.told (hlx.toldBehind hl lx.cursor.position)
  rw [← hlist] at told
  have reads : lx'.rules.ReadsBraces := rules_of_step h ▸ hlx.reads
  cases hl with
  | opened hc =>
    have ho : textsAt '{' lx'.nodes.toList = textsAt '{' lx.nodes.toList + 1 := hcount '{'
    have hd : textsAt '}' lx'.nodes.toList = textsAt '}' lx.nodes.toList := hcount '}'
    refine ⟨reads, by omega, ?_, told⟩
    rw [hc, hcontexts, ho, hd, Nat.sub_add_comm hle, List.replicate_succ']
  | closed hs hc =>
    have ho : textsAt '{' lx'.nodes.toList = textsAt '{' lx.nodes.toList := hcount '{'
    have hd : textsAt '}' lx'.nodes.toList = textsAt '}' lx.nodes.toList + 1 := hcount '}'
    have hlt : textsAt '}' lx.nodes.toList < textsAt '{' lx.nodes.toList := by
      rw [hcontexts, List.mem_replicate] at hs
      omega
    refine ⟨reads, by omega, ?_, told⟩
    rw [hc, hcontexts, ho, hd, List.reverse_replicate, List.erase_replicate_self,
      List.reverse_replicate, Nat.sub_sub]
  | other hl hc _ =>
    have hsame (c : Char) (hbrace : c = '{' ∨ c = '}') :
        textsAt c lx'.nodes.toList = textsAt c lx.nodes.toList := by
      rw [hcount, if_neg fun hn => hl c hn.2 hbrace]
      rfl
    have ho := hsame '{' (.inl rfl)
    have hd := hsame '}' (.inr rfl)
    refine ⟨reads, by omega, ?_, told⟩
    rw [hc, hcontexts, ho, hd]

theorem countsBraces_start {rules : RuleSet} (hr : rules.ReadsBraces) (pattern : List Char)
    (options : Options) : (start pattern options rules).CountsBraces where
  reads := hr
  closed_le := le_rfl
  contexts_eq := rfl
  told before n later h := by
    have := congrArg List.length h
    simp [start] at this

end Lexer

theorem count_of_notMem_tail {c : Char} {s : List Char} (h : c ∉ s.tail) :
    s.count c = if s.head? = some c then 1 else 0 := by
  cases s with
  | nil => rfl
  | cons d t =>
    have ht : t.count c = 0 := List.count_eq_zero.2 h
    rw [List.count_cons, ht]
    simp

theorem count_plainText {c : Char} {nodes : List Node}
    (h : ∀ n ∈ nodes, n.shape = .text → c ∉ n.raw.tail) :
    (plainText nodes).count c = textsAt c nodes := by
  induction nodes using List.reverseRecOn with
  | nil => rfl
  | append_singleton nodes n ih =>
    have hn := h n (List.mem_append_right _ (List.mem_singleton_self n))
    rw [textsAt_concat, ← ih fun m hm => h m (List.mem_append_left _ hm), plainText_concat,
      List.count_append]
    by_cases ht : n.shape = .text
    · rw [if_pos ht, count_of_notMem_tail (hn ht)]
      simp [ht]
    · simp [ht]

/-- **Where braces are read, the nodes tell of the braces in front of them.** -/
theorem RuleSet.toldBehind_of_tokenize {rules : RuleSet} {options : Options}
    {pattern : List Char} {a : Ast} (hr : rules.ReadsBraces)
    (h : rules.tokenize options pattern = .ok a) {before later : List Node} {n : Node}
    (hn : a.nodes = before ++ n :: later) : n.ToldBehind before := by
  obtain ⟨k, last, steps, -, rfl⟩ := Lexer.exists_steps_of_tokenize h
  have counts : last.CountsBraces := steps.invariant
    (fun lx hlx _ lx' hstep => Lexer.countsBraces_of_step hlx hstep)
    (Lexer.countsBraces_start hr pattern options)
  exact counts.told before n later hn

/-- **With the default rules and both rules for braces, a globstar is in braces if more nodes of
plain text in front of it begin with a brace that opens a group than with one that closes it**; each
of these is that brace alone. No other group is recorded. Unless plain text in front of the globstar
holds a brace behind its first character, these are all the braces of the plain text. -/
theorem globstar_inside_braces {openName closeName : String} (ho : openName ∉ RuleSet.default.names)
    (hc : closeName ∉ RuleSet.default.names) (hne : closeName ≠ openName) {options : Options}
    {pattern : List Char} {a : Ast}
    (h : tokenize (.braces openName closeName) options pattern = .ok a)
    {before later : List Node} {n : Node} (hn : a.nodes = before ++ n :: later)
    {parsed : List Char} {inside : Enclosure} (hs : n.shape = .globstar parsed inside) :
    inside.paren = false ∧
      (inside.brace = true ↔ textsAt '}' before < textsAt '{' before) ∧
      (∀ m ∈ before, m.shape = .text → ∀ c, m.raw.head? = some c → c = '{' ∨ c = '}' →
        m.raw = [c]) ∧
      ((∀ m ∈ before, m.shape = .text → '{' ∉ m.raw.tail ∧ '}' ∉ m.raw.tail) →
        (inside.brace = true ↔ (plainText before).count '}' < (plainText before).count '{')) := by
  obtain ⟨rules, hrules, hr⟩ := RuleSet.exists_readsBraces ho hc hne
  rw [tokenize, hrules] at h
  have hinside := (RuleSet.toldBehind_of_tokenize hr h hn).inside_eq parsed inside hs
  have hbrace : inside.brace = true ↔ textsAt '}' before < textsAt '{' before := by
    rw [hinside]
    exact decide_eq_true_iff
  refine ⟨congrArg Enclosure.paren hinside, hbrace, fun m hm => ?_, fun htail => ?_⟩
  · obtain ⟨front, back, rfl⟩ := List.append_of_mem hm
    rw [List.append_assoc, List.cons_append] at hn
    exact (RuleSet.toldBehind_of_tokenize hr h hn).raw_eq
  · rw [count_plainText fun m hm ht => (htail m hm ht).1,
      count_plainText fun m hm ht => (htail m hm ht).2, hbrace]

theorem exists_tokenize_of_nodes {extend : RuleSet.Extension} {options : Options}
    {pattern : List Char} {nodes : List Node}
    (h : (tokenize extend options pattern).toOption.map Ast.nodes = some nodes) :
    ∃ a, tokenize extend options pattern = .ok a ∧ a.nodes = nodes := by
  cases ht : tokenize extend options pattern with
  | ok a =>
    rw [ht] at h
    exact ⟨a, rfl, Option.some.inj h⟩
  | error e =>
    rw [ht] at h
    cases h

/-- A globstar right behind a brace that opens a group. -/
theorem globstar_inside_braces_at_start :
    ∃ a before n later parsed inside,
      tokenize (.braces "brace.open" "brace.close") {} ['{', '*', '*', ',', 'a', '}'] = .ok a ∧
      a.nodes = before ++ n :: later ∧ n.shape = .globstar parsed inside ∧
      inside.paren = false ∧ inside.brace = true := by
  have hnodes : (tokenize (.braces "brace.open" "brace.close") {}
      ['{', '*', '*', ',', 'a', '}']).toOption.map Ast.nodes =
        some ([⟨.plain .text ['{'], ⟨⟨1, 1, 0⟩, ⟨1, 2, 1⟩⟩⟩] ++
          ⟨⟨.globstar ['{'] ⟨true, false⟩, ['*', '*'], ['*', '*']⟩, ⟨⟨1, 2, 1⟩, ⟨1, 4, 3⟩⟩⟩ ::
          [⟨.plain .text [',', 'a', '}'], ⟨⟨1, 4, 3⟩, ⟨1, 7, 6⟩⟩⟩]) := by
    decide +kernel
  obtain ⟨a, ha, hn⟩ := exists_tokenize_of_nodes hnodes
  have h := globstar_inside_braces (by decide) (by decide) (by decide) ha hn rfl
  exact ⟨a, _, _, _, _, _, ha, hn, rfl, h.1, h.2.1.2 (by decide)⟩

/-- A globstar behind a brace in the middle of plain text, which opens no group. -/
theorem globstar_behind_brace_in_text :
    ∃ a before n later parsed inside,
      tokenize (.braces "brace.open" "brace.close") {} ['a', '{', '*', '*', ',', 'b', '}'] =
        .ok a ∧
      a.nodes = before ++ n :: later ∧ n.shape = .globstar parsed inside ∧
      inside.brace = false ∧ (plainText before).count '}' < (plainText before).count '{' := by
  have hnodes : (tokenize (.braces "brace.open" "brace.close") {}
      ['a', '{', '*', '*', ',', 'b', '}']).toOption.map Ast.nodes =
        some ([⟨.plain .text ['a', '{'], ⟨⟨1, 1, 0⟩, ⟨1, 3, 2⟩⟩⟩] ++
          ⟨⟨.globstar ['a', '{'] ⟨false, false⟩, ['*', '*'], ['*', '*']⟩,
            ⟨⟨1, 3, 2⟩, ⟨1, 5, 4⟩⟩⟩ ::
          [⟨.plain .text [',', 'b', '}'], ⟨⟨1, 5, 4⟩, ⟨1, 8, 7⟩⟩⟩]) := by
    decide +kernel
  obtain ⟨a, ha, hn⟩ := exists_tokenize_of_nodes hnodes
  exact ⟨a, _, _, _, _, _, ha, hn, rfl, rfl, by decide⟩

end GlobPattern
