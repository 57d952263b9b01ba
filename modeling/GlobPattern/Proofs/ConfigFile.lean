import GlobPattern.Proofs.CommandOutput
import GlobPattern.Proofs.Toml.Depth
import GlobPattern.Proofs.Toml.Limits

/-!
# What the command makes of a configuration file

The built-in rules fail on no pattern, so a command line that is carried out ends with its patterns
printed unless its configuration file stops it. A file that is no TOML document should be refused
with a message. That is so for text that is malformed, but there is no message for a file that is no
text at all, nor for text beyond the limits of the reader.

* `Config.IsToml`, `Config.Legible`: the files that are documents, and those that are read or found
  malformed; `Config.legible_of_holds`;
* `Command.Handles`: what should come of a file;
* **`Command.run_handles_iff`**: it comes of the legible files.
-/

namespace GlobPattern

/-! ## Files -/

namespace Config

variable {stack : Toml.Stack} {content : ByteArray} {text : String}

/-- The content is a TOML document: text that is read where there is always room. The digits of a
number are limited even there. -/
def IsToml (content : ByteArray) : Prop :=
  ∃ text, String.fromUTF8? content = some text ∧ Toml.IsDocument text.toList

/-- The content is text, and with the room on the stack it is read as a document or found
malformed. -/
def Legible (stack : Toml.Stack) (content : ByteArray) : Prop :=
  ∃ text, String.fromUTF8? content = some text ∧
    Toml.Meets (fun _ => True) (Toml.document stack text.toList)

/-- Text is legible if the stack has room for as many levels as brackets and braces open in it and
if it has few digits, whatever else stands in it. -/
theorem legible_of_holds (htext : String.fromUTF8? content = some text)
    (hstack : stack.Holds (Toml.openings text.toList))
    (hdigits : text.toList.countP Char.isDigit ≤ Toml.maxDigits) : Legible stack content :=
  ⟨text, htext, Toml.meets_document (.of_holds hstack hdigits)⟩

theorem ofBytes_cases (stack : Toml.Stack) (content : ByteArray) :
    (∃ entries, ofBytes stack content = .ok entries ∧ Legible stack content ∧ IsToml content) ∨
    (ofBytes stack content = .error .malformed ∧ Legible stack content ∧ ¬ IsToml content) ∨
    ∃ e, ofBytes stack content = .error e ∧ e ≠ .malformed ∧ ¬ Legible stack content := by
  unfold ofBytes
  cases htext : String.fromUTF8? content with
  | none => exact .inr (.inr ⟨.notText, rfl, nofun, by simp [Legible, htext]⟩)
  | some text =>
    dsimp only
    cases hdoc : Toml.document stack text.toList with
    | ok entries =>
      exact .inl ⟨entries, rfl, ⟨text, htext, by rw [hdoc]; trivial⟩, text, htext,
        Toml.isDocument_of_ok hdoc⟩
    | error fault =>
      cases fault with
      | malformed =>
        refine .inr (.inl ⟨rfl, ⟨text, htext, by rw [hdoc]; rfl⟩, ?_⟩)
        rintro ⟨text', htext', hisdoc⟩
        cases htext.symm.trans htext'
        exact Toml.not_isDocument hdoc hisdoc
      | tooManyDigits count =>
        exact .inr (.inr ⟨_, rfl, nofun, by simp [Legible, htext, hdoc, Toml.Meets]⟩)
      | tooDeep => exact .inr (.inr ⟨_, rfl, nofun, by simp [Legible, htext, hdoc, Toml.Meets]⟩)

end Config

namespace Command

/-- What should come of a file: the patterns are printed if it is a TOML document, and otherwise
the command ends with 2, a message and nothing else. -/
structure Handles (content : ByteArray) (result : Except Crash Outcome) : Prop where
  document : Config.IsToml content → ∃ stdout, result = .ok ⟨0, stdout, ""⟩
  refused : ¬ Config.IsToml content →
    ∃ reason, result = .ok ⟨2, "", "error: invalid config file: " ++ reason ++ "\n"⟩

variable {stack : Toml.Stack} {read : Config.Reader} {argv : List String} {a : Arguments}
  {content : ByteArray}

theorem not_handles_error (e : Crash) : ¬ Handles content (.error e) := by
  intro h
  by_cases ht : Config.IsToml content
  · obtain ⟨_, h'⟩ := h.document ht
    cases h'
  · obtain ⟨_, h'⟩ := h.refused ht
    cases h'

theorem run_of_ok {extend : RuleSet.Extension} {entries : Toml.Entries}
    (hargs : Arguments.parse argv = .ok a)
    (hread : read (Config.path a.config? ".") = .ok (some content))
    (h : Config.ofBytes stack content = .ok entries) :
    run stack read extend argv =
      execute extend ⟨a.patterns, mergeOptions (Config.options entries) a, a.asJson⟩ := by
  refine run_of_settings hargs ?_
  simp only [resolve, Config.load, hread, h]
  rfl

theorem run_of_malformed {extend : RuleSet.Extension} (hargs : Arguments.parse argv = .ok a)
    (hread : read (Config.path a.config? ".") = .ok (some content))
    (h : Config.ofBytes stack content = .error .malformed) :
    run stack read extend argv =
      .ok ⟨2, "", "error: " ++ Config.ConfigError.malformed.message ++ "\n"⟩ := by
  simp only [run, hargs, resolve, Config.load, hread, h]
  rfl

theorem run_of_error {extend : RuleSet.Extension} {e : Config.ConfigError}
    (hargs : Arguments.parse argv = .ok a)
    (hread : read (Config.path a.config? ".") = .ok (some content))
    (h : Config.ofBytes stack content = .error e) (he : e ≠ .malformed) :
    run stack read extend argv = .error (.config e) := by
  simp only [run, hargs, resolve, Config.load, hread, h]
  cases e with
  | malformed => exact absurd rfl he
  | path _ => rfl
  | notText => rfl
  | tooManyDigits _ => rfl
  | tooDeep => rfl

/-- **A configuration file is handled if and only if it is legible**, whatever there is room for. The
command crashes over every other file: over bytes that are no text, and over text that goes beyond
the limits of the reader. Text is always handled if there is room for as many levels as brackets and
braces open in it and it has no more digits than one number may have. -/
theorem run_handles_iff (hargs : Arguments.parse argv = .ok a)
    (hread : read (Config.path a.config? ".") = .ok (some content)) :
    (Handles content (run stack read .unchanged argv) ↔ Config.Legible stack content) ∧
      (¬ Config.Legible stack content → ∃ e, run stack read .unchanged argv = .error (.config e)) ∧
      ∀ text, String.fromUTF8? content = some text → stack.Holds (Toml.openings text.toList) →
        text.toList.countP Char.isDigit ≤ Toml.maxDigits →
        Handles content (run stack read .unchanged argv) := by
  have hiff : Handles content (run stack read .unchanged argv) ↔ Config.Legible stack content := by
    obtain ⟨entries, h, hlegible, htoml⟩ | ⟨h, hlegible, htoml⟩ | ⟨e, h, he, hlegible⟩ :=
      Config.ofBytes_cases stack content
    · rw [run_of_ok hargs hread h]
      exact iff_of_true ⟨fun _ => execute_unchanged _, fun hn => absurd htoml hn⟩ hlegible
    · rw [run_of_malformed hargs hread h]
      exact iff_of_true ⟨fun ht => absurd ht htoml, fun _ => ⟨"<toml>", rfl⟩⟩ hlegible
    · rw [run_of_error hargs hread h he]
      exact iff_of_false (not_handles_error _) hlegible
  refine ⟨hiff, fun hn => ?_, fun text htext hstack hdigits =>
    hiff.2 (Config.legible_of_holds htext hstack hdigits)⟩
  obtain ⟨_, _, hlegible, _⟩ | ⟨_, hlegible, _⟩ | ⟨e, h, he, _⟩ :=
    Config.ofBytes_cases stack content
  · exact absurd hlegible hn
  · exact absurd hlegible hn
  · exact ⟨e, run_of_error hargs hread h he⟩

/-- A file with one option in it, read where no more than four readers may wait. -/
theorem run_handles_option :
    let stack : Toml.Stack := ⟨fun n _ => n ≤ 4, fun n _ => n ≤ 4⟩
    Arguments.parse ["!a"] = .ok { patterns := ["!a"] } ∧
      stack.Holds (Toml.openings "[options]\nnonegate = true\n".toList) ∧
      Handles "[options]\nnonegate = true\n".toByteArray
        (run stack (fun _ => .ok (some "[options]\nnonegate = true\n".toByteArray)) .unchanged
          ["!a"]) := by
  intro stack
  have hopenings : Toml.openings "[options]\nnonegate = true\n".toList = 1 := by decide
  have hstack : stack.Holds (Toml.openings "[options]\nnonegate = true\n".toList) := by
    rw [hopenings]
    exact ⟨fun n hn _ => decide_eq_true hn, fun n hn _ => decide_eq_true (Nat.le_succ_of_le hn)⟩
  exact ⟨rfl, hstack, (run_handles_iff rfl rfl).2.2 "[options]\nnonegate = true\n" (by rfl) hstack
    (by decide)⟩

/-- A file of one byte that is no text is not handled. -/
theorem not_run_handles_not_text :
    ¬ ∀ read argv a content, Arguments.parse argv = .ok a →
      read (Config.path a.config? ".") = .ok (some content) →
      Handles content (run .unlimited read .unchanged argv) := by
  intro h
  have hnot : Config.ofBytes .unlimited ⟨#[255]⟩ = .error .notText := by rfl
  have hargs : Arguments.parse ["a"] = .ok { patterns := ["a"] } := by rfl
  have hhandles := h (fun _ => .ok (some ⟨#[255]⟩)) ["a"] _ _ hargs rfl
  rw [run_of_error hargs rfl hnot nofun] at hhandles
  exact not_handles_error _ hhandles

end Command

end GlobPattern
