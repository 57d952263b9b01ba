import GlobPattern.Diagnostic
import GlobPattern.Text.Character
import GlobPattern.Text.Lines

/-!
# Pattern lists and workspaces

A pattern list has one pattern a line; blank lines and lines that begin with `#` hold none. A
workspace keeps the texts of documents, and whenever a text is set, the diagnostics of the document
are published.

* `PatternList.patterns`: the patterns of a text with the indices of their lines;
* `PatternList.diagnostics`: all that is to be said about them;
* `Workspace`, `Workspace.ReturnsLast`: what may keep the texts, and that a text can be read once it
  is set;
* `Workspace.Publication`, `Workspace.Refusal`, `Workspace.handle`: what comes of opening and of
  changing a document;
* `Workspace.keeping`: the workspace of documents under names.
-/

namespace GlobPattern

namespace PatternList

/-- The line holds a pattern. -/
def holdsPattern (content : List Char) : Bool :=
  !Text.allBlank content && content.head? != some '#'

/-- The patterns of a list, each with the index of its line. -/
def patterns (text : List Char) : List (List Char × Nat) :=
  ((Text.lines text).map Text.Line.content).zipIdx.filter (holdsPattern ·.1)

variable {ε : Type} (refuse : Place → Option ε)

/-- The diagnostics of patterns in order, up to the first failure. -/
def checkAll (extend : RuleSet.Extension) :
    List (List Char × Nat) → Except (CheckError ε) (List Diagnostic)
  | [] => .ok []
  | (pattern, line) :: rest =>
    match Diagnostic.check refuse extend pattern line with
    | .error e => .error e
    | .ok found => (checkAll extend rest).map (found ++ ·)

/-- The diagnostics of a pattern list. -/
def diagnostics (extend : RuleSet.Extension) (text : List Char) :
    Except (CheckError ε) (List Diagnostic) :=
  checkAll refuse extend (patterns text)

end PatternList

/-- What happens to a document: its text is set for the first time, or anew. -/
inductive Workspace.Event where
  | opened
  | changed
  deriving DecidableEq, Repr

/-- What keeps the texts of documents: its state when the text of a document has been set, and the
text that is under an identifier. It can refuse either. -/
structure Workspace (σ ε : Type) where
  store : Workspace.Event → σ → String → List Char → Except ε σ
  text : σ → String → Except ε (List Char)

namespace Workspace

variable {σ ε δ : Type}

/-- What was stored last under an identifier is its text. -/
def ReturnsLast (w : Workspace σ ε) : Prop :=
  ∀ event s uri text s', w.store event s uri text = .ok s' → w.text s' uri = .ok text

/-- What is published about a document. -/
structure Publication where
  uri : String
  diagnostics : List Diagnostic
  deriving DecidableEq, Repr

/-- Why nothing is published. -/
inductive Refusal (ε δ : Type) where
  | unkept (e : ε)
  | unchecked (e : CheckError δ)
  deriving DecidableEq, Repr

/-- The publication of diagnostics, if there are any to be told. -/
def publication (uri : String) :
    Except (CheckError δ) (List Diagnostic) → Except (Refusal ε δ) Publication
  | .ok found => .ok ⟨uri, found⟩
  | .error e => .error (.unchecked e)

variable (w : Workspace σ ε) (refuse : Place → Option δ) (extend : RuleSet.Extension)

/-- Publish the diagnostics of a document. -/
def publish (s : σ) (uri : String) : Except (Refusal ε δ) Publication :=
  match w.text s uri with
  | .error e => .error (.unkept e)
  | .ok text => publication uri (PatternList.diagnostics refuse extend text)

/-- Set the text of a document and publish its diagnostics. -/
def handle (event : Event) (s : σ) (uri : String) (text : List Char) :
    σ × Except (Refusal ε δ) Publication :=
  match w.store event s uri text with
  | .error e => (s, .error (.unkept e))
  | .ok s' => (s', w.publish refuse extend s' uri)

/-! ## Documents under names -/

/-- Why a document is not kept: it is not open, or its identifier has a fault. -/
inductive Unkept (φ : Type) where
  | notOpen (name : String)
  | faulty (f : φ)
  deriving DecidableEq, Repr

/-- The workspace in which every identifier names a document. A faulty identifier opens none, and a
document that is not open cannot change. -/
def keeping {φ : Type} (name : String → String) (fault? : String → Option φ) :
    Workspace (List (String × List Char)) (Unkept φ) where
  store event documents uri text :=
    let documents' := (name uri, text) :: documents.filter (·.1 != name uri)
    match event with
    | .opened =>
      match fault? uri with
      | some f => .error (.faulty f)
      | none => .ok documents'
    | .changed =>
      match documents.lookup (name uri) with
      | none => .error (.notOpen (name uri))
      | some _ => .ok documents'
  text documents uri :=
    match documents.lookup (name uri) with
    | none => .error (.notOpen (name uri))
    | some text => .ok text

theorem keeping_returnsLast {φ : Type} (name : String → String) (fault? : String → Option φ) :
    (keeping name fault?).ReturnsLast := by
  intro event documents uri text documents' h
  have hkept : documents' = (name uri, text) :: documents.filter (·.1 != name uri) := by
    cases event with
    | opened | changed =>
      simp only [keeping] at h
      split at h
      · cases h
      · exact (Except.ok.inj h).symm
  simp [keeping, hkept]

end Workspace

end GlobPattern
