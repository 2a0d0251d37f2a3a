import Marktex.Proofs.Command.Conversion
import Marktex.Proofs.Command.Settings

/-!
# Runs that convert once

How a run in one go ends, and what it leaves behind. It shows what its one conversion comes to
(`oneRun_cases`), so that all of its failures come before anything is delivered. `run_once` puts this
together with the settings: the exit code tells what went wrong, a run that fails prints nothing on the
standard output and changes no file, and a run that succeeds delivers its text to one place.
-/

namespace Marktex.Command

/-- All that a run prints on the standard output. -/
def Polls.out (run : Polls) : Text :=
  run.transcripts.flatMap Transcript.out

/-- All that a run prints on the standard error. -/
def Polls.err (run : Polls) : Text :=
  run.transcripts.flatMap Transcript.err

/-- A run shows what a conversion comes to. -/
structure Polls.Shows (run : Polls) (result : Result) : Prop where
  ending : run.ending = result.failure.getD (.exit 0)
  out : run.out = result.transcript.out
  err : run.err = result.transcript.err
  files : run.files = result.files

/-- A run in one go prints its transcript, also where nothing is recorded. -/
lemma single_printed (transcript : Transcript) (ending : Ending) (files : FileTree) :
    (single transcript ending files).out = transcript.out ∧
      (single transcript ending files).err = transcript.err := by
  obtain ⟨out, err⟩ := transcript
  unfold single Polls.out Polls.err
  split
  case isTrue nothing =>
    obtain ⟨rfl, rfl⟩ : out = [] ∧ err = [] := by simpa [Transcript.isEmpty] using nothing
    exact ⟨rfl, rfl⟩
  case isFalse => simp

/-- No malformed path stands for the input. -/
def Options.InputFormed (o : Options) : Prop :=
  ∀ path, o.input = some path → path.isMalformed = false

/-- A malformed path of the input breaks a run off before anything is printed. -/
lemma oneRun_of_malformed {o : Options} {path : Path} (input : o.input = some path)
    (malformed : path.isMalformed = true) (files : FileTree) (stdin : List UInt8) :
    oneRun o files stdin = single .empty (.breakdown (.malformedPath path)) files := by
  have filtered : o.input.filter Path.isMalformed = some path :=
    Option.filter_eq_some_iff.2 ⟨input, malformed⟩
  rw [oneRun, filtered]

/-- With a path that a file can have, or with the standard input, a run shows what its conversion comes to.
-/
lemma oneRun_shows {o : Options} (formed : o.InputFormed) (files : FileTree) (stdin : List UInt8) :
    (oneRun o files stdin).Shows (convertOnce o (inputBytes o files stdin) files) := by
  have filtered : o.input.filter Path.isMalformed = none :=
    Option.filter_eq_none_iff.2 fun path input => by simp [formed path input]
  rw [oneRun, filtered]
  have printed := single_printed (convertOnce o (inputBytes o files stdin) files).transcript
    ((convertOnce o (inputBytes o files stdin) files).failure.getD (.exit exitDone)) files
  exact ⟨rfl, printed.1, printed.2, rfl⟩

/-- A run breaks off at a malformed path of the input, or it shows what its conversion comes to. -/
lemma oneRun_cases (o : Options) (files : FileTree) (stdin : List UInt8) :
    (∃ path, o.input = some path ∧ path.isMalformed = true ∧
      oneRun o files stdin = single .empty (.breakdown (.malformedPath path)) files) ∨
    o.InputFormed ∧ ∃ input result, sourceOf o (inputBytes o files stdin) = input ∧
      Outcome o files input result ∧ (oneRun o files stdin).Shows result := by
  by_cases formed : o.InputFormed
  · exact .inr ⟨formed, _, _, rfl, convertOnce_outcome o _ files, oneRun_shows formed files stdin⟩
  · simp only [Options.InputFormed, not_forall, Bool.not_eq_false] at formed
    obtain ⟨path, input, malformed⟩ := formed
    exact .inl ⟨path, input, malformed, oneRun_of_malformed input malformed files stdin⟩

/-- Why a run that converts once breaks off: no file can have the path of the input, or the conversion of
the text of the input breaks off. -/
inductive Options.Escapes (o : Options) (files : FileTree) (stdin : List UInt8) : Breakdown → Prop where
  | malformed {path} :
    o.input = some path →
    path.isMalformed = true →
    Escapes o files stdin (.malformedPath path)
  | broken {source reason} :
    o.InputFormed →
    InputText files stdin o.input source →
    ¬ o.Fails source →
    o.Breaks source files reason →
    Escapes o files stdin reason

/-- A run that converts once breaks off for these reasons. -/
lemma oneRun_escapes_iff {o : Options} {files : FileTree} {stdin : List UInt8} {reason : Breakdown} :
    (oneRun o files stdin).ending = .breakdown reason ↔ o.Escapes files stdin reason := by
  constructor
  · intro ending
    obtain ⟨path, input, malformed, broken⟩ | ⟨formed, source, result, read, outcome, shows⟩ :=
      oneRun_cases o files stdin
    · rw [broken] at ending
      cases ending
      exact .malformed input malformed
    · rw [shows.ending] at ending
      cases outcome with
      | unreadable | unclosed | done => cases ending
      | broken success breaks =>
        cases ending
        exact .broken formed (inputText_iff.2 read) success breaks
  · intro escapes
    cases escapes with
    | malformed input malformed =>
      rw [oneRun_of_malformed input malformed]
      rfl
    | broken formed read success breaks =>
      -- what the conversion comes to is unique but for what it prints
      have outcome := convertOnce_outcome o (inputBytes o files stdin) files
      rw [inputText_iff.1 read] at outcome
      have broken : Outcome o files (.ok _) ⟨⟨[], []⟩, some (.breakdown reason), files⟩ :=
        .broken success breaks
      rw [(oneRun_shows formed files stdin).ending, (outcome.unique broken).1]
      rfl

/-- An input has one text only. -/
lemma InputText.unique {files : FileTree} {stdin : List UInt8} {o : Options} {source other : Text}
    (h : InputText files stdin o.input source) (h' : InputText files stdin o.input other) :
    source = other :=
  Except.ok.inj ((inputText_iff.1 h).symm.trans (inputText_iff.1 h'))

/-- The exit code of a run that converts once, with what it prints on the standard output and the files
that it leaves behind: it cannot read its input, or it fails at what is not closed, or its text is
delivered. -/
inductive Exits (o : Options) (files : FileTree) (stdin : List UInt8) : Nat → Text → FileTree → Prop where
  | unreadable :
    (¬ ∃ source, InputText files stdin o.input source) →
    Exits o files stdin 2 [] files
  | unclosed {source} :
    InputText files stdin o.input source →
    o.Fails source →
    Exits o files stdin 1 [] files
  | done {source text out after} :
    o.InputFormed →
    InputText files stdin o.input source →
    ¬ o.Fails source →
    o.Converts source text →
    deliver o text files = .ok (out, after) →
    Exits o files stdin 0 out after

section

variable {o : Options} {files after : FileTree} {stdin : List UInt8} {source text out : Text} {code : Nat}

/-- A run that converts once and does not break off ends in one of these ways. -/
lemma oneRun_exits (returns : (oneRun o files stdin).ending = .exit code) :
    Exits o files stdin code (oneRun o files stdin).out (oneRun o files stdin).files := by
  obtain ⟨path, -, -, broken⟩ | ⟨formed, input, result, read, outcome, shows⟩ :=
    oneRun_cases o files stdin
  · rw [broken] at returns
    cases returns
  · rw [shows.ending] at returns
    rw [shows.out, shows.files]
    cases outcome with
    | unreadable =>
      cases returns
      refine .unreadable fun ⟨source, read'⟩ => ?_
      cases (inputText_iff.1 read').symm.trans read
    | unclosed fails =>
      cases returns
      exact .unclosed (inputText_iff.2 read) fails
    | broken => cases returns
    | done success converts delivered =>
      cases returns
      exact .done formed (inputText_iff.2 read) success converts delivered

namespace Exits

/-- A run that does not end with 0 prints nothing on the standard output and changes no file. -/
lemma kept (h : Exits o files stdin code out after) (failed : code ≠ 0) : out = [] ∧ after = files := by
  cases h with
  | unreadable | unclosed => exact ⟨rfl, rfl⟩
  | done => exact absurd rfl failed

/-- A run that ends with 0 has delivered the text of its input. -/
lemma delivered (h : Exits o files stdin 0 out after) :
    o.InputFormed ∧ ∃ source text, InputText files stdin o.input source ∧ ¬ o.Fails source ∧
      o.Converts source text ∧ deliver o text files = .ok (out, after) := by
  cases h with
  | done formed read success converts delivered =>
    exact ⟨formed, _, _, read, success, converts, delivered⟩

end Exits

end

end Marktex.Command
