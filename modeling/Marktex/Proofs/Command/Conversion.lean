import Marktex.Command.Run
import Marktex.Proofs.Document.Acceptance
import Marktex.Proofs.File.Writing
import Marktex.Proofs.Token.Unclosed

/-!
# What a conversion comes to

One conversion either fails before anything is delivered, or it delivers the text of the source under the
given options to one place (`convertOnce_outcome`). It fails at its input, at a construct that is not
closed if reading is strict, or it breaks off; no token of a source is ever rejected. The text does not
depend on whether reading is strict and on whether tokens and nodes are listed (`Options.Converts.congr`).
-/

namespace Marktex.Command

/-- The text of an input: of the file at a path, with line feeds as line ends, or of the standard input, with
the line ends that it has. -/
inductive InputText (files : FileTree) (stdin : List UInt8) : Option Path → Text → Prop where
  | file {path bytes s} :
    files.read path = .ok bytes →
    Utf8.decode bytes = .ok s →
    InputText files stdin (some path) (Text.withLineFeeds s)
  | stdin {s} :
    Utf8.decode stdin = .ok s →
    InputText files stdin none s

/-- The source of an input is its text. -/
lemma inputText_iff {o : Options} {files : FileTree} {stdin : List UInt8} {source : Text} :
    InputText files stdin o.input source ↔ sourceOf o (inputBytes o files stdin) = .ok source := by
  constructor
  · intro h
    generalize input : o.input = i at h
    cases h with
    | file found decoded => simp [inputBytes, input, found, sourceOf, decoded]
    | stdin decoded => simp [inputBytes, input, sourceOf, decoded]
  · intro h
    unfold sourceOf at h
    split at h
    case h_1 => cases h
    case h_2 bytes read =>
      split at h
      case h_1 => cases h
      case h_2 s decoded =>
        cases h
        unfold inputBytes at read
        split at read
        case h_1 path input =>
          rw [input]
          exact .file read decoded
        case h_2 input =>
          cases read
          rw [input]
          exact .stdin decoded

namespace Options

/-- Strict reading is asked for, and a construct of the source is not closed. -/
def Fails (o : Options) (source : Text) : Prop :=
  o.strict = true ∧ (tokenize false source).warnings ≠ []

/-- The text that a source becomes: the LaTeX text of its document, as it is or as a document of its own. -/
inductive Converts (o : Options) (source : Text) : Text → Prop where
  | fragment {document} :
    Document.ofSource false source = .ok document →
    o.standalone = false →
    Converts o source document.toLatex
  | standalone {document names} :
    Document.ofSource false source = .ok document →
    o.standalone = true →
    o.packageNames? = some names →
    Converts o source (Latex.standalone document.toLatex o.documentClass.toText names)

/-- Where a text goes: to the standard output, with a line feed at its end, or to a file, which holds the
text then and is the only one that has changed. The null device keeps nothing. -/
inductive Delivers (o : Options) (text : Text) (files : FileTree) : Text → FileTree → Prop where
  | printed :
    o.output = none →
    Delivers o text files (if text.getLast? = some '\n' then text else text ++ ['\n']) files
  | written {path names after} :
    o.output = some path →
    after.read path = .ok (Utf8.encode text) →
    (∀ other, after.get? other =
      if other = names then some (.file (Utf8.encode text) files.now) else files.get? other) →
    Delivers o text files [] after
  | discarded :
    o.output = some FileTree.nullDevice →
    Delivers o text files [] files

/-- Why a text cannot be delivered: there is no file that can have the path of the output, or the file
cannot be written. -/
inductive Undeliverable (o : Options) (text : Text) (files : FileTree) : Breakdown → Prop where
  | malformed {path} :
    o.output = some path →
    path.isMalformed = true →
    Undeliverable o text files (.malformedPath path)
  | unwritable {path e} :
    o.output = some path →
    path.isMalformed = false →
    files.write path (Utf8.encode text) = .error e →
    Undeliverable o text files (.output e path)

/-- What breaks the conversion of a source off: a package without a name, or a text that cannot be
delivered. -/
inductive Breaks (o : Options) (source : Text) (files : FileTree) : Breakdown → Prop where
  | nameless :
    o.standalone = true →
    o.packageNames? = none →
    Breaks o source files .namelessPackage
  | undelivered {text reason} :
    o.Converts source text →
    o.Undeliverable text files reason →
    Breaks o source files reason

variable {o p : Options} {source text : Text} {files : FileTree} {reason : Breakdown}

/-- A source becomes one text only. -/
lemma Converts.unique {other : Text} (h : o.Converts source text) (h' : o.Converts source other) :
    text = other := by
  cases h with
  | fragment made plain =>
    cases h' with
    | fragment made' => cases made.symm.trans made'; rfl
    | standalone _ whole => cases plain.symm.trans whole
  | standalone made whole named =>
    cases h' with
    | fragment _ plain => cases plain.symm.trans whole
    | standalone made' _ named' =>
      cases made.symm.trans made'
      cases named.symm.trans named'
      rfl

/-- The text depends on the options for standalone documents only. -/
lemma Converts.congr (h : o.Converts source text) (standalone : p.standalone = o.standalone)
    (documentClass : p.documentClass = o.documentClass) (packages : p.packages = o.packages) :
    p.Converts source text := by
  cases h with
  | fragment made plain => exact .fragment made (standalone.trans plain)
  | standalone made whole named =>
    rw [← documentClass]
    refine .standalone made (standalone.trans whole) ?_
    rw [packageNames?, packages]
    exact named

/-- A text that is made has the names of the packages that it needs. -/
lemma Converts.named (h : o.Converts source text) (whole : o.standalone = true) :
    o.packageNames? ≠ none := by
  cases h with
  | fragment _ plain => cases plain.symm.trans whole
  | standalone _ _ named => simp [named]

/-- A text is delivered, unless it cannot be. -/
lemma deliver_cases (o : Options) (text : Text) (files : FileTree) :
    (∃ out after, deliver o text files = .ok (out, after) ∧ o.Delivers text files out after) ∨
    ∃ reason, deliver o text files = .error reason ∧ o.Undeliverable text files reason := by
  unfold deliver
  cases output : o.output with
  | none => exact .inl ⟨_, _, rfl, .printed output⟩
  | some path =>
    dsimp only
    cases malformed : path.isMalformed with
    | true => exact .inr ⟨_, rfl, .malformed output malformed⟩
    | false =>
      cases written : files.write path (Utf8.encode text) with
      | error e => exact .inr ⟨_, rfl, .unwritable output malformed written⟩
      | ok after =>
        refine .inl ⟨[], after, rfl, ?_⟩
        obtain ⟨rfl, rfl⟩ | ⟨names, held, kept⟩ := FileTree.write_cases written
        · exact .discarded output
        · exact .written output held kept

/-- A text that cannot be delivered is not, and for the same reason. -/
lemma Undeliverable.deliver_eq (h : o.Undeliverable text files reason) :
    deliver o text files = .error reason := by
  cases h with
  | malformed output malformed => simp only [deliver, output, malformed, if_true]
  | unwritable output wellFormed refused => simp [deliver, output, wellFormed, refused]

/-- There is one reason at most for which the conversion of a source breaks off. -/
lemma Breaks.unique {other : Breakdown} (h : o.Breaks source files reason)
    (h' : o.Breaks source files other) : reason = other := by
  cases h with
  | nameless whole nameless =>
    cases h' with
    | nameless => rfl
    | undelivered converts => exact absurd nameless (converts.named whole)
  | undelivered converts stuck =>
    cases h' with
    | nameless whole nameless => exact absurd nameless (converts.named whole)
    | undelivered converts' stuck' =>
      -- both are reasons for which the same text cannot be delivered
      obtain rfl := converts.unique converts'
      exact Except.error.inj (stuck.deliver_eq.symm.trans stuck'.deliver_eq)

end Options

namespace Conversion

variable {o : Options} {source : Text}

/-- Strict reading fails at what is not closed. -/
lemma ofSource_of_fails (h : o.Fails source) :
    ∃ u, ofSource o source = ⟨[], .error (.unclosed u)⟩ := by
  obtain ⟨strict, warned⟩ := h
  obtain ⟨clean, -⟩ | ⟨u, -, failed, -⟩ := tokenize_strict_cases source
  · exact absurd clean warned
  · exact ⟨u, by simp [ofSource, strict, failed]⟩

/-- Reading that does not fail is lenient reading, strict or not. -/
lemma tokenize_of_not_fails (h : ¬ o.Fails source) :
    tokenize o.strict source = tokenize false source := by
  cases strict : o.strict with
  | false => rfl
  | true =>
    obtain ⟨-, same⟩ | ⟨u, warned, -⟩ := tokenize_strict_cases source
    · exact same
    · exact absurd ⟨strict, by simp [warned]⟩ h

/-- Where reading does not fail the source becomes a text, unless a package has no name. -/
lemma ofSource_of_not_fails (h : ¬ o.Fails source) :
    (∃ printed text, ofSource o source = ⟨printed, .ok text⟩ ∧ o.Converts source text) ∨
    ∃ printed, ofSource o source = ⟨printed, .error .namelessPackage⟩ ∧ o.standalone = true ∧
      o.packageNames? = none := by
  -- the tokens of a source are never rejected, so that only the packages are left to fail
  obtain ⟨document, tokens, -⟩ := Document.exists_of_source source
  have made := Document.ofSource_of_ofTokens tokens
  have conversion : ∃ printed, ofSource o source = ⟨printed, latex o document⟩ := by
    simp only [ofSource, tokenize_of_not_fails h, tokenize_lenient, tokens]
    exact ⟨_, rfl⟩
  obtain ⟨printed, conversion⟩ := conversion
  rw [conversion]
  unfold latex
  cases whole : o.standalone with
  | false => exact .inl ⟨printed, _, rfl, .fragment made whole⟩
  | true =>
    cases named : o.packageNames? with
    | none => exact .inr ⟨printed, rfl, rfl, rfl⟩
    | some names => exact .inl ⟨printed, _, rfl, .standalone made whole named⟩

end Conversion

/-- What a conversion of an input comes to: it fails before anything is delivered, or the text is. -/
inductive Outcome (o : Options) (files : FileTree) : Except InputError Text → Result → Prop where
  | unreadable {e err} :
    Outcome o files (.error e) ⟨⟨[], err⟩, some (.exit 2), files⟩
  | unclosed {source err} :
    o.Fails source →
    Outcome o files (.ok source) ⟨⟨[], err⟩, some (.exit 1), files⟩
  | broken {source err reason} :
    ¬ o.Fails source →
    o.Breaks source files reason →
    Outcome o files (.ok source) ⟨⟨[], err⟩, some (.breakdown reason), files⟩
  | done {source err text out after} :
    ¬ o.Fails source →
    o.Converts source text →
    deliver o text files = .ok (out, after) →
    Outcome o files (.ok source) ⟨⟨out, err⟩, none, after⟩

/-- Every conversion of an input comes to one of these. -/
lemma convertOnce_outcome (o : Options) (input : Except FileError (List UInt8)) (files : FileTree) :
    Outcome o files (sourceOf o input) (convertOnce o input files) := by
  unfold convertOnce Attempt.ofInput
  cases sourceOf o input with
  | error e => exact .unreadable
  | ok source =>
    by_cases fails : o.Fails source
    · obtain ⟨u, conversion⟩ := Conversion.ofSource_of_fails fails
      simp only [conversion, Problem.report]
      exact .unclosed fails
    · obtain ⟨printed, text, conversion, converts⟩ | ⟨printed, conversion, whole, nameless⟩ :=
        Conversion.ofSource_of_not_fails fails
      · simp only [conversion]
        obtain ⟨out, after, delivered, -⟩ | ⟨reason, refused, stuck⟩ := o.deliver_cases text files
        · rw [delivered]
          exact .done fails converts delivered
        · rw [refused]
          exact .broken fails (.undelivered converts stuck)
      · simp only [conversion, Problem.report]
        exact .broken fails (.nameless whole nameless)

/-- Where a conversion breaks off, its text is not delivered. -/
lemma Options.Breaks.deliver_ne {o : Options} {source text out : Text} {files after : FileTree}
    {reason : Breakdown} (h : o.Breaks source files reason) (converts : o.Converts source text) :
    deliver o text files ≠ .ok (out, after) := by
  intro delivered
  cases h with
  | nameless whole nameless => exact converts.named whole nameless
  | undelivered converts' stuck =>
    obtain rfl := converts.unique converts'
    cases stuck.deliver_eq.symm.trans delivered

/-- But for what is printed about it, a conversion comes to one thing only. -/
lemma Outcome.unique {o : Options} {files : FileTree} {input : Except InputError Text}
    {result other : Result} (h : Outcome o files input result) (h' : Outcome o files input other) :
    result.failure = other.failure ∧ result.transcript.out = other.transcript.out ∧
      result.files = other.files := by
  cases h with
  | unreadable =>
    cases h' with
    | unreadable => exact ⟨rfl, rfl, rfl⟩
  | unclosed fails =>
    cases h' with
    | unclosed => exact ⟨rfl, rfl, rfl⟩
    | broken success | done success => exact absurd fails success
  | broken success breaks =>
    cases h' with
    | unclosed fails => exact absurd fails success
    | broken _ breaks' =>
      obtain rfl := breaks.unique breaks'
      exact ⟨rfl, rfl, rfl⟩
    | done _ converts delivered => exact absurd delivered (breaks.deliver_ne converts)
  | done success converts delivered =>
    cases h' with
    | unclosed fails => exact absurd fails success
    | broken _ breaks => exact absurd delivered (breaks.deliver_ne converts)
    | done _ converts' delivered' =>
      obtain rfl := converts.unique converts'
      cases delivered.symm.trans delivered'
      exact ⟨rfl, rfl, rfl⟩

end Marktex.Command
