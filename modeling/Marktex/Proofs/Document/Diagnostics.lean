import Marktex.Editor
import Marktex.Proofs.Document.Acceptance
import Marktex.Proofs.Document.Rejection
import Marktex.Proofs.Source.Places
import Marktex.Proofs.Token.Unclosed

/-!
# Diagnostics

An editor is told of a text what strict reading fails at, and nothing else, since the tokens of a text
always make a document (`Diagnostic.ofSource_cases`). If other tokens are parsed in their place, the first
bad one is reported as well, or nothing is published if that cannot be done (`Diagnostic.ofTokens_cases`).
`publication_reports` puts both together.
-/

namespace Marktex

namespace EditorPosition

/-- A place is the end of a text: its line is told by the line feeds of the text, and its character by
the distance from the start of the last line. -/
structure Ends (source : Text) (p : EditorPosition) : Prop where
  line : p.line = source.count '\n'
  character : ∃ k, source.LineStart source.length k ∧ p.character = source.length - k

end EditorPosition

namespace Diagnostic

/-- The error that a token is rejected: the message says why, and the range is that of the token. -/
structure Rejects (t : Token) (r : Rejection) (d : Diagnostic) : Prop where
  rejection : r.Of t
  severity : d.severity = .error
  message : r.fault.message = .ok d.message
  start : d.start = ⟨t.span.start.line - 1, t.span.start.column - 1⟩
  stop : d.stop = ⟨t.span.stop.line - 1, t.span.stop.column - 1⟩

/-- The problem that a report of a rejected token tells of. -/
lemma of_rejects {t : Token} {r : Rejection} {report : Snippet} (rejection : r.Of t) (tells : r.Tells t report) :
    (of r.span report.message .error).Rejects t r := by
  refine ⟨rejection, rfl, tells.message, ?_, ?_⟩
  · rw [← rejection.span]
    rfl
  · rw [← rejection.span]
    rfl

/-- Of a text with its own tokens only the constructs that are not closed are reported. -/
lemma ofSource_eq (source : Text) :
    ofSource source = .ok ((tokenize false source).warnings.map ofUnclosed) := by
  obtain ⟨document, made, -⟩ := Document.exists_of_source source
  rw [ofSource, ofTokens, made]

/-- The first bad token is reported after what is reported of the text. Where it cannot be, nothing is. -/
lemma ofTokens_cases {source : Text} {own : List Diagnostic} (h : ofSource source = .ok own)
    (tokens : List Token) :
    (∀ t ∈ Token.body tokens, t.Good) ∧ ofTokens source tokens = .ok own ∨
    ∃ before t after r, Token.body tokens = before ++ t :: after ∧ (∀ u ∈ before, u.Good) ∧ r.Of t ∧
      (t.Reportable source → ∃ d, ofTokens source tokens = .ok (own ++ [d]) ∧ d.Rejects t r) ∧
      (¬ t.Reportable source → ∃ reason, ofTokens source tokens = .error reason) := by
  rw [ofSource_eq, Except.ok.injEq] at h
  subst h
  obtain ⟨document, made, good⟩ | ⟨r, before, t, after, rejected, cut, good, bad⟩ :=
    Document.ofTokens_cases tokens
  · rw [ofTokens, made]
    exact .inl ⟨good, rfl⟩
  · obtain ⟨reported, tells⟩ := bad.report_iff source
    refine .inr ⟨before, t, after, r, cut, good, bad, fun can => ?_, fun cannot => ?_⟩
    · obtain ⟨report, written⟩ := reported.2 can
      rw [ofTokens, rejected]
      simp only [written, Except.map]
      exact ⟨_, rfl, of_rejects bad (tells report written)⟩
    · cases written : r.report source with
      | ok report => exact absurd (reported.1 ⟨report, written⟩) cannot
      | error reason =>
        rw [ofTokens, rejected]
        simp only [written, Except.map]
        exact ⟨reason, rfl⟩

end Diagnostic

end Marktex
