import Marktex.Proofs.Token.Lexemes
import Marktex.Proofs.Token.Packed
import Marktex.Proofs.Token.Shape
import Marktex.Proofs.Token.Strictness

/-!
# Links are delimited alike

A Markdown link is read in two places: the lexer takes it from a source, label and target each up to its
closing bracket, and unpacking searches a text for the first one. Where the lexer finds the parenthesis that
closes the target, the source text of the link is a Markdown link from its front to its end
(`Piece.targeted_closed`), and so unpacking finds that very link. `tokenize_unpacks` says so of every link and
image that is not reported as open. What is shown of the pieces in which nothing stays open holds of every
token that is not reported (`tokenize_unreported`).
-/

namespace Marktex

/-- Two payloads are the same link, or the same image, where the first one does not have the blanks around the
address of the second one. -/
inductive Payload.TrimmedFrom : Payload → Payload → Prop where
  | link {s url} :
    TrimmedFrom (.link s (Text.trim url)) (.link s url)
  | image {alt source} :
    TrimmedFrom (.image alt (Text.trim source)) (.image alt source)

/-- The source text of a lexeme, if it is unpacked, stands for the payload that the lexeme carries, but for
blanks around the address. -/
def Lexeme.Unpacks (l : Lexeme) : Prop :=
  ∃ p q, l.value = .payload p ∧ Value.unpack l.kind l.raw = .payload q ∧ p.TrimmedFrom q

namespace Piece

/-- A label and a target that are both closed are read up to their ends, whatever else they hold. -/
lemma targeted_closed (kind : Kind) (construct : Construct) (payload : Text → Text → Payload)
    (lead after : Text) {label target : Text} (inLabel : ']' ∉ label) (inTarget : ')' ∉ target) :
    targeted kind construct payload lead (label ++ ']' :: '(' :: (target ++ ')' :: after)) =
      ⟨[⟨kind, .payload (payload label target.trim), lead ++ label ++ "](".toList ++ target ++ [')']⟩],
        after, []⟩ := by
  have inner := Segment.upTo_of_not_mem ('(' :: (target ++ ')' :: after)) inLabel
  have outer := Segment.upTo_of_not_mem after inTarget
  simp only [targeted, inner, List.drop_succ_cons, List.drop_zero, outer, OpenEnd.of]
  simp

/-- A target that does not stay open has a closing parenthesis. -/
lemma mem_of_targeted {kind : Kind} {construct : Construct} {payload : Text → Text → Payload}
    {lead label r : Text} (inLabel : ']' ∉ label)
    (h : (targeted kind construct payload lead (label ++ ']' :: '(' :: r)).openEnds = []) : ')' ∈ r := by
  have inner := Segment.upTo_of_not_mem ('(' :: r) inLabel
  simp only [targeted, inner, List.drop_succ_cons, List.drop_zero, List.append_eq_nil_iff, OpenEnd.of] at h
  rw [← List.singleton_infix_iff]
  exact Segment.infix_of_closed (by simpa using h.2)

/-- A link or an image in which nothing stays open is a Markdown link with the label and the target that it
carries, behind what leads to its bracket. -/
lemma targeted_markdown {kind : Kind} {construct : Construct} {payload : Text → Text → Payload}
    {r : Text} (lead : Text) (opens : Source.opensTarget ('[' :: r) = true)
    (closed : (targeted kind construct payload (lead ++ ['[']) r).openEnds = []) :
    ∀ l ∈ (targeted kind construct payload (lead ++ ['[']) r).lexemes,
      ∃ label target, ']' ∉ label ∧ ')' ∉ target ∧
        l = ⟨kind, .payload (payload label target.trim), lead ++ Payload.markdown label target⟩ := by
  obtain ⟨label, after, front, plain⟩ := Source.exists_of_opensTarget opens
  obtain rfl : r = label ++ ']' :: '(' :: after := by simpa using front
  have inLabel : ']' ∉ label := fun member => (plain _ member).1 rfl
  obtain ⟨target, rest, rfl, inTarget⟩ := List.eq_append_cons_of_mem (mem_of_targeted inLabel closed)
  rw [targeted_closed kind construct payload _ rest inLabel inTarget]
  intro l member
  refine ⟨label, target, inLabel, inTarget, (List.mem_singleton.1 member).trans ?_⟩
  simp [Payload.markdown]

/-- A link in which nothing stays open is found when its source text is unpacked. -/
lemma link_unpacks {r : Text} (opens : Source.opensTarget ('[' :: r) = true)
    (closed : (targeted .link .link .link ['['] r).openEnds = []) :
    ∀ l ∈ (targeted .link .link .link ['['] r).lexemes, l.Unpacks := by
  intro l member
  obtain ⟨label, target, inLabel, inTarget, rfl⟩ := targeted_markdown [] opens closed l member
  have found := Payload.firstLabelled?_front [] [] inLabel inTarget
  rw [List.append_nil] at found
  refine ⟨_, .link label target, rfl, ?_, .link⟩
  simp only [Value.unpack, Payload.unpack?, found, Option.getD_some]

/-- An image in which nothing stays open is found when its source text is unpacked. -/
lemma image_unpacks {r : Text} (opens : Source.opensTarget ('[' :: r) = true)
    (closed : (targeted .image .image .image "![".toList r).openEnds = []) :
    ∀ l ∈ (targeted .image .image .image "![".toList r).lexemes, l.Unpacks := by
  intro l member
  obtain ⟨label, target, inLabel, inTarget, rfl⟩ := targeted_markdown ['!'] opens closed l member
  have found := Payload.firstLabelled?_front ['!'] [] inLabel inTarget
  rw [List.append_nil] at found
  refine ⟨_, .image label target, rfl, ?_, .image⟩
  simp only [Value.unpack, Payload.unpack?, found, Option.getD_some]

/-- Every link and every image in which nothing stays open is found when its source text is unpacked. -/
theorem read_unpacks {lineStart : Bool} {c : Char} {r : Text} (closed : (read lineStart c r).openEnds = []) :
    ∀ l ∈ (read lineStart c r).lexemes, l.kind = .link ∨ l.kind = .image → l.Unpacks := by
  intro l member kind
  have fits := Opening.fits lineStart c r
  have yields := read_yields lineStart c r l member
  unfold read at closed member
  rcases kind with kind | kind <;> rw [kind] at yields
  · generalize Opening.of lineStart c r = opening at fits yields closed member
    cases yields with
    | item isItem => cases isItem
    | link =>
      obtain ⟨label, after, front, -⟩ := Source.exists_of_opensTarget fits
      obtain ⟨rfl, -⟩ := List.cons.inj front
      exact link_unpacks fits closed l member
  · generalize Opening.of lineStart c r = opening at fits yields closed member
    cases yields with
    | item isItem => cases isItem
    | image =>
      obtain ⟨label, after, rfl, -⟩ := Source.exists_of_opensTarget fits.2
      exact image_unpacks fits.2 closed l member

end Piece

section Unreported

variable {P : Lexeme → Prop}

/-- `P` holds of what the tokens of a reading were made from, or they are reported. -/
def Reading.Unreported (P : Lexeme → Prop) (reading : Reading) : Prop :=
  ∀ t ∈ reading.tokens, (∀ u ∈ reading.warnings, u.span ≠ t.span) → P t.lexeme

/-- A reading without tokens has none that could be wrong. -/
lemma Reading.Unreported.of_nil {reading : Reading} (h : reading.tokens = []) : Unreported P reading := by
  simp [Unreported, h]

/-- What is read in turn is read together. -/
lemma Reading.Unreported.andThen {first : Reading} {next : Cursor → Reading} (h : Unreported P first)
    (h' : first.failure = none → Unreported P (next first.cursor)) : Unreported P (first.andThen next) := by
  cases failure : first.failure with
  | some u =>
    simp only [Reading.andThen, failure]
    exact h
  | none =>
    simp only [Reading.andThen, failure]
    intro t member still
    rcases List.mem_append.1 member with here | later
    · exact h t here fun u warned => still u (List.mem_append_left _ warned)
    · exact h' failure t later fun u warned => still u (List.mem_append_right _ warned)

section Pieces

variable (h : ∀ lineStart c r, (Piece.read lineStart c r).openEnds = [] →
  ∀ l ∈ (Piece.read lineStart c r).lexemes, P l)

include h

/-- A piece in which something stays open is one token, which is reported. -/
lemma Reading.step_unreported (strict : Bool) {cursor : Cursor} {c : Char} {r : Text}
    (front : cursor.rest = c :: r) : (step strict cursor).Unreported P := by
  rcases step_cases strict front with ⟨-, u, failed⟩ | ⟨-, lenient⟩
  · rw [failed]
    exact .of_nil rfl
  · have pieces := h cursor.lineStart c r
    have ends := Piece.read_ends cursor.lineStart c r
    rw [lenient, step_lenient front]
    generalize Piece.read cursor.lineStart c r = piece at *
    intro t member still
    cases ends with
    | @closed lexemes rest =>
      apply pieces rfl
      rw [← Lexeme.lexeme_place cursor.position lexemes]
      exact List.mem_map_of_mem member
    | @cut lexeme construct =>
      obtain rfl := List.mem_singleton.1 member
      exact absurd rfl (still _ List.mem_cons_self)

/-- All pieces that are left are read to tokens that hold what the property says, or that are reported. -/
lemma Reading.all_unreported (strict : Bool) (cursor : Cursor) : (all strict cursor).Unreported P := by
  induction cursor using Cursor.pieces_rec with
  | ending cursor ends =>
    rw [all_ending strict ends]
    exact .of_nil rfl
  | piece cursor c r front ih =>
    rw [all_piece strict (by simp [front])]
    refine (step_unreported h strict front).andThen fun success => ?_
    rw [step_strict_eq_lenient success, step_lenient front]
    exact ih

/-- What holds of the lexemes of all pieces in which nothing stays open, and of the end of the input, holds of
every token of a source that is not reported. -/
lemma tokenize_unreported (ending : P ⟨.ending, .text [], []⟩) (strict : Bool) (source : Text) :
    (tokenize strict source).Unreported P := by
  refine (Reading.all_unreported h strict (Cursor.start source)).andThen fun _ t member _ => ?_
  obtain rfl := List.mem_singleton.1 member
  exact ending

end Pieces

end Unreported

/-- Lexing and unpacking agree on where the label and the target of a link end: the source text of every link
and every image of a source that is not reported as open, whatever brackets, bars and line ends it holds,
unpacks to the same payload as the token carries, but for the blanks around the address. -/
theorem tokenize_unpacks (strict : Bool) (source : Text) (t : Token)
    (member : t ∈ (tokenize strict source).tokens) (kind : t.kind = .link ∨ t.kind = .image)
    (closed : ∀ u ∈ (tokenize strict source).warnings, u.span ≠ t.span) :
    ∃ p q, t.value = .payload p ∧ Value.unpack t.kind t.raw = .payload q ∧ p.TrimmedFrom q :=
  tokenize_unreported (P := fun l => l.kind = .link ∨ l.kind = .image → l.Unpacks)
    (fun _ _ _ closed => Piece.read_unpacks closed) nofun strict source t member closed kind

/-- An image with brackets, bars and a line end, in front of one that stays open. -/
theorem tokenize_unpacks_nested :
    ∃ t ∈ (tokenize false "a ![b[(|](\n[c](d|e ) ![f](g".toList).tokens,
      t.kind = .image ∧
      (∀ u ∈ (tokenize false "a ![b[(|](\n[c](d|e ) ![f](g".toList).warnings, u.span ≠ t.span) ∧
      t.value = .payload (.image "b[(|".toList "[c](d|e".toList) ∧
      ∃ p q, t.value = .payload p ∧ Value.unpack t.kind t.raw = .payload q ∧ p.TrimmedFrom q :=
  have member := List.mem_of_getElem? (show (tokenize false _).tokens[1]? = some _ from rfl)
  have closed := by decide
  ⟨_, member, rfl, closed, rfl, tokenize_unpacks false _ _ member (.inr rfl) closed⟩

end Marktex
