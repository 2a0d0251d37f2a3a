import Marktex.Proofs.Document.Acceptance
import Marktex.Proofs.Document.Alike
import Marktex.Proofs.Token.Lexemes
import Marktex.Proofs.Token.Packed
import Marktex.Proofs.Token.Tiling

/-!
# Packing of tokens

Whether a payload is read back from its packed text depends on its fields. Reading of a source sees to
most of that (`Value.Tidy`): a label ends at its closing bracket and a target at its closing
parenthesis, so that no link can be found in the packed text, and the text of a box is trimmed. What is
left to ask is that no field holds the delimiter that is put behind it (`Value.Apart`). Then the packed
tokens of a source make the document that the tokens make (`ofTokens_pack`).
-/

namespace Marktex

namespace Value

/-- What reading of `length` characters sees to: a level is no higher than there are characters, a label
and a target do not hold what closes them, and the text of a box is trimmed. -/
def Tidy (length : Nat) : Value → Prop
  | .payload (.header level _) => level.natAbs ≤ length
  | .payload (.link s url) => ']' ∉ s ∧ ')' ∉ url
  | .payload (.image alt source) => ']' ∉ alt ∧ ')' ∉ source
  | .payload (.todo s _) => s.trim = s
  | _ => True

/-- No field of a link, an image or a code block holds the delimiter that packing puts behind it. -/
def Apart : Value → Prop
  | .payload (.link s _) => '|' ∉ s
  | .payload (.image alt _) => '|' ∉ alt
  | .payload (.codeBlock language _) => ':' ∉ language
  | _ => True

instance (v : Value) : Decidable v.Apart :=
  match v with
  | .payload (.link s _) => inferInstanceAs (Decidable ('|' ∉ s))
  | .payload (.image alt _) => inferInstanceAs (Decidable ('|' ∉ alt))
  | .payload (.codeBlock language _) => inferInstanceAs (Decidable (':' ∉ language))
  | .payload (.header ..) | .payload (.todo ..) | .text _ | .stray _ => .isTrue trivial

end Value

namespace Payload

/-- No Markdown link stands where no parenthesis closes behind a bracket. -/
lemma not_holdsLink {s target : Text} (lead : Text) (inLabel : ']' ∉ s) (inTarget : ')' ∉ target) :
    ¬ HoldsLink lead (s ++ '|' :: target) := by
  rintro ⟨before, label, url, after, whole, -⟩
  have brackets : s ++ '|' :: target =
      (before ++ lead ++ '[' :: label) ++ ']' :: ('(' :: url ++ ')' :: after) := by
    simp [whole, markdown]
  obtain ⟨more, -, rest⟩ | ⟨more, rfl, rest⟩ := List.append_eq_append_iff.1 brackets
  · -- the bracket closes behind the bar
    cases more with
    | nil => cases rest
    | cons c more =>
      obtain ⟨rfl, rfl⟩ := List.cons.inj rest
      exact inTarget (by simp)
  · cases more with
    | nil => cases rest
    | cons c more =>
      obtain ⟨rfl, -⟩ := List.cons.inj rest
      exact inLabel (by simp)

/-- A payload is read back from its packed text if its fields are tidy and apart. -/
lemma unpack?_pack {kind : Kind} {p : Payload} {length : Nat} (carries : kind.Carries (.payload p))
    (tidy : Value.Tidy length (.payload p)) (short : length < 10 ^ Text.digitLimit)
    (apart : Value.Apart (.payload p)) : unpack? kind p.pack = some p := by
  cases carries with
  | header => exact header_restored _ (Nat.lt_of_le_of_lt tidy short)
  | codeBlock => exact codeBlock_restored_iff.2 apart
  | link => exact link_restored_iff.2 ⟨apart, not_holdsLink [] tidy.1 tidy.2⟩
  | image => exact image_restored_iff.2 ⟨apart, not_holdsLink ['!'] tidy.1 tidy.2⟩
  | todo => exact todo_restored_iff.2 tidy

end Payload

/-- What reading sees to in a lexeme. -/
def Lexeme.Tidy (l : Lexeme) : Prop :=
  l.value.Tidy l.raw.length

namespace Piece

/-- The level of a header counts characters of the source. -/
lemma header_tidy (s : Text) : ∀ l ∈ (header s).lexemes, l.Tidy := by
  intro l member
  obtain rfl := List.mem_singleton.1 member
  simp only [Lexeme.Tidy, Value.Tidy, List.length_append, Int.natAbs_natCast]
  exact Nat.le_add_right _ _

/-- The text of an item with a box is trimmed. -/
lemma item_tidy (s : Text) : (item s).1.Tidy := by
  unfold item
  split
  · exact Text.trim_trim _
  · trivial

/-- Text between delimiters carries no payload. -/
lemma enclosed_tidy (style : Style) (construct : Construct) (delimiter s : Text) :
    ∀ l ∈ (enclosed style construct delimiter s).lexemes, l.Tidy := by
  intro l member
  obtain rfl := List.mem_singleton.1 member
  trivial

/-- The label of a link that is read holds no closing bracket, and its target holds no closing parenthesis.
-/
lemma targeted_tidy {kind : Kind} {construct : Construct} {payload : Text → Text → Payload}
    {lead : Text} (s : Text) (fields : ∀ label target length, ']' ∉ label → ')' ∉ target →
      Value.Tidy length (.payload (payload label target))) :
    ∀ l ∈ (targeted kind construct payload lead s).lexemes, l.Tidy := by
  intro l member
  obtain rfl := List.mem_singleton.1 member
  exact fields _ _ _ (Segment.not_mem_text ']' s)
    fun inside => Segment.not_mem_text ')' _ (Text.mem_of_trim inside)

/-- A lexeme that holds a text is tidy, whatever the text. -/
lemma text_tidy (c : Char) (r : Text) : ∀ l ∈ (text c r).lexemes, l.Tidy := by
  unfold text
  dsimp only
  split <;> intro l member <;> obtain rfl := List.mem_singleton.1 member <;> trivial

/-- Every lexeme of a piece is tidy. -/
theorem read_tidy (lineStart : Bool) (c : Char) (r : Text) :
    ∀ l ∈ (read lineStart c r).lexemes, l.Tidy := by
  unfold read
  split
  case h_1 => exact header_tidy _
  case h_2 m _ =>
    intro l member
    simp only [list, List.mem_cons, List.not_mem_nil, or_false] at member
    obtain rfl | rfl := member
    · trivial
    · exact item_tidy m.rest
  case h_3 =>
    unfold emphasis
    split <;> exact enclosed_tidy _ _ _ _
  case h_4 =>
    unfold code
    split
    · intro l member
      obtain rfl := List.mem_singleton.1 member
      trivial
    · exact enclosed_tidy _ _ _ _
  case h_5 => exact targeted_tidy _ fun _ _ _ label target => ⟨label, target⟩
  case h_6 => exact targeted_tidy _ fun _ _ _ label target => ⟨label, target⟩
  case h_9 =>
    unfold math
    split
    · intro l member
      obtain rfl := List.mem_singleton.1 member
      trivial
    · exact enclosed_tidy _ _ _ _
  case h_11 => exact text_tidy c r
  all_goals
    -- a quotation, a table and a line break hold texts
    intro l member
    obtain rfl := List.mem_singleton.1 member
    trivial

end Piece

namespace Token

/-- The token with its payload packed. -/
def pack (t : Token) : Token :=
  { t with value := t.value.pack }

/-- A token that is packed says what it said, if its payload can be read back. -/
lemma pack_alike {t : Token} (carries : t.kind.Carries t.value)
    (read : ∀ p, t.value = .payload p → Payload.unpack? t.kind p.pack = some p) :
    Token.Alike Eq Eq t t.pack := by
  have content : ∀ c, t.content = .ok c → t.pack.content = .ok c := by
    intro c said
    rw [← said]
    obtain ⟨kind, value, raw, span⟩ := t
    cases carries with
    | text => rfl
    | todo => simp [pack, Value.pack, Token.content, Token.item, unpacked, Value.unpack, read _ rfl]
    | _ => simp [pack, Value.pack, Token.content, unpacked, Value.unpack, read _ rfl]
  have item : ∀ i, t.item = .ok i → t.pack.item = .ok i := by
    intro i said
    rw [← said]
    obtain ⟨kind, value, raw, span⟩ := t
    cases carries with
    | text => rfl
    | todo => simp [pack, Value.pack, Token.item, unpacked, Value.unpack, read _ rfl]
    | _ => cases said
  refine ⟨rfl, ⟨rfl, rfl⟩, fun c said => ?_, fun i said => ?_⟩
  · exact ⟨c, content c said, Content.alike_eq ▸ rfl⟩
  · exact ⟨i, item i said, Item.alike_eq ▸ rfl⟩

/-- No token of a source is longer than the source. -/
lemma length_raw_le {source : Text} {t : Token} (member : t ∈ (tokenize false source).tokens) :
    t.raw.length ≤ source.length := by
  rw [(tokenize_eq source).1, List.mem_append] at member
  obtain here | last := member
  · have whole : _ = source := Reading.all_raws (Cursor.start source)
    obtain ⟨before, after, tokens⟩ := List.append_of_mem here
    rw [← whole, tokens]
    simp only [List.flatMap_append, List.flatMap_cons, List.length_append]
    omega
  · obtain rfl := List.mem_singleton.1 last
    exact Nat.zero_le _

end Token

/-- A token that is packed carries a text, if it carried what its kind asks for. -/
lemma Token.pack_text {t : Token} (carries : t.kind.Carries t.value) : ∃ s, t.pack.value = .text s := by
  obtain ⟨kind, value, raw, span⟩ := t
  cases carries <;> exact ⟨_, rfl⟩

/-- The tokens of a source make the same document when their payloads are packed, and so the same LaTeX
text, provided that no field holds the delimiter behind it and that the source is not so long that a level
could have more digits than may be read. All of the packed tokens carry texts. -/
theorem ofTokens_pack {source : Text} (short : source.length < 10 ^ Text.digitLimit)
    (apart : ∀ t ∈ (tokenize false source).tokens, t.value.Apart) :
    ∃ document, Document.ofTokens (tokenize false source).tokens = .ok document ∧
      Document.ofTokens ((tokenize false source).tokens.map Token.pack) = .ok document ∧
      Latex.convert false source = .ok document.toLatex ∧
      ∀ t ∈ (tokenize false source).tokens.map Token.pack, ∃ s, t.value = .text s := by
  obtain ⟨document, made, latex⟩ := Document.exists_of_source source
  have alike : List.Forall₂ (Token.Alike Eq Eq) (tokenize false source).tokens
      ((tokenize false source).tokens.map Token.pack) := by
    rw [List.forall₂_map_right_iff, List.forall₂_same]
    intro t member
    have carries := Token.carries_of_source t member
    have tidy : t.lexeme.Tidy := tokenize_lexemes Piece.read_tidy trivial source t member
    refine Token.pack_alike carries fun p payload => ?_
    rw [payload] at carries
    have length := Nat.lt_of_le_of_lt (Token.length_raw_le member) short
    exact Payload.unpack?_pack carries (payload ▸ tidy) length (payload ▸ apart t member)
  obtain ⟨packed, again, same⟩ := Document.ofTokens_alike alike rfl made
  refine ⟨document, made, same.eq ▸ again, latex, List.forall_mem_map.2 fun t member => ?_⟩
  exact Token.pack_text (Token.carries_of_source t member)

/-- All kinds of payloads, with the delimiters behind the fields that must not hold them. -/
theorem ofTokens_pack_every_kind :
    ∃ source document, source.length < 10 ^ Text.digitLimit ∧
      (tokenize false source).tokens.map Token.kind =
        [.header, .link, .image, .lineBreak, .codeBlock, .marker .bullet, .todoItem, .ending] ∧
      Document.ofTokens (tokenize false source).tokens = .ok document ∧
      Document.ofTokens ((tokenize false source).tokens.map Token.pack) = .ok document ∧
      Latex.convert false source = .ok document.toLatex ∧
      ((tokenize false source).tokens.map Token.pack).map Token.value =
        ["1:a: [b](c)".toList, "d:|e|f".toList, "g:|h|i".toList, ['\n'], "j|:k:l".toList, [],
          "- [x] m|n: o".toList, []].map .text :=
  have short : "# a: [b](c)\n[d:](e|f)![g:](h|i)\n```j|\nk:l\n```\n- [x] m|n: o".toList.length <
      10 ^ Text.digitLimit :=
    Nat.lt_of_lt_of_le (by decide : _ < 10 ^ 2) (Nat.pow_le_pow_right (by decide) (by decide))
  have ⟨document, made, again, latex, _⟩ := ofTokens_pack short (by decide +kernel)
  ⟨_, document, short, rfl, made, again, latex, by decide +kernel⟩

end Marktex
