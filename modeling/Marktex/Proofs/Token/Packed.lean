import Marktex.Proofs.Source.Lookahead
import Marktex.Proofs.Text.Integer
import Marktex.Proofs.Text.Parts
import Marktex.Token.Packed

/-!
# Packed payloads are read back

Packing puts a delimiter behind the first field of a payload and protects no character of the fields, so
that some payloads are not read back from their packed text. `pack_restored` says exactly which ones are:
the first field must not hold the delimiter, and a link or an image must not hold a Markdown link, whose
label and target would be read instead of the fields. Such a find is never right by chance, since it is
longer than the text that is searched (`Payload.labelled_restored_iff`).
-/

namespace Marktex

namespace Text

/-- A text is divided behind a field that does not hold the delimiter. -/
lemma divide_of_not_mem {d : Char} {s : Text} (r : Text) (h : d ∉ s) :
    divide d (s ++ d :: r) = (s, r) := by
  rw [divide, cut?_of_not_mem r h, Option.getD_some]

/-- A text is divided behind a field only if the field does not hold the delimiter. -/
lemma divide_eq_iff {d : Char} {s r : Text} : divide d (s ++ d :: r) = (s, r) ↔ d ∉ s := by
  constructor
  · intro divided
    have delimiter : d ∈ s ++ d :: r := List.mem_append_right s List.mem_cons_self
    obtain ⟨parts, found⟩ := Option.isSome_iff_exists.1 (cut?_of_mem delimiter)
    rw [divide, found, Option.getD_some] at divided
    subst divided
    exact not_mem_of_cut? found
  · exact divide_of_not_mem r

end Text

namespace Payload

/-- The kind of the tokens that carry a payload. -/
def kind : Payload → Kind
  | .header .. => .header
  | .link .. => .link
  | .image .. => .image
  | .codeBlock .. => .codeBlock
  | .todo .. => .todoItem

/-- A payload is read back from its packed text. -/
def Restored (p : Payload) : Prop :=
  unpack? p.kind p.pack = some p

/-- The Markdown link with the given label and target. -/
def markdown (label target : Text) : Text :=
  '[' :: label ++ "](".toList ++ target ++ [')']

/-- Right after an occurrence of `lead`, a text holds a Markdown link: a label in brackets that does not
hold a closing bracket, and a target in parentheses that does not hold a closing parenthesis. -/
def HoldsLink (lead s : Text) : Prop :=
  ∃ before label target after, s = before ++ lead ++ markdown label target ++ after ∧
    ']' ∉ label ∧ ')' ∉ target

/-- A Markdown link is read where one stands, and its label and target are read. -/
lemma labelled?_eq_some_iff {s label target : Text} :
    labelled? s = some (label, target) ↔
      ∃ after, s = markdown label target ++ after ∧ ']' ∉ label ∧ ')' ∉ target := by
  constructor
  · intro h
    unfold labelled? at h
    split at h
    case h_2 => cases h
    case h_1 s =>
      split at h
      case h_2 => cases h
      case h_1 label r bracket =>
        obtain ⟨⟨target, after⟩, parenthesis, same⟩ := Option.map_eq_some_iff.1 h
        cases same
        refine ⟨after, ?_, Text.not_mem_of_cut? bracket, Text.not_mem_of_cut? parenthesis⟩
        rw [Text.append_of_cut? bracket, Text.append_of_cut? parenthesis]
        simp [markdown]
  · rintro ⟨after, rfl, inLabel, inTarget⟩
    have bracket := Text.cut?_of_not_mem ('(' :: target ++ ')' :: after) inLabel
    have parenthesis := Text.cut?_of_not_mem after inTarget
    simp only [List.cons_append] at bracket
    simp [markdown, labelled?, bracket, parenthesis]

/-- What is found as the first Markdown link is one. -/
lemma exists_of_firstLabelled? {lead s label target : Text}
    (h : firstLabelled? lead s = some (label, target)) :
    ∃ before after, s = before ++ lead ++ markdown label target ++ after ∧
      ']' ∉ label ∧ ')' ∉ target := by
  induction s with
  | nil => cases h
  | cons c r ih =>
    rw [firstLabelled?] at h
    split at h
    case h_1 found here =>
      cases h
      obtain ⟨rest, skip, labelled⟩ := Option.bind_eq_some_iff.1 here
      obtain ⟨after, rfl, plain⟩ := labelled?_eq_some_iff.1 labelled
      refine ⟨[], after, ?_, plain⟩
      rw [Text.skip?_eq_some_iff.1 skip, List.nil_append, List.append_assoc]
    case h_2 =>
      obtain ⟨before, after, rfl, plain⟩ := ih h
      exact ⟨c :: before, after, rfl, plain⟩

/-- A Markdown link at the front of a text is the first one. -/
lemma firstLabelled?_front {label target : Text} (lead after : Text) (inLabel : ']' ∉ label)
    (inTarget : ')' ∉ target) :
    firstLabelled? lead (lead ++ markdown label target ++ after) = some (label, target) := by
  have here : labelled? (markdown label target ++ after) = some (label, target) :=
    labelled?_eq_some_iff.2 ⟨after, rfl, inLabel, inTarget⟩
  have skip := Text.skip?_eq_some_iff.2 (List.append_assoc lead (markdown label target) after)
  cases text : lead ++ markdown label target ++ after with
  | nil => simp [markdown] at text
  | cons c r =>
    rw [text] at skip
    rw [firstLabelled?, skip, Option.bind_some, here]

/-- A Markdown link is found if there is one. -/
lemma firstLabelled?_ne_none {lead s : Text} (h : HoldsLink lead s) : firstLabelled? lead s ≠ none := by
  obtain ⟨before, label, target, after, rfl, inLabel, inTarget⟩ := h
  induction before with
  | nil =>
    rw [List.nil_append, firstLabelled?_front lead after inLabel inTarget]
    exact Option.some_ne_none _
  | cons c before ih =>
    simp only [List.cons_append, firstLabelled?]
    split
    · exact Option.some_ne_none _
    · exact ih

/-- A link is found exactly in the texts that hold one. -/
lemma firstLabelled?_eq_none_iff {lead s : Text} : firstLabelled? lead s = none ↔ ¬ HoldsLink lead s := by
  constructor
  · exact fun none holds => firstLabelled?_ne_none holds none
  · intro free
    rw [Option.eq_none_iff_forall_ne_some]
    rintro ⟨label, target⟩ found
    obtain ⟨before, after, link⟩ := exists_of_firstLabelled? found
    exact free ⟨before, label, target, after, link⟩

/-- Two fields with a bar between them are read back exactly if there is no bar in the first one and no
Markdown link in the text. -/
lemma labelled_restored_iff {lead s target : Text} :
    (firstLabelled? lead (s ++ '|' :: target)).getD (Text.divide '|' (s ++ '|' :: target)) = (s, target) ↔
      '|' ∉ s ∧ ¬ HoldsLink lead (s ++ '|' :: target) := by
  rw [← firstLabelled?_eq_none_iff]
  cases found : firstLabelled? lead (s ++ '|' :: target) with
  | none => simp [Text.divide_eq_iff]
  | some link =>
    refine ⟨fun same => ?_, fun free => by cases free.2⟩
    -- the link with these very fields would be longer than the text that holds it
    rw [Option.getD_some] at same
    subst same
    obtain ⟨before, after, whole, -⟩ := exists_of_firstLabelled? found
    have longer := congrArg List.length whole
    simp only [markdown, List.length_append, List.length_cons, List.length_nil, String.length_toList] at longer
    omega

/-- A header is read back if its level does not have more digits than may be read. -/
lemma header_restored {level : Int} (s : Text) (short : level.natAbs < 10 ^ Text.digitLimit) :
    Restored (.header level s) := by
  have colon : ':' ∉ Text.ofInt level := by
    intro member
    obtain minus | digit := Text.mem_ofInt member
    · cases minus
    · cases digit
  simp [Restored, kind, pack, unpack?, Text.divide_of_not_mem s colon, Text.integer?_ofInt short]

/-- A link is restored from its packed text exactly if its label has no bar and the text holds no Markdown
link. -/
lemma link_restored_iff {s url : Text} :
    Restored (.link s url) ↔ '|' ∉ s ∧ ¬ HoldsLink [] (s ++ '|' :: url) := by
  rw [← labelled_restored_iff]
  simp [Restored, kind, pack, unpack?, Prod.ext_iff]

/-- An image is restored from its packed text exactly if its label has no bar and the text holds no Markdown
image. -/
lemma image_restored_iff {alt source : Text} :
    Restored (.image alt source) ↔ '|' ∉ alt ∧ ¬ HoldsLink ['!'] (alt ++ '|' :: source) := by
  rw [← labelled_restored_iff]
  simp [Restored, kind, pack, unpack?, Prod.ext_iff]

/-- A code block is restored from its packed text exactly if its language has no colon. -/
lemma codeBlock_restored_iff {language code : Text} :
    Restored (.codeBlock language code) ↔ ':' ∉ language := by
  rw [← Text.divide_eq_iff (r := code)]
  simp [Restored, kind, pack, unpack?, Prod.ext_iff]

/-- The box of a to-do item is read back, and its text without the blanks around it. -/
lemma unpack?_pack_todo (s : Text) (checked : Bool) :
    unpack? .todoItem (pack (.todo s checked)) = some (.todo s.trim checked) := by
  have blank : Text.trim (' ' :: s) = s.trim := Text.trim_cons_of_isBlank s (by decide)
  have solid (r : Text) : List.dropWhile Text.isBlank (' ' :: '[' :: r) = '[' :: r := by
    rw [List.dropWhile_cons_of_pos (by decide), List.dropWhile_cons_of_neg (by decide)]
  cases checked <;> simp [unpack?, pack, todoLine?, solid, tick?, blank]

/-- An item with a box is restored from its packed text exactly if its text is trimmed. -/
lemma todo_restored_iff {s : Text} {checked : Bool} : Restored (.todo s checked) ↔ s.trim = s := by
  simp [Restored, kind, unpack?_pack_todo]

end Payload

/-- The payloads that are read back from their packed text. A header is if its level does not have more
digits than may be read, whatever its sign and its text. A link or an image is exactly if there is no bar
in its first field and no Markdown link in the packed text, a code block exactly if there is no colon in
its language, and a to-do item exactly if its text is trimmed; the box of a to-do item is always read
back. -/
theorem pack_restored :
    (∀ level s, level.natAbs < 10 ^ Text.digitLimit → (Payload.header level s).Restored) ∧
    (∀ s url, (Payload.link s url).Restored ↔
      '|' ∉ s ∧ ¬ Payload.HoldsLink [] (s ++ '|' :: url)) ∧
    (∀ alt source, (Payload.image alt source).Restored ↔
      '|' ∉ alt ∧ ¬ Payload.HoldsLink ['!'] (alt ++ '|' :: source)) ∧
    (∀ language code, (Payload.codeBlock language code).Restored ↔ ':' ∉ language) ∧
    (∀ s checked, (Payload.todo s checked).Restored ↔ s.trim = s) ∧
    ∀ s checked, ∃ t, Payload.unpack? .todoItem (Payload.pack (.todo s checked)) =
      some (.todo t checked) := by
  refine ⟨fun _ s short => Payload.header_restored s short, fun _ _ => Payload.link_restored_iff,
    fun _ _ => Payload.image_restored_iff, fun _ _ => Payload.codeBlock_restored_iff,
    fun _ _ => Payload.todo_restored_iff, fun s checked => ?_⟩
  exact ⟨s.trim, Payload.unpack?_pack_todo s checked⟩

/-- A level below zero, and a text with colons. -/
theorem pack_restored_negative_level :
    (-42 : Int).natAbs < 10 ^ Text.digitLimit ∧ (Payload.header (-42) "a: b:".toList).Restored :=
  have short : (-42 : Int).natAbs < 10 ^ Text.digitLimit :=
    Nat.lt_of_lt_of_le (by decide : 42 < 10 ^ 2) (Nat.pow_le_pow_right (by decide) (by decide))
  ⟨short, pack_restored.1 _ _ short⟩

end Marktex
