import Mathlib.Tactic.Lemma
import Marktex.Document.Parser

/-!
# Kinds of tokens

Four questions about a kind decide what may be done with a token: whether it is an item
(`Kind.isItem`), whether it stands between two delimiters (`Kind.isDelimited`), whether it can stand in
a list whose markers are of a given sort (`Kind.Joins`), and what its tokens have to carry
(`Kind.Carries`). A token that answers to the last one is `WellMade`.
-/

namespace Marktex

namespace Kind

/-- The kinds of items. -/
def isItem : Kind → Bool
  | .listItem => true
  | .todoItem => true
  | _ => false

/-- The kinds of tokens that stand between two delimiters, and so may go on over several lines. -/
def isDelimited : Kind → Bool
  | .styled .bold => true
  | .styled .italic => true
  | .styled .code => true
  | .styled .inlineMath => true
  | .styled .displayMath => true
  | .codeBlock => true
  | .link => true
  | .image => true
  | _ => false

/-- The kinds whose tokens have several fields. -/
def hasPayload : Kind → Bool
  | .header => true
  | .codeBlock => true
  | .link => true
  | .image => true
  | .todoItem => true
  | _ => false

/-- What tokens of a kind carry: the payload of the kind, or a text if it has none. -/
inductive Carries : Kind → Value → Prop where
  | header {level s} :
    Carries .header (.payload (.header level s))
  | codeBlock {language code} :
    Carries .codeBlock (.payload (.codeBlock language code))
  | link {s url} :
    Carries .link (.payload (.link s url))
  | image {alt source} :
    Carries .image (.payload (.image alt source))
  | todo {s checked} :
    Carries .todoItem (.payload (.todo s checked))
  | text {kind s} :
    hasPayload kind = false →
    Carries kind (.text s)

/-- The kinds of tokens that can stand in a list whose markers are of one sort. -/
def Joins (m : Marker) : Kind → Prop
  | .marker n => n = m
  | .listItem => True
  | .todoItem => True
  | _ => False

/-- Only parts of lists join lists. -/
lemma Joins.isListPart {m : Marker} {kind : Kind} (h : kind.Joins m) : kind.isListPart = true := by
  cases kind with
  | marker | listItem | todoItem => rfl
  | _ => cases h

/-- Items join every list. -/
lemma joins_of_isItem {kind : Kind} (m : Marker) (h : kind.isItem = true) : kind.Joins m := by
  cases kind with
  | listItem | todoItem => trivial
  | _ => cases h

/-- Items are parts of lists. -/
lemma isListPart_of_isItem {kind : Kind} (h : kind.isItem = true) : kind.isListPart = true :=
  (joins_of_isItem .bullet h).isListPart

/-- What is no part of a list is no item. -/
lemma not_isItem_of_not_isListPart {kind : Kind} (h : kind.isListPart = false) :
    kind.isItem = false := by
  rw [← Bool.not_eq_true]
  intro isItem
  rw [isListPart_of_isItem isItem] at h
  cases h

/-- Parts of lists have a meaning. -/
lemma isKnown_of_isListPart {kind : Kind} (h : kind.isListPart = true) : kind.isKnown = true := by
  cases kind with
  | marker | listItem | todoItem => rfl
  | _ => cases h

end Kind

/-- A token that stands for something: its kind has a meaning, and it carries what the kind asks for. -/
structure Token.WellMade (t : Token) : Prop where
  isKnown : t.kind.isKnown = true
  carries : t.kind.Carries t.value

end Marktex
