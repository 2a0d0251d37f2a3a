import Marktex.Proofs.Token.Kinds

/-!
# Blocks of tokens

A stream of tokens is cut from left to right into blocks (`Token.Blocks`): every token that is no part
of a list is a block, and a list block is a run of markers and items, with markers of one sort, that
the token after it does not go on. There is only one way to do this (`Blocks.unique`), since of two
runs at the same front the shorter one would not have stopped there.
-/

namespace Marktex

namespace Token

/-- The tokens of a stream without the token that ends it, if there is one. -/
def body (tokens : List Token) : List Token :=
  if tokens.getLast?.map Token.kind = some .ending then tokens.dropLast else tokens

/-- The items among some tokens. -/
def itemsOf (ts : List Token) : List Token :=
  ts.filter fun t => t.kind.isItem

/-- A run: all of its tokens can stand in one list. -/
def Run (ts : List Token) : Prop :=
  ∃ m, ∀ t ∈ ts, t.kind.Joins m

/-- Tokens cut from left to right into blocks. A token that is no part of a list is a block of its own.
A list block is a run that is no longer one with the token after it. -/
inductive Blocks : List Token → List (List Token) → Prop where
  | nil :
    Blocks [] []
  | alone {t ts bs} :
    t.kind.isListPart = false →
    Blocks ts bs →
    Blocks (t :: ts) ([t] :: bs)
  | list {b ts bs} :
    b ≠ [] →
    Run b →
    (∀ t ∈ ts.head?, ¬ Run (b ++ [t])) →
    Blocks ts bs →
    Blocks (b ++ ts) (b :: bs)

/-- The tokens before the last one are tokens of the stream. -/
lemma body_subset (tokens : List Token) : body tokens ⊆ tokens := by
  unfold body
  split
  · exact List.dropLast_subset tokens
  · exact List.Subset.refl tokens

/-- An item is the first item among tokens that start with it. -/
lemma itemsOf_cons {t : Token} {ts : List Token} (h : t.kind.isItem = true) :
    itemsOf (t :: ts) = t :: itemsOf ts :=
  List.filter_cons_of_pos h

/-- Other tokens do not matter for the items. -/
lemma itemsOf_cons_of_not {t : Token} {ts : List Token} (h : t.kind.isItem = false) :
    itemsOf (t :: ts) = itemsOf ts :=
  List.filter_cons_of_neg (by rw [h]; exact Bool.false_ne_true)

/-- The items among some tokens are those that are items. -/
lemma mem_itemsOf {t : Token} {ts : List Token} :
    t ∈ itemsOf ts ↔ t ∈ ts ∧ t.kind.isItem = true :=
  List.mem_filter

/-- A part of a run is a run. -/
lemma Run.mono {ts us : List Token} (h : Run us) (sub : ∀ t ∈ ts, t ∈ us) : Run ts := by
  obtain ⟨m, joins⟩ := h
  exact ⟨m, fun t member => joins t (sub t member)⟩

/-- A token that is no part of a list is in no run. -/
lemma Run.isListPart {ts : List Token} {t : Token} (h : Run ts) (member : t ∈ ts) :
    t.kind.isListPart = true := by
  obtain ⟨m, joins⟩ := h
  exact (joins t member).isListPart

/-- No run starts with a token that is no part of a list. -/
lemma not_run_cons {t : Token} {ts : List Token} (single : t.kind.isListPart = false) :
    ¬ Run (t :: ts) := by
  intro run
  rw [run.isListPart List.mem_cons_self] at single
  cases single

/-- An item goes on with every run. -/
lemma Run.concat {ts : List Token} {t : Token} (h : Run ts) (isItem : t.kind.isItem = true) :
    Run (ts ++ [t]) := by
  obtain ⟨m, joins⟩ := h
  refine ⟨m, fun u member => ?_⟩
  rw [List.mem_append, List.mem_singleton] at member
  obtain member | rfl := member
  · exact joins u member
  · exact Kind.joins_of_isItem m isItem

/-- Of two runs at the front of the same tokens, one that the next token does not go on is not the
shorter one. -/
lemma Run.eq_nil_of_maximal {b s ts : List Token} (h : Run (b ++ s))
    (maximal : ∀ t ∈ (s ++ ts).head?, ¬ Run (b ++ [t])) : s = [] := by
  cases s with
  | nil => rfl
  | cons t s =>
    refine absurd (h.mono fun u member => ?_) (maximal t rfl)
    rw [List.mem_append, List.mem_singleton] at member
    obtain member | rfl := member
    · exact List.mem_append_left _ member
    · simp

/-- There is only one way to cut tokens into blocks. -/
theorem Blocks.unique {ts : List Token} {bs cs : List (List Token)} (h : Blocks ts bs)
    (h' : Blocks ts cs) : bs = cs := by
  induction h generalizing cs with
  | nil =>
    generalize e : ([] : List Token) = us at h'
    cases h' with
    | nil => rfl
    | alone => cases e
    | list front => exact absurd (List.append_eq_nil_iff.1 e.symm).1 front
  | @alone t ts bs single _ ih =>
    generalize e : t :: ts = us at h'
    cases h' with
    | nil => cases e
    | alone _ rest =>
      cases e
      rw [ih rest]
    | @list b us cs front run =>
      obtain ⟨u, b, rfl⟩ := List.exists_cons_of_ne_nil front
      cases e
      exact absurd run (not_run_cons single)
  | @list b ts bs front run maximal _ ih =>
    generalize e : b ++ ts = us at h'
    cases h' with
    | nil => exact absurd (List.append_eq_nil_iff.1 e).1 front
    | alone single =>
      obtain ⟨u, b, rfl⟩ := List.exists_cons_of_ne_nil front
      cases e
      exact absurd run (not_run_cons single)
    | @list b' ts' cs _ run' maximal' rest =>
      -- two runs at the same front that neither goes on with its next token are the same
      obtain ⟨s, rfl, rfl⟩ | ⟨s, rfl, rfl⟩ := List.append_eq_append_iff.1 e
      · obtain rfl := run'.eq_nil_of_maximal maximal
        rw [List.append_nil] at *
        rw [ih (by simpa using rest)]
      · obtain rfl := run.eq_nil_of_maximal maximal'
        rw [List.append_nil] at *
        rw [ih (by simpa using rest)]

/-- Nothing is lost, repeated or moved by cutting tokens into blocks. -/
lemma Blocks.flatten_eq {ts : List Token} {bs : List (List Token)} (h : Blocks ts bs) :
    bs.flatten = ts := by
  induction h with
  | nil => rfl
  | alone _ _ ih => rw [List.flatten_cons, ih, List.singleton_append]
  | list _ _ _ _ ih => rw [List.flatten_cons, ih]

end Token

end Marktex
