import Mathlib.Data.List.TakeWhile
import Mathlib.Tactic.Lemma
import Marktex.Token.Piece

/-!
# Openings

What the front of a source opens is told by few facts about the source (`Opening.of_congr`). List markers
and boxes stand on one line, and a list marker is what `Marker.Opens` says (`ListMarker.at?_opens`). At
the start of a line, number signs, greater-than signs, bars and list markers are never taken for anything
else: see `Opening.of_header_iff` and the lemmas after it.
-/

namespace Marktex

/-- No line ends in a stretch that stops at line ends. -/
lemma Text.line_feed_not_mem_takeWhile {p : Char → Bool} (stop : p '\n' = false) (s : Text) :
    '\n' ∉ s.takeWhile p := by
  intro member
  rw [List.mem_takeWhile_imp member] at stop
  cases stop

/-- What stands at the front of a source that begins an item of a list: a bullet, or digits with a period
or a parenthesis, and then a space or a tab. -/
inductive Marker.Opens : Marker → Text → Prop where
  | bullet {c b r} :
    c = '-' ∨ c = '+' ∨ c = '*' →
    Text.isSpaceOrTab b = true →
    Opens .bullet (c :: b :: r)
  | ordinal {c digits d b r} :
    (∀ e ∈ c :: digits, Digit.isDigit e = true) →
    d = '.' ∨ d = ')' →
    Text.isSpaceOrTab b = true →
    Opens .ordinal (c :: digits ++ d :: b :: r)

namespace ListMarker

/-- What is read as a bullet or a number is one. -/
lemma bare?_cases {s : Text} {m : ListMarker} (h : bare? s = some m) :
    (∃ c r, s = c :: r ∧ (c = '-' ∨ c = '+' ∨ c = '*') ∧ m = ⟨.bullet, [c], r⟩) ∨
      ∃ c digits d r, s = c :: digits ++ d :: r ∧ (∀ e ∈ c :: digits, Digit.isDigit e = true) ∧
        (d = '.' ∨ d = ')') ∧ m = ⟨.ordinal, c :: digits ++ [d], r⟩ := by
  unfold bare? at h
  split at h
  case h_1 => cases h
  case h_2 c r =>
    split at h
    case isTrue bullet =>
      cases h
      exact .inl ⟨c, r, rfl, bullet, rfl⟩
    case isFalse =>
      split at h
      case isFalse => cases h
      case isTrue digit =>
        have whole := List.takeWhile_append_dropWhile (p := Digit.isDigit) (l := r)
        split at h
        case h_1 => cases h
        case h_2 d after front =>
          split at h
          case isFalse => cases h
          case isTrue stop =>
            cases h
            refine .inr ⟨c, r.takeWhile Digit.isDigit, d, after, ?_, ?_, stop, rfl⟩
            · rw [List.cons_append, ← front, whole]
            · rw [List.forall_mem_cons]
              exact ⟨digit, fun e member => List.mem_takeWhile_imp member⟩

/-- A bare list marker holds no line feed. -/
lemma bare?_plain {s : Text} {m : ListMarker} (h : bare? s = some m) : '\n' ∉ m.raw := by
  obtain ⟨c, r, -, bullet, rfl⟩ | ⟨c, digits, d, r, -, number, stop, rfl⟩ := bare?_cases h
  · obtain rfl | rfl | rfl := bullet <;> simp
  · intro member
    obtain member | last := List.mem_append.1 member
    · have digit := number _ member
      revert digit
      decide
    · obtain rfl := List.mem_singleton.1 last
      revert stop
      decide

/-- A list marker is on one line. -/
lemma at?_plain {s : Text} {m : ListMarker} (h : at? s = some m) : '\n' ∉ m.raw := by
  rw [at?, Option.bind_eq_some_iff] at h
  obtain ⟨bare, found, h⟩ := h
  have blanks := Text.line_feed_not_mem_takeWhile (p := Text.isSpaceOrTab) rfl bare.rest
  split at h
  case h_1 => cases h
  case h_2 b rest front =>
    cases h
    rw [List.mem_append, not_or]
    exact ⟨bare?_plain found, front ▸ blanks⟩

/-- The line goes on behind a bullet or a number. -/
lemma mem_bare?_rest {s : Text} {m : ListMarker} (found : bare? s = some m) (h : '\n' ∈ s) :
    '\n' ∈ m.rest := by
  rw [← bare?_append found, List.mem_append] at h
  exact h.resolve_left (bare?_plain found)

/-- The line goes on behind a list marker. -/
lemma mem_at?_rest {s : Text} {m : ListMarker} (found : at? s = some m) (h : '\n' ∈ s) :
    '\n' ∈ m.rest := by
  rw [← at?_append found, List.mem_append] at h
  exact h.resolve_left (at?_plain found)

/-- Digits with a period or a parenthesis are what is read as a number. -/
lemma bare?_ordinal {c d : Char} {digits : Text} (r : Text)
    (number : ∀ e ∈ c :: digits, Digit.isDigit e = true) (stop : d = '.' ∨ d = ')') :
    bare? (c :: digits ++ d :: r) = some ⟨.ordinal, c :: digits ++ [d], r⟩ := by
  obtain ⟨digit, more⟩ := List.forall_mem_cons.1 number
  have other : ¬ (c = '-' ∨ c = '+' ∨ c = '*') := by
    rintro (rfl | rfl | rfl) <;> revert digit <;> decide
  have last : Digit.isDigit d = false := by
    obtain rfl | rfl := stop <;> decide
  rw [List.cons_append, bare?, if_neg other, if_pos digit, List.takeWhile_append_of_pos more,
    List.dropWhile_append_of_pos more, List.takeWhile_cons_of_neg (by simp [last]),
    List.dropWhile_cons_of_neg (by simp [last])]
  simp [stop]

/-- A list marker is read exactly where one stands. -/
lemma at?_opens {s : Text} {m : Marker} :
    (∃ found, at? s = some found ∧ found.marker = m) ↔ m.Opens s := by
  constructor
  · rintro ⟨found, h, rfl⟩
    obtain ⟨bare, read, h⟩ := Option.bind_eq_some_iff.1 h
    split at h
    case h_1 => cases h
    case h_2 b blanks front =>
      cases h
      have blank : Text.isSpaceOrTab b = true :=
        List.mem_takeWhile_imp (front ▸ List.mem_cons_self)
      have rest : bare.rest = b :: (blanks ++ bare.rest.dropWhile Text.isSpaceOrTab) := by
        rw [← List.cons_append, ← front, List.takeWhile_append_dropWhile]
      obtain ⟨c, r, rfl, bullet, rfl⟩ | ⟨c, digits, d, r, rfl, number, stop, rfl⟩ := bare?_cases read
      · rw [show r = _ from rest]
        exact .bullet bullet blank
      · rw [show r = _ from rest]
        exact .ordinal number stop blank
  · intro h
    cases h with
    | bullet bullet blank => simp [at?, bare?, bullet, blank]
    | ordinal number stop blank =>
      rw [at?, bare?_ordinal _ number stop]
      simp [blank]

/-- No list marker is read where neither a bullet nor a digit stands. -/
lemma at?_eq_none {c : Char} (r : Text) (bullet : ¬ (c = '-' ∨ c = '+' ∨ c = '*'))
    (digit : Digit.isDigit c = false) : at? (c :: r) = none := by
  simp [at?, bare?, bullet, digit]

/-- A mark of emphasis is no bullet if neither a space nor a tab follows it. -/
lemma at?_of_mark {mark c : Char} (r : Text) (h : mark = '*' ∨ mark = '_')
    (solid : mark = '*' → Text.isSpaceOrTab c = false) : at? (mark :: c :: r) = none := by
  rcases h with rfl | rfl
  · simp [at?, bare?, solid rfl]
  · exact at?_eq_none (c :: r) (by decide) (by decide)

end ListMarker

namespace Piece

/-- A box is on one line. -/
lemma box?_plain {s : Text} {checked : Bool} {box : Taken} (h : box? s = some (checked, box)) :
    '\n' ∉ box.raw := by
  unfold box? at h
  split at h
  case h_2 => cases h
  case h_1 mark r =>
    have blanks := Text.line_feed_not_mem_takeWhile (p := Text.isSpaceOrTab) rfl r
    obtain ⟨ticked, tick, h⟩ := Option.bind_eq_some_iff.1 h
    dsimp only at h
    split at h
    case isFalse => cases h
    case isTrue =>
      cases h
      intro member
      simp only [List.mem_cons, blanks, or_false] at member
      obtain feed | rfl | feed := member
      · cases feed
      · cases tick
      · cases feed

/-- Without a mark in brackets at its front, a source has no box. -/
lemma box?_eq_none {s : Text}
    (h : ∀ mark r, s = '[' :: mark :: ']' :: r → Payload.tick? mark = none) : box? s = none := by
  unfold box?
  split
  case h_1 mark r => rw [h mark r rfl, Option.bind_none]
  case h_2 => rfl

end Piece

namespace Opening

variable {lineStart : Bool} {c : Char} {r : Text}

/-- A header opens at a number sign at the start of a line, and nowhere else. -/
lemma of_header_iff : Opening.of lineStart c r = .header ↔ lineStart = true ∧ c = '#' := by
  constructor
  · intro opening
    have fits := fits lineStart c r
    rwa [opening] at fits
  · exact fun front => if_pos front

/-- A list opens at a list marker at the start of a line, and nowhere else. -/
lemma of_list_iff {m : ListMarker} :
    Opening.of lineStart c r = .list m ↔
      lineStart = true ∧ ListMarker.at? (c :: r) = some m := by
  constructor
  · intro opening
    have fits := fits lineStart c r
    rwa [opening] at fits
  · rintro ⟨rfl, found⟩
    have other : c ≠ '#' := by
      rintro rfl
      rw [ListMarker.at?_eq_none r (by decide) (by decide)] at found
      cases found
    simp [Opening.of, other, found]

/-- A quotation opens at its mark at the start of a line, and nowhere else. -/
lemma of_quote_iff : Opening.of lineStart c r = .quote ↔ lineStart = true ∧ c = '>' := by
  constructor
  · intro opening
    have fits := fits lineStart c r
    rwa [opening] at fits
  · rintro ⟨rfl, rfl⟩
    simp [Opening.of, ListMarker.at?_eq_none r (c := '>') (by decide) (by decide),
      Source.opensTarget]

/-- A table opens at a bar at the start of a line, and nowhere else. -/
lemma of_table_iff : Opening.of lineStart c r = .table ↔ lineStart = true ∧ c = '|' := by
  constructor
  · intro opening
    have fits := fits lineStart c r
    rwa [opening] at fits
  · rintro ⟨rfl, rfl⟩
    simp [Opening.of, ListMarker.at?_eq_none r (c := '|') (by decide) (by decide),
      Source.opensTarget]

/-- Code opens at every backtick. -/
lemma of_code (lineStart : Bool) (r : Text) : Opening.of lineStart '`' r = .code := by
  simp [Opening.of, ListMarker.at?_eq_none r (c := '`') (by decide) (by decide)]

/-- Math opens at every dollar sign. -/
lemma of_math (lineStart : Bool) (r : Text) : Opening.of lineStart '$' r = .math := by
  simp [Opening.of, ListMarker.at?_eq_none r (c := '$') (by decide) (by decide), Source.opensTarget]

/-- A link opens at a bracket with a target behind its label. -/
lemma of_link (lineStart : Bool) (target : Source.opensTarget ('[' :: r) = true) :
    Opening.of lineStart '[' r = .link := by
  simp [Opening.of, ListMarker.at?_eq_none r (c := '[') (by decide) (by decide), target]

/-- An image opens at an exclamation mark before such a bracket. -/
lemma of_image (lineStart : Bool) (target : Source.opensTarget r = true) :
    Opening.of lineStart '!' r = .image := by
  have other : Source.opensTarget ('!' :: r) = false := rfl
  simp [Opening.of, ListMarker.at?_eq_none r (c := '!') (by decide) (by decide), target, other]

/-- A mark opens emphasis unless it is the bullet of a list. -/
lemma of_emphasis {mark : Char} (h : mark = '*' ∨ mark = '_')
    (other : lineStart = true → ListMarker.at? (mark :: r) = none) :
    Opening.of lineStart mark r = .emphasis mark := by
  have sign : mark ≠ '#' := by rcases h with rfl | rfl <;> decide
  cases lineStart with
  | false => simp [Opening.of, h]
  | true => simp [Opening.of, other, sign, h]

/-- The opening with what it says of a list marker changed. -/
def mapMarker (f : ListMarker → ListMarker) : Opening → Opening
  | .list m => .list (f m)
  | opening => opening

/-- What opens is told by the first character, the list marker, the link targets and the line end that
are met at the front. -/
lemma of_congr {lineStart : Bool} {c : Char} {r r' : Text} {f : ListMarker → ListMarker}
    (marker : ListMarker.at? (c :: r') = (ListMarker.at? (c :: r)).map f)
    (link : Source.opensTarget (c :: r') = Source.opensTarget (c :: r))
    (image : c = '!' → Source.opensTarget r' = Source.opensTarget r)
    (ending : Source.atLineEnd (c :: r') = Source.atLineEnd (c :: r)) :
    Opening.of lineStart c r' = (Opening.of lineStart c r).mapMarker f := by
  have image : (c = '!' ∧ Source.opensTarget r' = true) ↔ (c = '!' ∧ Source.opensTarget r = true) :=
    and_congr_right fun bang => by rw [image bang]
  have found : (if lineStart = true then ListMarker.at? (c :: r') else none) =
      (if lineStart = true then ListMarker.at? (c :: r) else none).map f := by
    rw [marker]
    split <;> rfl
  by_cases sign : lineStart = true ∧ c = '#'
  · rw [of_header_iff.2 sign, of_header_iff.2 sign]
    rfl
  · simp only [Opening.of, if_neg sign, found, link, image, ending]
    cases if lineStart = true then ListMarker.at? (c :: r) else none with
    | some m => rfl
    | none =>
      simp only [Option.map_none, apply_ite (mapMarker f)]
      rfl

end Opening

end Marktex
