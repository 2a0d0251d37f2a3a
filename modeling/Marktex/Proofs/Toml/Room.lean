import Mathlib.Tactic.Lemma
import Marktex.Toml.Reader

/-!
# Room for values within values

More room never changes what is read from a settings file, unless there was too little of it
(`document_room`), nor how values are written out (`Value.anyUnwritable?_room`). Readers with less and with more
room are compared step by step (`Agrees.bind`).
-/

namespace Marktex.Toml

section

variable {α β : Type}

/-- A result and that with more room agree: there was too little room for the first one, or they are the
same. -/
def Agrees (less more : Except Failure α) : Prop :=
  (∃ rest, less = fail .tooDeep rest) ∨ more = less

namespace Agrees

/-- What no room is needed for agrees. -/
lemma refl (x : Except Failure α) : Agrees x x := .inr rfl

/-- Where there is too little room, every result with more room agrees. -/
lemma tooDeep (more : Except Failure α) (rest : Text) : Agrees (fail .tooDeep rest) more :=
  .inl ⟨rest, rfl⟩

/-- Two steps in turn agree if each of them does. -/
lemma bind {x y : Except Failure α} {f g : α → Except Failure β} (first : Agrees x y)
    (later : ∀ a, Agrees (f a) (g a)) : Agrees (x.bind f) (y.bind g) := by
  obtain ⟨rest, rfl⟩ | rfl := first
  · exact .tooDeep _ rest
  · cases y with
    | error failure => exact .refl _
    | ok a => exact later a

end Agrees

end

section

mutual

/-- More room does not change how a value is read. -/
lemma value_room (fuel : Nat) {room room' : Nat} (le : room ≤ room') (s : Text) :
    Agrees (value fuel room s) (value fuel room' s) := by
  cases fuel with
  | zero => exact .refl _
  | succ fuel =>
    unfold value
    split
    case h_3 r =>
      by_cases little : room < arrayCalls
      · rw [if_pos little]
        exact .tooDeep _ _
      · rw [if_neg little, if_neg (by omega)]
        exact .bind (.refl _) fun r =>
          arrayItems_room fuel (Nat.sub_le_sub_right le arrayCalls) [] r
    case h_4 r =>
      by_cases little : room < tableCalls
      · rw [if_pos little]
        exact .tooDeep _ _
      · rw [if_neg little, if_neg (by omega)]
        split
        · exact .refl _
        · exact tableEntries_room fuel (Nat.sub_le_sub_right le tableCalls) [] [] _
    all_goals exact .refl _

/-- More room does not change how the values of an array are read. -/
lemma arrayItems_room (fuel : Nat) {room room' : Nat} (le : room ≤ room') (values : List Value) (s : Text) :
    Agrees (arrayItems fuel room values s) (arrayItems fuel room' values s) := by
  cases fuel with
  | zero => exact .refl _
  | succ fuel =>
    unfold arrayItems
    split
    · exact .refl _
    · refine .bind (value_room fuel le s) fun (item, rest) => .bind (.refl _) fun rest => ?_
      split
      · exact .refl _
      · exact .bind (.refl _) fun r => arrayItems_room fuel le _ r
      · exact .refl _

/-- More room does not change how the entries of a table are read. -/
lemma tableEntries_room (fuel : Nat) {room room' : Nat} (le : room ≤ room') (entries : Table) (frozen : List Key) (s : Text) :
    Agrees (tableEntries fuel room entries frozen s) (tableEntries fuel room' entries frozen s) := by
  cases fuel with
  | zero => exact .refl _
  | succ fuel =>
    unfold tableEntries
    refine .bind (.refl _) fun (key, s) => .bind (value_room fuel le s) fun (item, rest) =>
      .bind (.refl _) fun entries => ?_
    split
    · exact .refl _
    · exact tableEntries_room fuel le _ _ _
    · exact .refl _

end

variable {room room' : Nat}

/-- More room does not change how a statement is read. -/
lemma statement_room (le : room ≤ room') (state : State) (s : Text) :
    Agrees (statement room state s) (statement room' state s) := by
  unfold statement
  split
  case h_6 c r =>
    split
    · exact .bind (.refl _) fun (key, s) => .bind (value_room _ le s) fun (item, rest) => .refl _
    · exact .refl _
  all_goals exact .refl _

/-- More room does not change how statements are read. -/
lemma statements_room (fuel : Nat) (le : room ≤ room') (state : State) (s : Text) :
    Agrees (statements room fuel state s) (statements room' fuel state s) := by
  induction fuel generalizing state s with
  | zero => exact .refl _
  | succ fuel ih =>
    unfold statements
    refine .bind (statement_room le state _) fun (state, rest) => .bind (.refl _) fun rest => ?_
    split
    · exact .refl _
    · exact ih _ _
    · exact .refl _

end

/-- What is read from a settings file is read with more room as well, unless there was too little. -/
lemma document_room {room room' : Room} {file : Text} {result : Except Unreadable Table}
    (le : room.reading ≤ room'.reading) (read : document room file = result)
    (enough : result ≠ .error .tooDeep) : document room' file = result := by
  subst read
  obtain ⟨rest, little⟩ | same :=
    statements_room ((withPlainLineEnds file).length + 1) le ⟨[], Declared.empty, []⟩ (withPlainLineEnds file)
  · refine absurd ?_ enough
    rw [document, little]
    rfl
  · rw [document, same]
    rfl

namespace Value

/-- Why a value is not written, if so, and why it is not with more room agree: there was too little room for
the first one, or they are the same. -/
def UnwritableAgrees (less more : Option Unwritable) : Prop :=
  less = some .tooDeep ∨ more = less

/-- Two values in turn agree if each of them does. -/
lemma UnwritableAgrees.or {x y x' y' : Option Unwritable} (first : UnwritableAgrees x x')
    (later : UnwritableAgrees y y') : UnwritableAgrees (x.or y) (x'.or y') := by
  obtain rfl | rfl := first
  · exact .inl rfl
  · cases x' with
    | none => exact later
    | some reason => exact .inr rfl

mutual

/-- More room does not change why a value is not written. -/
lemma unwritable?_room {room room' : Nat} (le : room ≤ room') (v : Value) :
    UnwritableAgrees (unwritable? room v) (unwritable? room' v) := by
  cases v with
  | array values =>
    obtain _ | room := room
    · exact .inl rfl
    · obtain _ | room' := room'
      · cases le
      · exact anyUnwritable?_room (Nat.le_of_succ_le_succ le) values
  | table entries =>
    obtain _ | room := room
    · exact .inl rfl
    · obtain _ | room' := room'
      · cases le
      · exact entriesUnwritable?_room (Nat.le_of_succ_le_succ le) entries
  | _ => exact .inr rfl

/-- More room does not change why one of some values is not written. -/
lemma anyUnwritable?_room {room room' : Nat} (le : room ≤ room') (values : List Value) :
    UnwritableAgrees (anyUnwritable? room values) (anyUnwritable? room' values) := by
  cases values with
  | nil => exact .inr rfl
  | cons value rest => exact (unwritable?_room le value).or (anyUnwritable?_room le rest)

/-- More room does not change why one of some entries is not written. -/
lemma entriesUnwritable?_room {room room' : Nat} (le : room ≤ room') (entries : Table) :
    UnwritableAgrees (entriesUnwritable? room entries) (entriesUnwritable? room' entries) := by
  cases entries with
  | nil => exact .inr rfl
  | cons entry rest =>
    obtain ⟨name, value⟩ := entry
    exact (unwritable?_room le value).or (entriesUnwritable?_room le rest)

end

end Value

end Marktex.Toml
