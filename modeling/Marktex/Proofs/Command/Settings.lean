import Marktex.Command.Run
import Marktex.Proofs.Toml.Room

/-!
# Settings of a command line

What the settings file that a command line selects comes to (`Settings.Reads`), and what options a command
line with it has (`optionsOf_cases`): there are none if the file is not valid, or if it breaks the run off.

The room for the values of the file decides only whether a run breaks off for want of it: all rooms that
suffice lead to the same run (`run_room`).
-/

namespace Marktex.Command

/-- Whether there is too little room for the values of a settings file. -/
def SettingsFailure.isTooDeep : SettingsFailure → Bool
  | .tooDeep => true
  | .package .tooDeep => true
  | _ => false

namespace Settings

/-- What a settings file comes to, by what is found at its path. -/
inductive Reads (room : Toml.Room) (path : Path) :
    Except FileError (Option (List UInt8)) → Except SettingsError Settings → Prop where
  | refused {e} :
    Reads room path (.error e) (.error (.failed (.file e path)))
  | absent :
    Reads room path (.ok none) (.ok default)
  | notUtf8 {bytes fault} :
    Utf8.decode bytes = .error fault →
    Reads room path (.ok (some bytes)) (.error (.failed (.encoding fault)))
  | longNumber {bytes s digits} :
    Utf8.decode bytes = .ok s →
    Toml.document room s = .error (.longNumber digits) →
    Reads room path (.ok (some bytes)) (.error (.failed (.longNumber digits)))
  | tooDeep {bytes s} :
    Utf8.decode bytes = .ok s →
    Toml.document room s = .error .tooDeep →
    Reads room path (.ok (some bytes)) (.error (.failed .tooDeep))
  | invalid {bytes s message} :
    Utf8.decode bytes = .ok s →
    Toml.document room s = .error (.invalid message) →
    Reads room path (.ok (some bytes)) (.error (.invalid message))
  | package {bytes s table reason} :
    Utf8.decode bytes = .ok s →
    Toml.document room s = .ok table →
    Toml.Value.anyUnwritable? room.writing (packageValues table) = some reason →
    Reads room path (.ok (some bytes)) (.error (.failed (.package reason)))
  | settled {bytes s table} :
    Utf8.decode bytes = .ok s →
    Toml.document room s = .ok table →
    Toml.Value.anyUnwritable? room.writing (packageValues table) = none →
    Reads room path (.ok (some bytes)) (.ok (ofTable table))

/-- A settings file comes to what is read from it. -/
lemma reads_ofFile (room : Toml.Room) (path : Path) (file : Except FileError (Option (List UInt8))) :
    Reads room path file (ofFile room path file) := by
  unfold ofFile
  split
  case h_1 => exact .refused
  case h_2 => exact .absent
  case h_3 bytes =>
    unfold ofBytes
    split
    case h_1 fault decoded => exact .notUtf8 decoded
    case h_2 s decoded =>
      split
      case h_1 message read => exact .invalid decoded read
      case h_2 digits read => exact .longNumber decoded read
      case h_3 read => exact .tooDeep decoded read
      case h_4 table read =>
        split
        case h_1 reason unwritable => exact .package decoded read unwritable
        case h_2 writable => exact .settled decoded read writable

/-- What a settings file comes to is all that is read from it. -/
lemma Reads.ofFile_eq {room : Toml.Room} {path : Path} {file : Except FileError (Option (List UInt8))}
    {result : Except SettingsError Settings} (h : Reads room path file result) :
    ofFile room path file = result := by
  cases h with
  | refused | absent => rfl
  | notUtf8 decoded => simp only [ofFile, ofBytes, decoded]
  | longNumber decoded read | tooDeep decoded read | invalid decoded read =>
    simp only [ofFile, ofBytes, decoded, read]
  | package decoded read writable | settled decoded read writable =>
    simp only [ofFile, ofBytes, decoded, read, writable]

/-- What a settings file comes to, it comes to with more room as well, unless there was too little. -/
lemma Reads.larger {room room' : Toml.Room} {path : Path} {file : Except FileError (Option (List UInt8))}
    {result : Except SettingsError Settings} (reading : room.reading ≤ room'.reading)
    (writing : room.writing ≤ room'.writing) (h : Reads room path file result) :
    (∃ failure : SettingsFailure, failure.isTooDeep = true ∧ result = .error (.failed failure)) ∨
      Reads room' path file result := by
  cases h with
  | refused => exact .inr .refused
  | absent => exact .inr .absent
  | notUtf8 decoded => exact .inr (.notUtf8 decoded)
  | tooDeep => exact .inl ⟨.tooDeep, rfl, rfl⟩
  | longNumber decoded read =>
    exact .inr (.longNumber decoded (Toml.document_room reading read nofun))
  | invalid decoded read =>
    exact .inr (.invalid decoded (Toml.document_room reading read nofun))
  | @package _ _ table reason decoded read unwritable =>
    obtain little | same := Toml.Value.anyUnwritable?_room writing (packageValues table)
    · obtain rfl : reason = .tooDeep := Option.some.inj (unwritable.symm.trans little)
      exact .inl ⟨.package .tooDeep, rfl, rfl⟩
    · exact .inr (.package decoded (Toml.document_room reading read nofun) (same.trans unwritable))
  | @settled _ _ table decoded read writable =>
    obtain little | same := Toml.Value.anyUnwritable?_room writing (packageValues table)
    · cases writable.symm.trans little
    · exact .inr (.settled decoded (Toml.document_room reading read nofun) (same.trans writable))

end Settings

namespace Arguments

variable {room : Toml.Room} {a : Arguments} {words : List Text} {files : FileTree}

/-- What is found where the settings file of a command line should stand. No file has a malformed path. -/
def settingsFile (a : Arguments) (files : FileTree) : Except FileError (Option (List UInt8)) :=
  if a.settingsPath.isMalformed then .ok none else files.regular? a.settingsPath

/-- The settings file that a command line selects exists, and it is a text that is not valid. -/
def SettingsInvalid (a : Arguments) (room : Toml.Room) (files : FileTree) : Prop :=
  ∃ bytes s message, a.settingsFile files = .ok (some bytes) ∧ Utf8.decode bytes = .ok s ∧
    Toml.document room s = .error (.invalid message)

/-- The settings file that a command line selects breaks the run off. -/
def SettingsBreak (a : Arguments) (room : Toml.Room) (files : FileTree) (failure : SettingsFailure) :
    Prop :=
  Settings.Reads room a.settingsPath (a.settingsFile files) (.error (.failed failure))

/-- The options of a command line are those of its words and of the settings file that they select. -/
lemma optionsOf_eq (accepted : Arguments.ofTexts words = .ok a) :
    optionsOf room words files =
      match Settings.ofFile room a.settingsPath (a.settingsFile files) with
      | .error e => .error (.unsettled e)
      | .ok settings => .ok (a.options settings) := by
  rw [optionsOf, accepted]
  rfl

/-- With a settings file that is not valid there are no options, but a message. -/
lemma SettingsInvalid.optionsOf_eq (h : a.SettingsInvalid room files)
    (accepted : Arguments.ofTexts words = .ok a) :
    ∃ message, optionsOf room words files = .error (.unsettled (.invalid message)) := by
  obtain ⟨bytes, s, message, found, decoded, read⟩ := h
  refine ⟨message, ?_⟩
  rw [Arguments.optionsOf_eq accepted, found, Settings.Reads.ofFile_eq (.invalid decoded read)]

/-- With a settings file that breaks the run off there are no options. -/
lemma SettingsBreak.optionsOf_eq {failure : SettingsFailure} (h : a.SettingsBreak room files failure)
    (accepted : Arguments.ofTexts words = .ok a) :
    optionsOf room words files = .error (.unsettled (.failed failure)) := by
  rw [Arguments.optionsOf_eq accepted, Settings.Reads.ofFile_eq h]

end Arguments

/-- A run breaks off because there is too little room for the values of its settings file. -/
def Polls.WantsRoom (run : Polls) : Prop :=
  ∃ failure : SettingsFailure, failure.isTooDeep = true ∧ run.ending = .breakdown (.settings failure)

section

variable (words : List Text) (files : FileTree) (stdin : List UInt8) (changes : List Change)

/-- More room does not change a run that has enough. -/
lemma run_larger {room room' : Toml.Room} (reading : room.reading ≤ room'.reading)
    (writing : room.writing ≤ room'.writing) :
    (run room words files stdin changes).WantsRoom ∨
      run room' words files stdin changes = run room words files stdin changes := by
  cases accepted : Arguments.ofTexts words with
  | error stop => exact .inr (by simp only [run, optionsOf, accepted])
  | ok a =>
    have reads := Settings.reads_ofFile room a.settingsPath (a.settingsFile files)
    obtain ⟨failure, little, failed⟩ | same := reads.larger reading writing
    · refine .inl ⟨failure, little, ?_⟩
      rw [run, Arguments.optionsOf_eq accepted, failed]
      rfl
    · exact .inr (by simp only [run, Arguments.optionsOf_eq accepted, same.ofFile_eq])

/-- Runs that have enough room are the same, however much room each of them has. -/
theorem run_room (room room' : Toml.Room) :
    (run room words files stdin changes).WantsRoom ∨ (run room' words files stdin changes).WantsRoom ∨
      run room words files stdin changes = run room' words files stdin changes := by
  -- both are the run with the larger room of each sort
  let larger : Toml.Room := ⟨max room.reading room'.reading, max room.writing room'.writing⟩
  have left : (run room words files stdin changes).WantsRoom ∨
      run larger words files stdin changes = run room words files stdin changes :=
    run_larger words files stdin changes (Nat.le_max_left _ _) (Nat.le_max_left _ _)
  have right : (run room' words files stdin changes).WantsRoom ∨
      run larger words files stdin changes = run room' words files stdin changes :=
    run_larger words files stdin changes (Nat.le_max_right _ _) (Nat.le_max_right _ _)
  obtain little | same := left
  · exact .inl little
  obtain little | same' := right
  · exact .inr (.inl little)
  · exact .inr (.inr (same.symm.trans same'))

end

end Marktex.Command
