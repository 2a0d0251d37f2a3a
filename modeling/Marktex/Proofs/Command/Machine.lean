import Mathlib.Tactic.Lemma
import Marktex.Command.Machine

/-!
# Runs on a tree of files

A tree of files is a machine as well (`World.machine`): its pauses change the files, and what is printed is
recorded. The program of the command does on it what `Command.run` says (`run_eq`), so that what is known of
these runs holds of the program.
-/

namespace Marktex.Command

/-- A tree of files with all that happens to a run on it. -/
structure World where
  files : FileTree
  /-- The files as they would be had the run not touched them. -/
  untouched : FileTree
  /-- The standard input. -/
  stdin : List UInt8
  /-- What is still to happen to the files, one change a pause. -/
  changes : List Change
  /-- What was printed up to each pause so far. -/
  recorded : List Transcript
  /-- What has been printed since the latest pause. -/
  printed : Transcript

namespace World

/-- A run begins. -/
def start (files : FileTree) (stdin : List UInt8) (changes : List Change) : World :=
  ⟨files, files, stdin, changes, [], .empty⟩

/-- More is printed. -/
def print (w : World) (transcript : Transcript) : World :=
  { w with printed := w.printed.append transcript }

/-- A pause: what was printed is recorded, and the next change happens. The run does not go on where there is
none. -/
def pause (w : World) : Bool × World :=
  let w := { w with recorded := w.recorded ++ [w.printed], printed := .empty }
  match w.changes with
  | [] => (false, w)
  | change :: changes =>
    (true, { w with files := change w.files, untouched := change w.untouched, changes := changes })

/-- A tree of files as a machine. -/
def machine : Machine (StateM World) where
  stamp? path w := (w.files.stamp? path, w)
  read path w := (w.files.read path, w)
  regular? path w := (w.files.regular? path, w)
  stdin w := (w.stdin, w)
  write path bytes w :=
    match w.files.write path bytes with
    | .error e => (.error e, w)
    | .ok files => (.ok (), { w with files := files })
  print transcript w := ((), w.print transcript)
  pause := pause

/-- The record of a run that has ended. What was printed after the latest pause is left out if it is nothing. -/
def record (w : World) (ending : Ending) : Polls :=
  ⟨w.recorded ++ if w.printed.isEmpty then [] else [w.printed], ending, w.files, w.untouched⟩

/-- The record of a program that is run to its end. -/
def recordOf (w : World) (program : StateM World Ending) : Polls :=
  (program.run w).2.record (program.run w).1

end World

/-- Transcripts of which the first one begins with what was printed before. -/
def Transcript.lead (t : Transcript) : List Transcript → List Transcript
  | [] => if t.isEmpty then [] else [t]
  | first :: rest => t.append first :: rest

namespace Transcript

/-- Nothing more is printed. -/
@[simp] lemma append_empty (t : Transcript) : t.append .empty = t := by
  simp [append, empty]

/-- Nothing was printed before. -/
@[simp] lemma empty_append (t : Transcript) : empty.append t = t := rfl

/-- Printing goes on from left to right. -/
lemma append_assoc (t u v : Transcript) : (t.append u).append v = t.append (u.append v) := by
  simp [append]

/-- Nothing leads transcripts. -/
@[simp] lemma empty_lead (transcripts : List Transcript) : empty.lead transcripts = transcripts := by
  cases transcripts <;> rfl

/-- What is recorded of the last stretch of a run, with what was printed before. -/
lemma lead_single (t u : Transcript) :
    t.lead (if u.isEmpty then [] else [u]) = if (t.append u).isEmpty then [] else [t.append u] := by
  obtain ⟨out, err⟩ := u
  cases nothing : isEmpty ⟨out, err⟩ with
  | true =>
    obtain ⟨rfl, rfl⟩ : out = [] ∧ err = [] := by simpa [isEmpty] using nothing
    simp [lead, append]
  | false =>
    have some : (t.append ⟨out, err⟩).isEmpty = false := by
      simp only [isEmpty, append, Bool.and_eq_false_iff, List.isEmpty_eq_false_iff] at nothing ⊢
      exact nothing.imp (List.append_ne_nil_of_right_ne_nil _) (List.append_ne_nil_of_right_ne_nil _)
    simp [lead, some]

end Transcript

namespace World

variable (w : World)

section

/-! Each step of a program, and what it does to the files. -/

/-- One step and then another one, from the files that the first one leaves. -/
lemma run_bind {α β : Type} (step : StateM World α) (next : α → StateM World β) :
    (step >>= next).run w = (next (step.run w).1).run (step.run w).2 := rfl

/-- An answer leaves the files as they are. -/
lemma run_pure {α : Type} (a : α) : (pure a : StateM World α).run w = (a, w) := rfl

/-- Looking at a path changes nothing. -/
lemma stamp?_run (path : Path) : (machine.stamp? path).run w = (w.files.stamp? path, w) := rfl

/-- Reading a file changes nothing. -/
lemma read_run (path : Path) : (machine.read path).run w = (w.files.read path, w) := rfl

/-- What is printed is kept with what was printed before. -/
lemma print_run (transcript : Transcript) : (machine.print transcript).run w = ((), w.print transcript) := rfl

/-- A pause is that of the tree of files. -/
lemma pause_run : machine.pause.run w = w.pause := rfl

/-- Writing changes the files if it succeeds. -/
lemma write_run (path : Path) (bytes : List UInt8) :
    (machine.write path bytes).run w =
      match w.files.write path bytes with
      | .error e => (.error e, w)
      | .ok files => (.ok (), { w with files := files }) := rfl

end

/-- What is printed in two steps is printed in one. -/
lemma print_print (t u : Transcript) : (w.print t).print u = w.print (t.append u) := by
  simp [print, Transcript.append_assoc]

/-- Nothing is printed. -/
lemma print_empty : w.print .empty = w := by
  simp [print]

/-- The program delivers a text as `deliver` says. -/
lemma deliver_run (o : Options) (latex : Text) :
    (machine.deliver o latex).run w =
      match deliver o latex w.files with
      | .error reason => (some reason, w)
      | .ok (out, files) => (none, { w with files := files }.print ⟨out, []⟩) := by
  unfold Machine.deliver deliver
  cases o.output with
  | none => rfl
  | some path =>
    dsimp only
    cases path.isMalformed with
    | true => rfl
    | false =>
      simp only [Bool.false_eq_true, if_false]
      rw [run_bind, write_run]
      cases w.files.write path (Utf8.encode latex) with
      | error e => rfl
      | ok files => exact congrArg (Prod.mk none) (print_empty _).symm

/-- The program converts an input as `convertOnce` says. -/
lemma convert_run (o : Options) (input : Except FileError (List UInt8)) :
    (machine.convert o input).run w =
      ((convertOnce o input w.files).failure,
        { w with files := (convertOnce o input w.files).files }.print
          (convertOnce o input w.files).transcript) := by
  unfold Machine.convert convertOnce
  dsimp only
  rw [run_bind, print_run]
  cases (Attempt.ofInput o input).result with
  | error ending => rfl
  | ok latex =>
    dsimp only
    rw [run_bind, deliver_run]
    have files : (w.print ⟨[], (Attempt.ofInput o input).printed⟩).files = w.files := rfl
    rw [files]
    cases deliver o latex w.files with
    | error reason => rfl
    | ok delivered =>
      obtain ⟨out, files⟩ := delivered
      dsimp only
      rw [run_pure]
      simp [print, Transcript.append]

/-- The program polls as `poll` says. -/
lemma poll_run (o : Options) (path : Path) (seen : Stamp) :
    (machine.poll o path seen).run w =
      let now := poll o path ⟨seen, w.files⟩
      ((now.watch.seen, now.breakdown), { w with files := now.watch.files }.print now.transcript) := by
  unfold Machine.poll poll
  rw [run_bind, stamp?_run]
  cases w.files.stamp? path with
  | none => exact congrArg (Prod.mk (seen, none)) (print_empty w).symm
  | some stamp =>
    dsimp only
    by_cases same : stamp = seen
    · rw [if_pos same, if_pos same]
      exact congrArg (Prod.mk (seen, none)) (print_empty w).symm
    · rw [if_neg same, if_neg same, run_bind, read_run]
      dsimp only
      rw [run_bind, convert_run]
      obtain ⟨transcript, failure, files⟩ := convertOnce o (w.files.read path) w.files
      cases failure with
      | none =>
        dsimp only
        rw [run_bind, print_run, print_print]
        rfl
      | some ending => cases ending <;> rfl

/-- The program goes on polling if a poll did not break the run off and the pause after it did not end it. -/
lemma watch_succ_run (o : Options) (path : Path) (polls : Nat) (seen : Stamp) :
    (machine.watch o path (polls + 1) seen).run w =
      let now := poll o path ⟨seen, w.files⟩
      let polled := { w with files := now.watch.files }.print now.transcript
      match now.breakdown with
      | some reason => (.breakdown reason, polled)
      | none =>
        if polled.pause.1 then (machine.watch o path polls now.watch.seen).run polled.pause.2
        else (.exit exitDone, polled.pause.2) := by
  rw [Machine.watch, run_bind, poll_run]
  obtain ⟨transcript, breakdown, watch⟩ := poll o path ⟨seen, w.files⟩
  cases breakdown with
  | some reason => rfl
  | none =>
    dsimp only
    rw [run_bind, pause_run]
    split <;> rfl

/-- The program polls all along as `pollAll` says, if it may poll as often as there are changes and once
more. -/
lemma watch_record (o : Options) (path : Path) {polls : Nat} (seen : Stamp)
    (enough : w.changes.length < polls) :
    w.recordOf (machine.watch o path polls seen) =
      { pollAll o path ⟨seen, w.files⟩ w.untouched w.changes with
        transcripts := w.recorded ++
          w.printed.lead (pollAll o path ⟨seen, w.files⟩ w.untouched w.changes).transcripts } := by
  obtain ⟨files, untouched, stdin, changes, recorded, printed⟩ := w
  dsimp only at enough ⊢
  induction changes generalizing files untouched recorded printed polls seen with
  | nil =>
    obtain _ | polls := polls
    · cases enough
    rw [recordOf, watch_succ_run, pollAll]
    dsimp only
    generalize poll o path ⟨seen, files⟩ = now
    obtain ⟨transcript, breakdown, watch⟩ := now
    cases breakdown with
    | some reason =>
      dsimp only [pollAll.last, record, print]
      rw [Transcript.lead_single]
    | none =>
      simp [pollAll.last, record, print, pause, Transcript.lead, Transcript.isEmpty, Transcript.empty]
  | cons change changes ih =>
    obtain _ | polls := polls
    · cases enough
    have fewer : changes.length < polls := Nat.lt_of_succ_lt_succ enough
    rw [recordOf, watch_succ_run, pollAll]
    dsimp only
    generalize poll o path ⟨seen, files⟩ = now
    obtain ⟨transcript, breakdown, watch⟩ := now
    cases breakdown with
    | some reason =>
      dsimp only [pollAll.last, record, print]
      rw [Transcript.lead_single]
    | none =>
      -- the pause has recorded what was printed, so that the rest begins with nothing
      have later := ih watch.seen (change watch.files) (change untouched)
        (recorded ++ [printed.append transcript]) .empty fewer
      rw [Transcript.empty_lead, List.append_assoc] at later
      exact later

variable (files : FileTree) (stdin : List UInt8) (changes : List Change)

/-- The program watches its input as `watchRun` says. -/
lemma watchRun_record (o : Options) {polls : Nat} (enough : changes.length < polls) :
    (start files stdin changes).recordOf (machine.watchRun polls o) = watchRun o files changes := by
  unfold Machine.watchRun watchRun
  cases o.input with
  | none => rfl
  | some path =>
    dsimp only
    rw [recordOf, run_bind, print_run]
    cases path.isMalformed with
    | true => rfl
    | false =>
      have polled := watch_record ((start files stdin changes).print ⟨[], watchingLine path⟩) o path
        Watch.unseen enough
      refine Eq.trans polled ?_
      dsimp only [start, print]
      rw [if_neg Bool.false_ne_true, watchAll, Transcript.empty_append]
      unfold Watch.start
      cases (pollAll o path ⟨Watch.unseen, files⟩ files changes).transcripts <;> rfl

/-- The program converts once as `oneRun` says. -/
lemma oneRun_record (o : Options) :
    (start files stdin changes).recordOf (machine.oneRun o) = oneRun o files stdin := by
  unfold Machine.oneRun oneRun
  cases o.input.filter Path.isMalformed with
  | some path => rfl
  | none =>
    have input : (machine.inputBytes o).run (start files stdin changes) =
        (inputBytes o files stdin, start files stdin changes) := by
      unfold Machine.inputBytes inputBytes
      cases o.input <;> rfl
    dsimp only
    rw [recordOf, run_bind, input, run_bind, convert_run]
    rfl

/-- The program finds its options as `optionsOf` says. -/
lemma optionsOf_run (room : Toml.Room) (words : List Text) :
    (machine.optionsOf room words).run w = (optionsOf room words w.files, w) := by
  unfold Machine.optionsOf optionsOf
  cases Arguments.ofTexts words with
  | error stop => rfl
  | ok a =>
    have file : (machine.settingsFile a.settingsPath).run w =
        (if a.settingsPath.isMalformed then .ok none else w.files.regular? a.settingsPath, w) := by
      unfold Machine.settingsFile
      split <;> rfl
    dsimp only
    rw [run_bind, file]
    cases Settings.ofFile room a.settingsPath
      (if a.settingsPath.isMalformed then .ok none else w.files.regular? a.settingsPath) <;> rfl

end World

/-- The program of the command does on a tree of files what `run` says, if it may poll as often as there are
changes and once more. -/
theorem run_eq (room : Toml.Room) (words : List Text) (files : FileTree) (stdin : List UInt8)
    (changes : List Change) {polls : Nat} (enough : changes.length < polls) :
    (World.start files stdin changes).recordOf (World.machine.run room polls words) =
      run room words files stdin changes := by
  unfold Machine.run run
  rw [World.recordOf, World.run_bind, World.optionsOf_run]
  have same : (World.start files stdin changes).files = files := rfl
  rw [same]
  cases optionsOf room words files with
  | error refusal => rfl
  | ok o =>
    dsimp only
    split
    case isTrue => exact World.watchRun_record files stdin changes o enough
    case isFalse => exact World.oneRun_record files stdin changes o

end Marktex.Command
