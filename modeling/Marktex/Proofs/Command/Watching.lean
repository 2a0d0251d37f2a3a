import Marktex.Proofs.Command.Once

/-!
# Runs that watch their input

A run that watches its input converts it, as a run that converts once does, at every poll at which the
input has changed since the latest poll that found it. `PollShows` says so of one poll and `Watched` of all
polls of a run, without regard to what a run keeps between polls: the invariant is that this is the time
at which the input was last seen to have changed (`poll_cases`). `watchRun_repeats` draws from it what a
whole run prints and leaves behind. A run that writes its own input never comes to rest
(`PollShows.changed_again`).
-/

namespace Marktex.Command

/-- When an input had last changed, as the latest of some polls saw that found it; the time zero if none
did. -/
def lastSeen (path : Path) (views : List FileTree) : Stamp :=
  (views.filterMap fun files => files.stamp? path).getLast?.getD (.set 0)

/-- What a run knows before a poll, after polls that saw `earlier`. -/
def Watch.since (path : Path) (earlier : List FileTree) (files : FileTree) : Watch :=
  ⟨lastSeen path earlier, files⟩

/-- The input is found, and it has changed since the latest poll that found it. -/
def Changed (path : Path) (earlier : List FileTree) (files : FileTree) : Prop :=
  ∃ stamp, files.stamp? path = some stamp ∧ stamp ≠ lastSeen path earlier

/-- What a poll shows that sees `files` after polls that saw `earlier`, and the files that it leaves behind.
If the input has changed it shows what a run shows that converts once, and says so if that succeeds. -/
inductive PollShows (o : Options) (path : Path) (earlier : List FileTree) (files : FileTree) :
    Transcript → FileTree → Prop where
  | idle :
    ¬ Changed path earlier files →
    PollShows o path earlier files ⟨[], []⟩ files
  | done :
    Changed path earlier files →
    (oneRun o files []).ending = .exit 0 →
    PollShows o path earlier files
      ⟨(oneRun o files []).out, (oneRun o files []).err ++ convertedLine path⟩ (oneRun o files []).files
  | failed {code} :
    Changed path earlier files →
    (oneRun o files []).ending = .exit code →
    code ≠ 0 →
    (oneRun o files []).out = [] →
    (oneRun o files []).files = files →
    PollShows o path earlier files ⟨[], (oneRun o files []).err⟩ files

/-- What the polls of a run show that sees `files` now, after polls that saw `earlier`, and the files that
the run leaves behind. Between two polls a change happens to the files that the first one left. -/
inductive Watched (o : Options) (path : Path) :
    List FileTree → FileTree → List Change → List Transcript → FileTree → Prop where
  | last {earlier files shown after} :
    PollShows o path earlier files shown after →
    Watched o path earlier files [] [shown] after
  | next {earlier files change changes shown after later final} :
    PollShows o path earlier files shown after →
    Watched o path (earlier ++ [files]) (change after) changes later final →
    Watched o path earlier files (change :: changes) (shown :: later) final

/-- Some poll of a run sees `view` after polls that saw `before`, if the run sees `files` now, after polls
that saw `earlier`. -/
inductive Seen (o : Options) (path : Path) :
    List FileTree → FileTree → List Change → List FileTree → FileTree → Prop where
  | here {earlier files changes} :
    Seen o path earlier files changes earlier files
  | later {earlier files change changes shown after before view} :
    PollShows o path earlier files shown after →
    Seen o path (earlier ++ [files]) (change after) changes before view →
    Seen o path earlier files (change :: changes) before view

section

variable {o : Options} {path : Path} {earlier before : List FileTree} {files view after final : FileTree}
  {changes : List Change} {shown : Transcript} {reason : Breakdown} {w : Watch}

/-- A poll that finds the input sees when it had last changed, and one that does not find it keeps what
was seen before. -/
lemma lastSeen_concat (path : Path) (earlier : List FileTree) (files : FileTree) :
    lastSeen path (earlier ++ [files]) = (files.stamp? path).getD (lastSeen path earlier) := by
  unfold lastSeen
  rw [List.filterMap_append]
  cases found : files.stamp? path <;> simp [found]

/-- A poll shows one transcript and leaves one tree of files. -/
lemma PollShows.unique {other : Transcript} {rest : FileTree}
    (h : PollShows o path earlier files shown after) (h' : PollShows o path earlier files other rest) :
    shown = other ∧ after = rest := by
  cases h with
  | idle same =>
    cases h' with
    | idle => exact ⟨rfl, rfl⟩
    | done changed | failed changed => exact absurd changed same
  | done changed done =>
    cases h' with
    | idle same => exact absurd changed same
    | done => exact ⟨rfl, rfl⟩
    | failed _ failed code => exact absurd (Ending.exit.inj (failed.symm.trans done)) code
  | failed changed failed code =>
    cases h' with
    | idle same => exact absurd changed same
    | done _ done => exact absurd (Ending.exit.inj (failed.symm.trans done)) code
    | failed => exact ⟨rfl, rfl⟩

/-- A poll at which the conversion breaks off shows nothing more. -/
lemma PollShows.not_broken (h : PollShows o path earlier files shown after)
    (changed : Changed path earlier files) : (oneRun o files []).ending ≠ .breakdown reason := by
  intro broken
  cases h with
  | idle same => exact same changed
  | done _ done => cases done.symm.trans broken
  | failed _ failed => cases failed.symm.trans broken

/-- A poll that sees no change does nothing. -/
lemma poll_of_not_changed (same : ¬ Changed path earlier files) :
    poll o path (.since path earlier files) = ⟨.empty, none, .since path (earlier ++ [files]) files⟩ := by
  simp only [poll, Watch.since, lastSeen_concat]
  cases found : files.stamp? path with
  | none => rfl
  | some stamp =>
    have kept : stamp = lastSeen path earlier := by_contra fun differs => same ⟨stamp, found, differs⟩
    simp only [Option.getD_some, ← kept, if_true]

/-- A poll that sees a change converts the input, and knows this change afterwards. -/
lemma poll_of_changed (changed : Changed path earlier files) :
    poll o path (.since path earlier files) =
      let result := convertOnce o (files.read path) files
      let watch := Watch.since path (earlier ++ [files]) result.files
      match result.failure with
      | none => ⟨result.transcript.append ⟨[], convertedLine path⟩, none, watch⟩
      | some (.breakdown reason) => ⟨result.transcript, some reason, watch⟩
      | some _ => ⟨result.transcript, none, watch⟩ := by
  obtain ⟨stamp, found, differs⟩ := changed
  simp only [poll, Watch.since, lastSeen_concat, found, Option.getD_some]
  exact if_neg differs

/-- A poll that knows when the input was last seen to have changed shows what it should, and knows it
afterwards again; or it breaks off as its conversion does. -/
lemma poll_cases (input : o.input = some path) (wellFormed : path.isMalformed = false)
    (earlier : List FileTree) (files : FileTree) :
    (∃ shown after, PollShows o path earlier files shown after ∧
      poll o path (.since path earlier files) =
        ⟨shown, none, .since path (earlier ++ [files]) after⟩) ∨
    ∃ reason, Changed path earlier files ∧ (oneRun o files []).ending = .breakdown reason ∧
      (poll o path (.since path earlier files)).breakdown = some reason := by
  by_cases changed : Changed path earlier files
  · have formed : o.InputFormed := fun other input' => by
      cases input.symm.trans input'
      exact wellFormed
    have outcome := convertOnce_outcome o (files.read path) files
    obtain ⟨ending, out, err, left⟩ := oneRun_shows formed files []
    rw [poll_of_changed changed]
    simp only [inputBytes, input] at ending out err left
    generalize convertOnce o (files.read path) files = result at *
    generalize sourceOf o (files.read path) = source at outcome
    cases outcome with
    | unreadable =>
      refine .inl ⟨_, _, .failed changed ending Nat.two_pos.ne' out left, ?_⟩
      rw [err]
    | unclosed =>
      refine .inl ⟨_, _, .failed changed ending Nat.one_ne_zero out left, ?_⟩
      rw [err]
    | broken => exact .inr ⟨_, changed, ending, rfl⟩
    | done =>
      refine .inl ⟨_, _, .done changed ending, ?_⟩
      rw [out, err, left]
      simp [Transcript.append]
  · exact .inl ⟨_, _, .idle changed, poll_of_not_changed changed⟩

/-- A poll that breaks off ends the run, whatever was still to happen. -/
lemma pollAll_of_broken {w : Watch} {untouched : FileTree}
    (broken : (poll o path w).breakdown = some reason) :
    (pollAll o path w untouched changes).ending = .breakdown reason := by
  cases changes with
  | nil => simp only [pollAll, pollAll.last, broken]
  | cons => simp only [pollAll, pollAll.last, broken]

/-- From polls that know when the input was last seen to have changed a run shows what it should, or it
breaks off at a poll that sees a change, as its conversion does. -/
lemma pollAll_cases (input : o.input = some path) (wellFormed : path.isMalformed = false)
    (earlier : List FileTree) (files untouched : FileTree) (changes : List Change) :
    let polls := pollAll o path (.since path earlier files) untouched changes
    (polls.ending = .exit 0 ∧ Watched o path earlier files changes polls.transcripts polls.files) ∨
    ∃ before view reason, Seen o path earlier files changes before view ∧ Changed path before view ∧
      (oneRun o view []).ending = .breakdown reason ∧ polls.ending = .breakdown reason := by
  -- what the run knows after a poll is what it knows of all polls so far, so the rest is such a run again
  induction changes generalizing earlier files untouched with
  | nil =>
    obtain ⟨shown, after, shows, polled⟩ | ⟨reason, changed, broken, polled⟩ :=
      poll_cases input wellFormed earlier files
    · simp only [pollAll, polled, pollAll.last]
      exact .inl ⟨rfl, .last shows⟩
    · exact .inr ⟨earlier, files, reason, .here, changed, broken, pollAll_of_broken polled⟩
  | cons change changes ih =>
    obtain ⟨shown, after, shows, polled⟩ | ⟨reason, changed, broken, polled⟩ :=
      poll_cases input wellFormed earlier files
    · simp only [pollAll, polled]
      obtain ⟨ending, watched⟩ | ⟨before, view, reason, seen, stuck⟩ :=
        ih (earlier ++ [files]) (change after) (change untouched)
      · exact .inl ⟨ending, .next shows watched⟩
      · exact .inr ⟨before, view, reason, .later shows seen, stuck⟩
    · exact .inr ⟨earlier, files, reason, .here, changed, broken, pollAll_of_broken polled⟩

/-- With a malformed path of the input only the line is printed that says what is watched. -/
lemma watchRun_of_malformed (input : o.input = some path) (malformed : path.isMalformed = true) :
    watchRun o files changes =
      single ⟨[], watchingLine path⟩ (.breakdown (.malformedPath path)) files := by
  simp only [watchRun, input, malformed, if_true]

/-- A run that watches does what its polls do, after the line that says what is watched. -/
lemma watchRun_of_wellFormed (input : o.input = some path) (wellFormed : path.isMalformed = false)
    (files : FileTree) (changes : List Change) :
    let polls := pollAll o path (.since path [] files) files changes
    let run := watchRun o files changes
    run.ending = polls.ending ∧ run.files = polls.files ∧
      ∀ first rest, polls.transcripts = first :: rest →
        run.transcripts = ⟨first.out, watchingLine path ++ first.err⟩ :: rest := by
  intro polls run
  have watching : run = watchAll o path files changes := by
    simp [run, watchRun, input, wellFormed]
  have polled : pollAll o path (Watch.start files) files changes = polls := rfl
  rw [watching, watchAll, polled]
  cases transcripts : polls.transcripts with
  | nil => exact ⟨rfl, rfl, nofun⟩
  | cons first rest =>
    refine ⟨rfl, rfl, ?_⟩
    rintro _ _ ⟨⟩
    rfl

/-- A run that writes its own input sees a change again at the next poll, unless another change comes in
between. -/
theorem PollShows.changed_again (shows : PollShows o path earlier files shown after)
    (changed : Changed path earlier files) (done : (oneRun o files []).ending = .exit 0)
    (own : o.output = some path) (kept : path ≠ FileTree.nullDevice) :
    Changed path (earlier ++ [files]) after := by
  cases shows with
  | idle same => exact absurd changed same
  | failed _ failed code => exact absurd (Ending.exit.inj (failed.symm.trans done)) code
  | done =>
    obtain ⟨-, source, text, -, -, -, delivered⟩ := (oneRun_exits done).delivered
    rw [deliver, own] at delivered
    dsimp only at delivered
    split at delivered
    case isTrue => cases delivered
    case isFalse =>
      split at delivered
      case h_2 => cases delivered
      case h_1 after written =>
        obtain ⟨-, rfl⟩ : [] = _ ∧ after = _ := by simpa using delivered
        obtain ⟨stamp, found, differs⟩ := FileTree.write_changes written kept
        refine ⟨stamp, found, ?_⟩
        rintro rfl
        obtain ⟨before, found', -⟩ := changed
        rw [lastSeen_concat, found'] at differs
        exact differs rfl

/-- Writing the output succeeds: whenever a poll has a text to deliver, it can be delivered. -/
def OutputWritable (o : Options) (path : Path) (files : FileTree) (changes : List Change) : Prop :=
  ∀ before view source text reason, Seen o path [] files changes before view →
    Changed path before view → InputText view [] o.input source → ¬ o.Fails source →
    o.Converts source text → ¬ o.Undeliverable text view reason

/-- If writing the output succeeds, no poll breaks off. -/
lemma OutputWritable.not_broken (writable : OutputWritable o path files changes)
    (input : o.input = some path) (wellFormed : path.isMalformed = false)
    (named : o.packageNames? ≠ none) (seen : Seen o path [] files changes before view)
    (changed : Changed path before view) : (oneRun o view []).ending ≠ .breakdown reason := by
  intro ending
  cases oneRun_escapes_iff.1 ending with
  | malformed input' malformed =>
    cases input.symm.trans input'
    cases wellFormed.symm.trans malformed
  | broken _ read success breaks =>
    cases breaks with
    | nameless _ nameless => exact named nameless
    | undelivered converts stuck =>
      exact writable before view _ _ _ seen changed read success converts stuck

end

/-- What a run does that watches its input. After the line that says what is watched, each poll that sees
a change since the input was last found shows and writes what a run does that converts once, with a line
at the end if that succeeds; a poll that sees no change, or no input, does nothing. A conversion that
fails changes no file, and is not tried again before the next change. No poll ends the run. If no file can
have the path of the input, nothing can ever be found, and nothing happens. -/
theorem watchRun_repeats {o : Options} {path : Path} {files : FileTree} {changes : List Change}
    (input : o.input = some path) (named : o.packageNames? ≠ none)
    (writable : OutputWritable o path files changes) :
    let run := watchRun o files changes
    (path.isMalformed = true → run.transcripts = [⟨[], watchingLine path⟩] ∧ run.files = files) ∧
    (path.isMalformed = false → run.ending = .exit 0 ∧ ∃ first rest,
      run.transcripts = ⟨first.out, watchingLine path ++ first.err⟩ :: rest ∧
      Watched o path [] files changes (first :: rest) run.files) := by
  intro run
  constructor
  · intro malformed
    simp only [run, watchRun_of_malformed input malformed]
    simp [single, Transcript.isEmpty, watchingLine, Text.ofLines]
  · intro wellFormed
    obtain ⟨ending, left, transcripts⟩ :=
      watchRun_of_wellFormed input wellFormed files changes
    obtain ⟨done, watched⟩ | ⟨before, view, reason, seen, changed, broken, -⟩ :=
      pollAll_cases input wellFormed [] files files changes
    · generalize pollAll o path (.since path [] files) files changes = polls at *
      cases shown : polls.transcripts with
      | nil =>
        rw [shown] at watched
        cases watched
      | cons first rest =>
        refine ⟨ending.trans done, first, rest, transcripts first rest shown, ?_⟩
        rw [← shown, left]
        exact watched
    · exact absurd broken (writable.not_broken input wellFormed named seen changed)

/-- Something is converted, then the input has a formula that is not closed, then it is gone, then it is back
as it was when it was last found, and at last it can be converted again. -/
theorem watchRun_repeats_edits :
    let path : Path := ⟨[], ["a.md".toList]⟩
    let o : Options :=
      ⟨some path, some ⟨[], ["b.tex".toList]⟩, true, false, .word "article".toList, [], true, false⟩
    let files : FileTree := ⟨[(["a.md".toList], .file [35, 32, 65] (.set 5))]⟩
    let broken : FileTree := ⟨[(["a.md".toList], .file [36, 120] (.set 6))]⟩
    let repaired : FileTree := ⟨[(["a.md".toList], .file [35, 32, 66] (.set 7))]⟩
    let changes : List Change := [fun _ => broken, fun _ => .empty, fun _ => broken, fun _ => repaired]
    o.packageNames? ≠ none ∧ OutputWritable o path files changes ∧
      (∃ first rest,
        (watchRun o files changes).transcripts = ⟨first.out, watchingLine path ++ first.err⟩ :: rest ∧
        Watched o path [] files changes (first :: rest) (watchRun o files changes).files) ∧
      (watchRun o files changes).transcripts =
        [⟨[], "Watching a.md for changes...\nConverted a.md\n".toList⟩,
          ⟨[], "error: unterminated inline math\n  --> a.md:1:1\n  |\n1 | $x\n  | ^^\n".toList⟩,
          .empty, .empty, ⟨[], "Converted a.md\n".toList⟩] ∧
      (watchRun o files changes).files.read ⟨[], ["b.tex".toList]⟩ =
        .ok (Utf8.encode "\\section\x7bB\x7d".toList) := by
  intro path o files broken repaired changes
  have named : o.packageNames? ≠ none := nofun
  have writable : OutputWritable o path files changes := by
    intro before view source text reason seen _ _ _ _ undeliverable
    dsimp only [changes] at seen
    -- each of the five polls sees a tree in which the output is a name of the current directory
    have written : ∃ after, view.write ⟨[], ["b.tex".toList]⟩ (Utf8.encode text) = .ok after := by
      cases seen with
      | here => exact ⟨_, rfl⟩
      | later _ seen =>
        cases seen with
        | here => exact ⟨_, rfl⟩
        | later _ seen =>
          cases seen with
          | here => exact ⟨_, rfl⟩
          | later _ seen =>
            cases seen with
            | here => exact ⟨_, rfl⟩
            | later _ seen =>
              cases seen with
              | here => exact ⟨_, rfl⟩
    obtain ⟨after, written⟩ := written
    cases undeliverable with
    | malformed output malformed =>
      cases output
      cases malformed
    | unwritable output _ refused =>
      cases output
      cases written.symm.trans refused
  exact ⟨named, writable, ((watchRun_repeats rfl named writable).2 rfl).2, by decide +kernel, by decide +kernel⟩

end Marktex.Command
