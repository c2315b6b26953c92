import TraceProfile.Command.Run

/-!
# What a failing run leaves behind

A run works through its files in a fixed order: it reads the entries, creates the output, and only
then reads the counter descriptions. What can be wrong is said here of the files as they were before
the run (`Options.FailsAt`), stage by stage. A run fails exactly if something is wrong at one of the
stages (`Options.run_failsAt`), and never writes to the standard output when it does.

Up to the creation of the output nothing has been touched, so whatever is wrong with the entries
costs no file. By the time the descriptions turn out to be missing or malformed the output has been
emptied: whatever stood there is lost. If the output is to be written over the descriptions these
are emptied too before they are read, and the run fails for that reason alone.
-/

namespace TraceProfile.Command

namespace Files

/-- What has been written to a file stands there. -/
theorem find?_write_self (files : Files) (path : String) (content : ByteArray) :
    (files.write path content).find? path = some (.file content) := by
  rw [find?, write, List.lookup_cons, beq_self_eq_true]

theorem lookup_filter_of_ne (files : Files) {path other : String} (h : other ≠ path) :
    (files.filter (·.1 ≠ path)).lookup other = files.lookup other := by
  induction files with
  | nil => rfl
  | cons file files ih =>
    obtain ⟨name, item⟩ := file
    rw [List.lookup_cons]
    by_cases hname : name = path
    · have hne : (other == name) = false := beq_eq_false_iff_ne.2 fun heq => h (heq.trans hname)
      rw [List.filter_cons_of_neg (by simpa using hname), hne]
      exact ih
    · rw [List.filter_cons_of_pos (by simpa using hname), List.lookup_cons, ih]

/-- Writing to a file changes no other. -/
theorem find?_write_of_ne (files : Files) {path other : String} (h : other ≠ path)
    (content : ByteArray) : (files.write path content).find? other = files.find? other := by
  rw [find?, find?, write, List.lookup_cons, beq_eq_false_iff_ne.2 h]
  exact files.lookup_filter_of_ne h

end Files

namespace Options

variable {o : Options} {files : Files}

/-- The files after the output has been created. -/
def created (o : Options) (files : Files) : Files :=
  match o.output with
  | some path => files.write path .empty
  | none => files

/-- The entries can be read. -/
def ReadsEntries (o : Options) (files : Files) : Prop :=
  ∃ bytes entries, files.read? o.entriesFile = some bytes ∧ Entry.decodeAll bytes = .ok entries

/-- The output goes to no directory. -/
def CanWrite (o : Options) (files : Files) : Prop :=
  ∀ path, o.output = some path → files.find? path ≠ some .directory

/-- What a run does one after the other. -/
inductive Stage where
  /-- Reads the entries. -/
  | entries
  /-- Creates the output. -/
  | output
  /-- Reads the counter descriptions. -/
  | counters
deriving DecidableEq

/-- What is wrong with the counter descriptions, if they are wanted. -/
inductive CountersFault (o : Options) (files : Files) (path : String) : RunError → Prop where
  /-- There is no such file. -/
  | missing (h : o.output ≠ some path) (hfind : files.find? path = none) :
      CountersFault o files path .io
  /-- A directory is there. -/
  | directory (h : o.output ≠ some path) (hfind : files.find? path = some .directory) :
      CountersFault o files path .json
  /-- The content of the file is no JSON, or JSON of another shape. -/
  | malformed (h : o.output ≠ some path) {bytes : ByteArray}
      (hfind : files.find? path = some (.file bytes))
      (hparse : DescriptionFile.parse? bytes = none) : CountersFault o files path .json
  /-- The output is to be written over them. -/
  | overwritten (h : o.output = some path) : CountersFault o files path .json

/-- What is wrong at the first stage at which something is, said of the files before the run. -/
inductive FailsAt (o : Options) (files : Files) : Stage → RunError → Prop where
  /-- There is no file of entries. -/
  | missing (h : files.read? o.entriesFile = none) : FailsAt o files .entries .io
  /-- The content of the file is no sequence of entries. -/
  | invalid {bytes : ByteArray} {error : Entry.DecodeError}
      (hread : files.read? o.entriesFile = some bytes)
      (hdecode : Entry.decodeAll bytes = .error error) : FailsAt o files .entries (.decode error)
  /-- The output goes to a directory. -/
  | directory (hentries : o.ReadsEntries files) {path : String} (houtput : o.output = some path)
      (hfind : files.find? path = some .directory) : FailsAt o files .output .io
  /-- The counter descriptions are wanted and cannot be read. -/
  | counters (hentries : o.ReadsEntries files) (hwrite : o.CanWrite files) {pid : UInt32}
      (hpid : o.pid = some pid) {path : String} (hcounters : o.counters = some path) {e : RunError}
      (hfault : o.CountersFault files path e) : FailsAt o files .counters e

/-! ## The stages -/

/-- Creating the output empties it and touches no other file. -/
theorem find?_created (o : Options) (files : Files) (path : String) :
    (o.created files).find? path =
      if o.output = some path then some (.file .empty) else files.find? path := by
  unfold created
  split
  · next output houtput =>
    simp only [houtput, Option.some.injEq]
    split
    · next h =>
      rw [h]
      exact files.find?_write_self path .empty
    · next h => exact files.find?_write_of_ne (Ne.symm h) .empty
  · next houtput => simp [houtput]

theorem createOutput_of_canWrite (h : o.CanWrite files) :
    o.createOutput files = .ok (o.created files) := by
  rw [createOutput, created]
  cases houtput : o.output with
  | none => rfl
  | some path =>
    dsimp only
    split
    · next hfind => exact absurd hfind (h path houtput)
    · rfl

theorem createOutput_of_directory {path : String} (houtput : o.output = some path)
    (hfind : files.find? path = some .directory) : o.createOutput files = .error .io := by
  simp only [createOutput, houtput, hfind]

/-- An empty file holds no descriptions. -/
theorem parse?_empty : DescriptionFile.parse? .empty = none := by decide +kernel

/-- Once the output has been created, the descriptions cannot be read exactly if something is wrong
with them. -/
theorem readDescriptions_created_eq_error_iff {e : RunError} :
    o.readDescriptions (o.created files) = .error e ↔
      ∃ path, o.counters = some path ∧ o.CountersFault files path e := by
  constructor
  · intro h
    unfold readDescriptions at h
    split at h
    · exact absurd h (by simp)
    · next path hcounters =>
      refine ⟨path, hcounters, ?_⟩
      rw [find?_created] at h
      by_cases houtput : o.output = some path
      · simp only [if_pos houtput, parse?_empty] at h
        cases h
        exact .overwritten houtput
      · rw [if_neg houtput] at h
        split at h
        · next hfind =>
          cases h
          exact .missing houtput hfind
        · next hfind =>
          cases h
          exact .directory houtput hfind
        · next bytes hfind =>
          split at h
          · exact absurd h (by simp)
          · next hparse =>
            cases h
            exact .malformed houtput hfind hparse
  · rintro ⟨path, hcounters, hfault⟩
    have hfind := find?_created o files path
    rw [readDescriptions, hcounters]
    cases hfault with
    | missing h hmissing => simp only [hfind, if_neg h, hmissing]
    | directory h hdirectory => simp only [hfind, if_neg h, hdirectory]
    | malformed h hfile hparse => simp only [hfind, if_neg h, hfile, hparse]
    | overwritten h => simp only [hfind, if_pos h, parse?_empty]

/-! ## Runs -/

/-- The files when a run has failed at a stage. -/
def filesAfter (o : Options) (files : Files) : Stage → Files
  | .counters => o.created files
  | _ => files

theorem run_of_failsAt {stage : Stage} {e : RunError} (h : o.FailsAt files stage e) :
    ∃ notices, o.run files = { files := o.filesAfter files stage, error := some e, notices } := by
  cases h with
  | missing h => exact ⟨[], by rw [run, h]; rfl⟩
  | invalid hread hdecode => exact ⟨[], by simp only [run, hread, hdecode, filesAfter]⟩
  | directory hentries houtput hfind =>
    obtain ⟨bytes, entries, hread, hdecode⟩ := hentries
    simp only [run, hread, hdecode, createOutput_of_directory houtput hfind]
    exact ⟨_, rfl⟩
  | counters hentries hwrite hpid hcounters hfault =>
    obtain ⟨bytes, entries, hread, hdecode⟩ := hentries
    have hdescriptions := readDescriptions_created_eq_error_iff.2 ⟨_, hcounters, hfault⟩
    simp only [run, hread, hdecode, createOutput_of_canWrite hwrite, hpid, emitProcess,
      hdescriptions]
    exact ⟨_, rfl⟩

/-- Nothing goes wrong while a profile is written. -/
theorem error_emit (o : Options) (files : Files) (profile : Json) (notices : List Notice) :
    (o.emit files profile notices).error = none := by
  rw [emit]
  split <;> rfl

theorem exists_failsAt_of_error {e : RunError} (h : (o.run files).error = some e) :
    ∃ stage, o.FailsAt files stage e := by
  -- The cases are those of the run, one stage after the other. Behind the descriptions nothing can
  -- fail any more.
  unfold run at h
  split at h
  · next hread =>
    cases h
    exact ⟨_, .missing hread⟩
  · next bytes hread =>
    split at h
    · next hdecode =>
      cases h
      exact ⟨_, .invalid hread hdecode⟩
    · next entries hdecode =>
      have hentries : o.ReadsEntries files := ⟨bytes, entries, hread, hdecode⟩
      by_cases hwrite : o.CanWrite files
      · simp only [createOutput_of_canWrite hwrite] at h
        split at h
        · next pid hpid =>
          unfold emitProcess at h
          split at h
          · next hdescriptions =>
            cases h
            obtain ⟨path, hcounters, hfault⟩ :=
              readDescriptions_created_eq_error_iff.1 hdescriptions
            exact ⟨_, .counters hentries hwrite hpid hcounters hfault⟩
          · rw [error_emit] at h
            exact absurd h (by simp)
        · rw [error_emit] at h
          exact absurd h (by simp)
      · obtain ⟨path, houtput, hfind⟩ : ∃ path, o.output = some path ∧
            files.find? path = some .directory := by
          simpa [CanWrite] using hwrite
        simp only [createOutput_of_directory houtput hfind] at h
        cases h
        exact ⟨_, .directory hentries houtput hfind⟩

/-- A run fails exactly if something is wrong at one of its stages, and then with that error.
Nothing is written to the standard output. All files are what they were, unless it is the counter
descriptions that cannot be read: then the output, if it goes to a file, is empty. -/
theorem run_failsAt (o : Options) (files : Files) :
    (∀ e, (o.run files).error = some e ↔ ∃ stage, o.FailsAt files stage e) ∧
      ∀ stage e, o.FailsAt files stage e →
        (o.run files).stdout = .empty ∧
        ∀ path, (o.run files).files.find? path =
          if stage = .counters ∧ o.output = some path then some (.file .empty)
          else files.find? path := by
  refine ⟨fun e => ⟨exists_failsAt_of_error, ?_⟩, fun stage e h => ?_⟩
  · rintro ⟨stage, h⟩
    obtain ⟨notices, hrun⟩ := run_of_failsAt h
    rw [hrun]
  · obtain ⟨notices, hrun⟩ := run_of_failsAt h
    rw [hrun]
    refine ⟨rfl, fun path => ?_⟩
    cases stage with
    | counters => simp [filesAfter, find?_created]
    | entries => simp [filesAfter]
    | output => simp [filesAfter]

/-- The output is to be written over good descriptions: the run fails, and they are lost. -/
theorem run_failsAt_overwritten :
    let o : Options :=
      { entriesFile := "entries", tid := 1, pid := some 7, counters := some "counters",
        output := some "counters" }
    let files : Files := [("entries", .file .empty), ("counters", .file "{}".toUTF8)]
    (DescriptionFile.parse? "{}".toUTF8).isSome = true ∧ o.FailsAt files .counters .json ∧
      (o.run files).error = some .json ∧ (o.run files).stdout = .empty ∧
      (o.run files).files.find? "counters" = some (.file .empty) ∧
      (o.run files).files.find? "entries" = some (.file .empty) := by
  intro o files
  have hwrite : o.CanWrite files := by
    intro path hpath
    obtain rfl : "counters" = path := Option.some.inj hpath
    exact fun h => nomatch h
  have hfails : o.FailsAt files .counters .json :=
    .counters ⟨.empty, #[], rfl, rfl⟩ hwrite rfl rfl (.overwritten rfl)
  obtain ⟨herror, hafter⟩ := run_failsAt o files
  obtain ⟨hstdout, hfiles⟩ := hafter .counters .json hfails
  exact ⟨by decide +kernel, hfails, (herror .json).2 ⟨_, hfails⟩, hstdout, hfiles "counters",
    hfiles "entries"⟩

/-- A run that fails can cost a file: a profile of two bytes stood at the output, and is gone
because there are no counter descriptions where they are said to be. -/
theorem run_missing_counters :
    let o : Options :=
      { entriesFile := "entries", tid := 1, pid := some 7, counters := some "counters",
        output := some "profile" }
    let files : Files := [("entries", .file .empty), ("profile", .file "{}".toUTF8)]
    (o.run files).error = some .io ∧
      (files.read? "profile").map ByteArray.size = some 2 ∧
      ((o.run files).files.read? "profile").map ByteArray.size = some 0 := by
  decide +kernel

end Options

end TraceProfile.Command
