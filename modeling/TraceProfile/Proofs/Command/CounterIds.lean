import TraceProfile.Proofs.Buffer.Codec
import TraceProfile.Proofs.Command.Failure
import TraceProfile.Proofs.Number.Numerals

/-!
# Counters and the keys that describe them

A key of the file of descriptions stands for a counter by its number: decimal, or hexadecimal after
the mark `0x` (`CounterIdText`). The mark decides the base, so no text is read in two ways, and a
number that does not fit 64 bits stands for no counter. Both usual ways to write an id are read back
as that id, the one under which a counter without a description is shown among them.

Where no two keys stand for one counter, every counter of a profile has the description that stands
under its key, and its id for a name if it has no key. This is said of whole runs, from the files to
what is written to the output (`Options.run_countersDescribed`).
-/

namespace TraceProfile

/-! ## The texts of ids -/

/-- The text stands for a number: after the mark `0x` a hexadecimal one, else a decimal one. -/
inductive CounterIdText : List Char → Nat → Prop where
  /-- The mark, and a hexadecimal number. -/
  | hex {digits : List Char} {n : Nat} (h : Number.Unsigned 16 digits n) :
      CounterIdText ("0x".toList ++ digits) n
  /-- A decimal number without the mark. -/
  | decimal {text : List Char} {n : Nat} (hmark : ¬"0x".toList <+: text)
      (h : Number.Unsigned 10 text n) : CounterIdText text n

/-- The number that a text stands for, whatever its size. -/
def readCounterNumber? (text : List Char) : Option Nat :=
  match text with
  | '0' :: 'x' :: digits => Number.readUnsigned? 16 digits
  | digits => Number.readUnsigned? 10 digits

theorem readCounterNumber?_eq_some_iff {text : List Char} {n : Nat} :
    readCounterNumber? text = some n ↔ CounterIdText text n := by
  unfold readCounterNumber?
  split
  · next digits =>
    rw [Number.readUnsigned?_eq_some_iff (by decide)]
    constructor
    · exact .hex
    · intro h
      cases h with
      | hex h => exact h
      | decimal hmark _ => exact absurd (List.prefix_append _ _) hmark
  · next hmark =>
    rw [Number.readUnsigned?_eq_some_iff (by decide)]
    constructor
    · refine .decimal ?_
      rintro ⟨digits, rfl⟩
      exact hmark digits rfl
    · intro h
      cases h with
      | hex _ => exact absurd rfl (hmark _)
      | decimal _ h => exact h

theorem readCounterId?_eq (text : List Char) : readCounterId? text =
    (readCounterNumber? text).bind fun n =>
      if n < 0x10000000000000000 then some (UInt64.ofNat n) else none := by
  unfold readCounterId?
  extract_lets value
  have hvalue : value = readCounterNumber? text := rfl
  rw [hvalue]
  cases readCounterNumber? text <;> rfl

/-- A number is read exactly if it stands there and fits 64 bits. -/
theorem map_toNat_readCounterId? {text : List Char} {n : Nat} :
    (readCounterId? text).map UInt64.toNat = some n ↔ n < 2 ^ 64 ∧ CounterIdText text n := by
  rw [readCounterId?_eq, ← readCounterNumber?_eq_some_iff]
  cases readCounterNumber? text with
  | none => simp
  | some m =>
    rw [Option.bind_some]
    split
    · next hlt =>
      rw [Option.map_some, UInt64.toNat_ofNat_of_lt' hlt]
      refine ⟨?_, And.right⟩
      intro h
      cases h
      exact ⟨hlt, rfl⟩
    · next hle =>
      simp only [Option.map_none, reduceCtorEq, false_iff, not_and, Option.some.injEq]
      rintro hlt rfl
      exact hle hlt

theorem readCounterId?_eq_some_iff {text : List Char} {id : UInt64} :
    readCounterId? text = some id ↔ CounterIdText text id.toNat := by
  have hread :
      (readCounterId? text).map UInt64.toNat = some id.toNat ↔ CounterIdText text id.toNat :=
    map_toNat_readCounterId?.trans (and_iff_right id.toNat_lt)
  rw [← hread, ← Option.map_some, (Option.map_injective fun _ _ => UInt64.toNat_inj.1).eq_iff]

/-- Nothing is read exactly if no number stands there, or one that does not fit 64 bits. -/
theorem readCounterId?_eq_none_iff {text : List Char} :
    readCounterId? text = none ↔ ∀ n, CounterIdText text n → 2 ^ 64 ≤ n := by
  rw [← Option.map_eq_none_iff (f := UInt64.toNat), Option.eq_none_iff_forall_ne_some]
  simp only [ne_eq, map_toNat_readCounterId?, not_and', Nat.not_lt]

/-! ## Written ids -/

theorem counterIdText_decimal (n : Nat) : CounterIdText (toString n).toList n := by
  rw [Nat.toString_eq_ofList_toDigits, String.toList_ofList]
  refine .decimal ?_ (.plain (Number.numeral_toDigits (by decide) n))
  -- The mark has a letter, and a decimal numeral has none.
  intro hmark
  have hletter : 'x' ∈ Nat.toDigits 10 n := hmark.subset (by decide)
  exact absurd (Nat.isDigit_of_mem_toDigits Nat.ofNat_pos (Nat.le_refl 10) hletter) (by decide)

theorem counterIdText_hexAddress (n : Nat) : CounterIdText (Number.hexAddress n).toList n := by
  have hnumeral : Number.Numeral 16 (Number.hex n).toList n := by
    rw [Number.hex, String.toList_ofList]
    exact Number.numeral_toDigits (by decide) n
  rw [Number.hexAddress, String.toList_append]
  exact .hex (.plain hnumeral)

/-! ## The file of descriptions -/

namespace DescriptionFile

/-- The description under a key. Of several descriptions under one key the last one counts. -/
def find? (file : DescriptionFile) (key : String) : Option CounterDescription :=
  file.reverse.lookup key

/-- No two keys stand for one counter. -/
def Unambiguous (file : DescriptionFile) : Prop :=
  ∀ entry ∈ file, ∀ other ∈ file, (readCounterId? entry.1.toList).isSome →
    readCounterId? entry.1.toList = readCounterId? other.1.toList → entry.1 = other.1

/-- The counter has the description under the key that stands for it, or its id for a name if no key
does. -/
structure Describes (file : DescriptionFile) (counter : Counter) : Prop where
  of_key : ∀ key description, file.find? key = some description →
    readCounterId? key.toList = some counter.id → counter.description = description
  of_no_key : (∀ entry ∈ file, readCounterId? entry.1.toList ≠ some counter.id) →
    counter.description =
      { name := "0x" ++ Number.hex counter.id.toNat, category := "", description := "" }

/-- The description of a counter is under the last key that stands for it. -/
theorem getElem?_index (file : DescriptionFile) (id : UInt64) :
    file.index[id]? = file.reverse.findSome? fun entry =>
      if readCounterId? entry.1.toList = some id then some entry.2 else none := by
  -- The tree is searched from the last entry on, and among the keys that are ids only. Both
  -- searches become one through the file: a search finds the head of what a filter leaves.
  rw [index, Std.TreeMap.ofList_eq_insertMany_empty, Std.TreeMap.getElem?_insertMany_list,
    List.findSomeRev?_eq_findSome?_reverse, Std.TreeMap.getElem?_emptyc, Option.or_none,
    ← List.filterMap_reverse, ← List.head?_filterMap, List.filterMap_filterMap,
    List.head?_filterMap]
  refine congrArg (List.findSome? · _) (funext fun entry => ?_)
  obtain ⟨key, description⟩ := entry
  cases hkey : readCounterId? key.toList with
  | none => simp [hkey]
  | some other => simp [hkey]

theorem getElem?_index_of_key {file : DescriptionFile} (h : file.Unambiguous) {key : String}
    {description : CounterDescription} {id : UInt64} (hfind : file.find? key = some description)
    (hid : readCounterId? key.toList = some id) : file.index[id]? = some description := by
  have hmem : (key, description) ∈ file := by
    obtain ⟨_, _, hfile, -⟩ := List.lookup_eq_some_iff.1 hfind
    exact List.mem_reverse.1 (hfile ▸ List.mem_append_right _ List.mem_cons_self)
  rw [← hfind, getElem?_index, find?, List.lookup_eq_findSome?, ← List.head?_filterMap,
    ← List.head?_filterMap]
  refine congrArg List.head? (List.filterMap_congr fun entry hentry => ?_)
  have hsame : readCounterId? entry.1.toList = some id ↔ key = entry.1 := by
    constructor
    · intro hother
      exact h _ hmem entry (List.mem_reverse.1 hentry) (by simp [hid]) (hid.trans hother.symm)
    · rintro rfl
      exact hid
  simp only [hsame, beq_iff_eq]

theorem getElem?_index_of_no_key {file : DescriptionFile} {id : UInt64}
    (h : ∀ entry ∈ file, readCounterId? entry.1.toList ≠ some id) : file.index[id]? = none := by
  rw [getElem?_index, List.findSome?_eq_none_iff]
  intro entry hentry
  exact if_neg (h entry (List.mem_reverse.1 hentry))

theorem describes_of_mem_counters {file : DescriptionFile} (h : file.Unambiguous) {w : Window}
    {settings : Settings} {counter : Counter}
    (hcounter : counter ∈ w.counters (fun id => file.index[id]?) settings) :
    file.Describes counter := by
  rw [Window.counters, Counter.ofRecords, List.mem_map] at hcounter
  obtain ⟨⟨id, members⟩, -, rfl⟩ := hcounter
  constructor
  · intro key description hfind hid
    simp only [getElem?_index_of_key h hfind hid, Option.getD_some]
  · intro hnone
    simp only [getElem?_index_of_no_key hnone, Option.getD_none]
    rfl

end DescriptionFile

/-! ## Counters in the output -/

/-- The object shows the texts of the description. -/
structure CounterDescription.Labels (d : CounterDescription) (json : Json) : Prop where
  name_eq : json.field? "name" = some (.str d.name)
  category_eq : json.field? "category" = some (.str d.category)
  description_eq : json.field? "description" = some (.str d.description)

/-- An emitted counter shows its description. -/
theorem Counter.labels_toJson (counter : Counter) : counter.description.Labels counter.toJson :=
  ⟨rfl, rfl, rfl⟩

/-- The emitted counters of a process are its counters, in order, and show their descriptions. -/
theorem ProcessProfile.labels_toJson (p : ProcessProfile) :
    ∃ emitted, p.toJson.field? "counters" = some (.arr emitted) ∧
      List.Forall₂ (fun counter json => counter.description.Labels json) p.tables.counters
        emitted := by
  refine ⟨p.tables.counters.map Counter.toJson, rfl, ?_⟩
  rw [List.forall₂_map_right_iff, List.forall₂_same]
  exact fun counter _ => counter.labels_toJson

namespace Command.Options

variable {o : Options} {files : Files}

/-- What a run has written to its output. -/
def written? (o : Options) (outcome : Outcome) : Option ByteArray :=
  match o.output with
  | some path => outcome.files.read? path
  | none => some outcome.stdout

theorem written?_emit (o : Options) (files : Files) (profile : Json) (notices : List Notice) :
    o.written? (o.emit files profile notices) = some (profile.render o.pretty ++ "\n").toUTF8 := by
  rw [written?, emit]
  cases o.output with
  | none => rfl
  | some path => simp only [Files.read?, Files.find?_write_self]

/-- The counter descriptions are in a file other than the output. -/
def ReadsDescriptions (o : Options) (files : Files) (file : DescriptionFile) : Prop :=
  ∃ path bytes, o.counters = some path ∧ o.output ≠ some path ∧
    files.find? path = some (.file bytes) ∧ DescriptionFile.parse? bytes = some file

theorem readDescriptions_created {file : DescriptionFile} (h : o.ReadsDescriptions files file) :
    o.readDescriptions (o.created files) = .ok file := by
  obtain ⟨path, bytes, hcounters, houtput, hfind, hparse⟩ := h
  simp only [readDescriptions, hcounters, find?_created, if_neg houtput, hfind, hparse]

/-- The process that is shown with a file of counter descriptions. -/
def process (o : Options) (pid : UInt32) (w : Window) (file : DescriptionFile) :
    ProcessProfile where
  name := "Process " ++ toString pid.toNat
  pid
  threads := [o.thread w]
  tables := .ofWindow w (fun id => file.index[id]?) o.settings

/-- Where nothing is wrong, the process is written to the output. -/
theorem run_process {bytes : ByteArray} {entries : Array Entry} {pid : UInt32}
    {file : DescriptionFile} (hread : files.read? o.entriesFile = some bytes)
    (hdecode : Entry.decodeAll bytes = .ok entries) (hwrite : o.CanWrite files)
    (hpid : o.pid = some pid) (hfile : o.ReadsDescriptions files file) :
    (o.run files).error = none ∧ o.written? (o.run files) =
      some ((o.process pid (o.window entries) file).toJson.render o.pretty ++ "\n").toUTF8 := by
  simp only [run, hread, hdecode, createOutput_of_canWrite hwrite, hpid, emitProcess,
    readDescriptions_created hfile, error_emit, written?_emit]
  exact ⟨trivial, rfl⟩

/-- A text is read as an id exactly if it stands for a number of 64 bits, and what is written for an
id is read as that id. In a run with a file of descriptions in which no two keys stand for one
counter, the process that is written has one counter for each id with a value that is shown, and
each of them has the description under its key, or its id for a name if it has no key. In what is
written, the counters stand in this order and show their descriptions. -/
theorem run_countersDescribed :
    (∀ (text : String) (n : Nat), (readCounterId? text.toList).map UInt64.toNat = some n ↔
      n < 2 ^ 64 ∧ CounterIdText text.toList n) ∧
    (∀ text : String, readCounterId? text.toList = none ↔
      ∀ n, CounterIdText text.toList n → 2 ^ 64 ≤ n) ∧
    (∀ id : UInt64, readCounterId? (toString id.toNat).toList = some id ∧
      readCounterId? ("0x" ++ Number.hex id.toNat).toList = some id) ∧
    ∀ (o : Options) (files : Files) (bytes : ByteArray) (entries : Array Entry) (pid : UInt32)
      (file : DescriptionFile), files.read? o.entriesFile = some bytes →
      Entry.decodeAll bytes = .ok entries → o.CanWrite files → o.pid = some pid →
      o.ReadsDescriptions files file → file.Unambiguous →
      let w := o.window entries
      let process := o.process pid w file
      (o.run files).error = none ∧
      o.written? (o.run files) = some (process.toJson.render o.pretty ++ "\n").toUTF8 ∧
      process.tables.counters.map Counter.id =
        ((w.counterRecords o.settings).map CounterRecord.id).eraseDups ∧
      (∀ counter ∈ process.tables.counters, file.Describes counter) ∧
      ∃ emitted, process.toJson.field? "counters" = some (.arr emitted) ∧
        List.Forall₂ (fun counter json => counter.description.Labels json)
          process.tables.counters emitted := by
  refine ⟨fun _ _ => map_toNat_readCounterId?, fun _ => readCounterId?_eq_none_iff, ?_, ?_⟩
  · intro id
    exact ⟨readCounterId?_eq_some_iff.2 (counterIdText_decimal id.toNat),
      readCounterId?_eq_some_iff.2 (counterIdText_hexAddress id.toNat)⟩
  · intro o files bytes entries pid file hread hdecode hwrite hpid hfile hkeys w process
    obtain ⟨herror, hwritten⟩ := run_process hread hdecode hwrite hpid hfile
    refine ⟨herror, hwritten, ?_, fun counter => DescriptionFile.describes_of_mem_counters hkeys,
      process.labels_toJson⟩
    change (w.counters (fun id => file.index[id]?) o.settings).map Counter.id = _
    rw [Window.counters, Counter.ofRecords, groupBy_eq, List.map_map, List.map_map]
    exact List.map_id _

/-- One of two counters is described, by its hexadecimal id. -/
theorem run_countersDescribed_one :
    let file : DescriptionFile := [("0x1F", ⟨"heap", "memory", ""⟩), ("heap", ⟨"", "", ""⟩)]
    let content := "\x7b\"0x1F\":[\"heap\",\"memory\",\"\"],\"heap\":[\"\",\"\",\"\"]\x7d"
    let entries : Array Entry := #[.counterId 12, .time default, .counterKey 1, .count 5,
      .counterId 31, .time default, .counterKey 1, .count 7]
    let o : Options :=
      { entriesFile := "entries", tid := 1, pid := some 7, counters := some "counters" }
    let files : Files :=
      [("entries", .file (Entry.encodeAll entries)), ("counters", .file content.toUTF8)]
    let process := o.process 7 (o.window entries) file
    file.Unambiguous ∧ o.ReadsDescriptions files file ∧ (o.run files).error = none ∧
      o.written? (o.run files) = some (process.toJson.render false ++ "\n").toUTF8 ∧
      process.tables.counters.map Counter.description =
        [⟨"0xc", "", ""⟩, ⟨"heap", "memory", ""⟩] ∧
      (∀ counter ∈ process.tables.counters, file.Describes counter) ∧
      ∃ first second, process.toJson.field? "counters" = some (.arr [first, second]) ∧
        first.field? "name" = some (.str "0xc") ∧
        CounterDescription.Labels ⟨"heap", "memory", ""⟩ second := by
  intro file content entries o files process
  have hkeys : file.Unambiguous := by
    rw [DescriptionFile.Unambiguous]
    decide +kernel
  have hparse : DescriptionFile.parse? content.toUTF8 = some file := by decide +kernel
  have hfile : o.ReadsDescriptions files file :=
    ⟨"counters", content.toUTF8, rfl, by simp [o], rfl, hparse⟩
  obtain ⟨-, -, -, hrun⟩ := run_countersDescribed
  obtain ⟨herror, hwritten, -, hdescribes, emitted, hemitted, hlabels⟩ :=
    hrun o files _ entries 7 file rfl (Entry.decodeAll_encodeAll entries)
      (fun path hpath => nomatch hpath) rfl hfile hkeys
  have hcounters : process.tables.counters.map Counter.description =
      [⟨"0xc", "", ""⟩, ⟨"heap", "memory", ""⟩] := by decide +kernel
  have hpairs : List.Forall₂ CounterDescription.Labels
      (process.tables.counters.map Counter.description) emitted :=
    List.forall₂_map_left_iff.2 hlabels
  rw [hcounters] at hpairs
  obtain ⟨first, _, hfirst, hrest, rfl⟩ := List.forall₂_cons_left_iff.1 hpairs
  obtain ⟨second, _, hsecond, hnil, rfl⟩ := List.forall₂_cons_left_iff.1 hrest
  obtain rfl := List.forall₂_nil_left_iff.1 hnil
  exact ⟨hkeys, hfile, herror, hwritten, hcounters, hdescribes, first, second, hemitted,
    hfirst.name_eq, hsecond⟩

end Command.Options

end TraceProfile
