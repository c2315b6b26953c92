import TraceProfile.Proofs.Buffer.Placement

/-!
# Samples as they are written

A `WrittenSample` is a sample before it has been taken apart into entries, together with what others
write after it. Samples of several threads follow one another in any order. Reading the samples of a
thread from their entries gives those of its samples back, each with its frames
(`RecordedSample.readAll_written`), because no reader takes an entry too few or too many: what may
follow a frame or a sample never starts with an entry that could still belong to it
(`Slot.NotFirst`).
-/

namespace TraceProfile

/-- A label frame before it is written. -/
structure WrittenLabel where
  /-- The text. -/
  text : String
  /-- The flags. -/
  flags : UInt64
  /-- The line, if it is written. -/
  line : Option Int32 := none
  /-- The column, if it is written. -/
  column : Option Int32 := none
  /-- The category, if it is written. -/
  category : Option Int32 := none
  /-- The length of the text fits into an entry. -/
  length_lt : (Utf8.encode text).length < UInt64.size

/-- A frame before it is written. -/
inductive WrittenFrame where
  /-- A label frame. -/
  | label (label : WrittenLabel)
  /-- A frame of compiled code. -/
  | compiled (address : UInt64)
  /-- A frame of native code. -/
  | native (address : UInt64)

/-- The kinds of the entries that samples are made of. -/
def Kind.ofSamples : List Kind :=
  [threadId, time, label, frameFlags, stringFragment, lineNumber, columnNumber, categoryPair,
    jitReturnAddr, nativeLeafAddr, responsiveness]

/-- Entries that belong to no sample: there is no thread entry, and the first entry cannot belong to
the sample before. -/
structure Gap where
  /-- The entries. -/
  entries : List Entry
  /-- None of them is a thread entry. -/
  threadless : ∀ entry ∈ entries, entry.kind ≠ .threadId
  /-- The first of them is of no kind that samples are made of. -/
  foreign : ∀ entry ∈ entries.head?, entry.kind ∉ Kind.ofSamples

/-- A sample before it is written. -/
structure WrittenSample where
  /-- The thread. -/
  tid : Int32
  /-- The time. -/
  time : Binary64
  /-- The frames, outermost first. -/
  frames : List WrittenFrame
  /-- How long the thread had been unresponsive, if it is written. -/
  responsiveness : Option Binary64 := none
  /-- What others write after the sample. -/
  after : Gap

/-- A line, column or category as it is shown: one below zero is not. -/
def shownNumber (n : Int32) : Option Nat := if n.toInt < 0 then none else some n.toInt.toNat

namespace WrittenLabel

/-- The entries after the text. -/
def fields (l : WrittenLabel) : List Entry :=
  (l.line.map .lineNumber).toList ++
    ((l.column.map .columnNumber).toList ++ (l.category.map .categoryPair).toList)

/-- The entries. -/
def entries (l : WrittenLabel) : List Entry := Entry.labelFrame l.text l.flags ++ l.fields

/-- The frame that is read. -/
def frame (l : WrittenLabel) : LabelFrame where
  location := l.text
  relevantForJs := l.flags.toNat.testBit 0 || l.flags.toNat.testBit 1
  line := l.line.bind shownNumber
  column := l.column.bind shownNumber
  category := l.category.bind shownNumber

end WrittenLabel

namespace WrittenFrame

/-- The entries. -/
def entries : WrittenFrame → List Entry
  | label l => l.entries
  | compiled address => [.jitReturnAddr address]
  | native address => [.nativeLeafAddr address]

/-- The frame that is read, if it stands at the position. -/
def recorded (position : Nat) : WrittenFrame → RecordedFrame
  | label l => .label l.frame
  | compiled address => .compiled position address
  | native address => .native address

end WrittenFrame

/-- Things that are written one after the other, each with the position of its first entry. -/
def positions {α : Type} (entries : α → List Entry) (position : Nat) : List α → List (Nat × α)
  | [] => []
  | a :: rest => (position, a) :: positions entries (position + (entries a).length) rest

namespace WrittenSample

/-- The entries of the sample itself after its thread and time. -/
def body (s : WrittenSample) : List Entry :=
  s.frames.flatMap WrittenFrame.entries ++ (s.responsiveness.map .responsiveness).toList

/-- The entries, with those that follow. -/
def entries (s : WrittenSample) : List Entry :=
  .threadId s.tid :: .time s.time :: (s.body ++ s.after.entries)

/-- The frames, each with its position in the sample that stands at the given position. -/
def framesFrom (position : Nat) (s : WrittenSample) : List (Nat × WrittenFrame) :=
  positions WrittenFrame.entries (position + 2) s.frames

/-- The sample that is read, if it stands at the position. -/
def recorded (position : Nat) (s : WrittenSample) : RecordedSample where
  position
  tid := s.tid
  time := s.time
  frames := (s.framesFrom position).map fun frame => frame.2.recorded frame.1
  responsiveness := s.responsiveness

end WrittenSample

/-! ## What comes next -/

/-- The slots do not start with an entry of one of the kinds. -/
def Slot.NotFirst (kinds : List Kind) (slots : List Slot) : Prop :=
  ∀ slot ∈ slots.head?, slot.entry.kind ∉ kinds

namespace Slot

theorem NotFirst.mono {kinds kinds' : List Kind} {slots : List Slot} (h : NotFirst kinds' slots)
    (hkinds : ∀ kind ∈ kinds, kind ∈ kinds') : NotFirst kinds slots := by
  intro slot hslot hmem
  exact h slot hslot (hkinds _ hmem)

theorem notFirst_append {kinds : List Kind} {slots rest : List Slot} (h : NotFirst kinds slots)
    (hrest : NotFirst kinds rest) : NotFirst kinds (slots ++ rest) := by
  intro slot hslot
  cases slots with
  | nil => exact hrest slot hslot
  | cons first slots => exact h slot hslot

theorem notFirst_place {kinds : List Kind} {position : Nat} {entries : List Entry}
    (h : ∀ entry ∈ entries.head?, entry.kind ∉ kinds) :
    NotFirst kinds (place position entries) := by
  intro slot hslot
  cases entries with
  | nil => exact absurd hslot (by simp)
  | cons entry entries =>
    obtain rfl : ⟨position, entry⟩ = slot := Option.some.inj hslot
    exact h entry rfl

/-- An entry that may be missing is of its own kind. -/
theorem notFirst_optional {α : Type} {kinds : List Kind} {write : α → Entry}
    (h : ∀ a, (write a).kind ∉ kinds) (a : Option α) (position : Nat) :
    NotFirst kinds (place position (a.map write).toList) := by
  apply notFirst_place
  intro entry hentry
  cases a with
  | none => exact absurd hentry (by simp)
  | some a =>
    obtain rfl : write a = entry := Option.some.inj hentry
    exact h a

end Slot

/-- An entry that may be missing is read if it is there and missed if it is not. -/
theorem takeIf_optional {α : Type} {read : Entry → Option α} (write : α → Entry) {kind : Kind}
    (hread : ∀ a, read (write a) = some a) (hkind : ∀ entry, entry.kind ≠ kind → read entry = none)
    (a : Option α) (position : Nat) {rest : List Slot} (hrest : Slot.NotFirst [kind] rest) :
    takeIf read (Slot.place position (a.map write).toList ++ rest) = (a, rest) := by
  cases a with
  | some a =>
    show takeIf read (⟨position, write a⟩ :: rest) = (some a, rest)
    rw [takeIf, hread]
  | none =>
    show takeIf read rest = (none, rest)
    cases rest with
    | nil => rfl
    | cons slot rest =>
      have hne : slot.entry.kind ≠ kind := by simpa using hrest slot rfl
      rw [takeIf, hkind slot.entry hne]

/-- The readers of entries that may be missing accept their own kind only. -/
theorem Entry.eq_none_of_kind_ne (entry : Entry) :
    (entry.kind ≠ .lineNumber → entry.lineNumber? = none) ∧
      (entry.kind ≠ .columnNumber → entry.columnNumber? = none) ∧
      (entry.kind ≠ .categoryPair → entry.categoryPair? = none) ∧
      (entry.kind ≠ .responsiveness → entry.responsiveness? = none) := by
  cases entry <;> simp [kind, lineNumber?, columnNumber?, categoryPair?, responsiveness?]

/-! ## Reading label frames -/

theorem FrameFlags.relevantForJs_eq (bits : UInt64) :
    relevantForJs bits = (bits.toNat.testBit 0 || bits.toNat.testBit 1) := by
  have hmod : (bits &&& 3).toNat = bits.toNat % 4 := by
    rw [UInt64.toNat_and]
    exact Nat.and_two_pow_sub_one_eq_mod bits.toNat 2
  have hzero : bits &&& 3 = 0 ↔ bits.toNat % 4 = 0 := by
    rw [← UInt64.toNat_inj, hmod]
    rfl
  rw [Bool.eq_iff_iff, relevantForJs, truncate, known]
  simp only [ne_eq, decide_eq_true_eq, Bool.or_eq_true, Nat.testBit_zero, Nat.testBit_succ, hzero]
  omega

theorem natOfInt32?_eq (n : Int32) : natOfInt32? n = shownNumber n := by
  unfold natOfInt32? shownNumber
  split
  · next h => rw [if_neg (Int.not_lt.2 h)]
  · next h => rw [if_pos (Int.not_le.1 h)]

/-- The kinds that may still belong to a label frame after its text. -/
def Kind.ofFields : List Kind := [lineNumber, columnNumber, categoryPair]

namespace RecordedFrame

/-- What is written after the text of a label frame is read back. -/
theorem takeIf_fields (l : WrittenLabel) (position : Nat) {rest : List Slot}
    (hrest : Slot.NotFirst Kind.ofFields rest) :
    ∃ slots slots',
      takeIf Entry.lineNumber? (Slot.place position l.fields ++ rest) = (l.line, slots) ∧
      takeIf Entry.columnNumber? slots = (l.column, slots') ∧
      takeIf Entry.categoryPair? slots' = (l.category, rest) := by
  rw [WrittenLabel.fields, Slot.place_append, Slot.place_append, List.append_assoc,
    List.append_assoc]
  refine ⟨_, _,
    takeIf_optional .lineNumber (fun _ => rfl) (fun e => e.eq_none_of_kind_ne.1) l.line position ?_,
    takeIf_optional .columnNumber (fun _ => rfl) (fun e => e.eq_none_of_kind_ne.2.1) l.column _ ?_,
    takeIf_optional .categoryPair (fun _ => rfl) (fun e => e.eq_none_of_kind_ne.2.2.1) l.category _
      ?_⟩
  · apply Slot.notFirst_append
    · exact Slot.notFirst_optional (by simp [Entry.kind]) l.column _
    · apply Slot.notFirst_append
      · exact Slot.notFirst_optional (by simp [Entry.kind]) l.category _
      · exact hrest.mono (by simp [Kind.ofFields])
  · apply Slot.notFirst_append
    · exact Slot.notFirst_optional (by simp [Entry.kind]) l.category _
    · exact hrest.mono (by simp [Kind.ofFields])
  · exact hrest.mono (by simp [Kind.ofFields])

/-- A label frame that was written is read back. -/
theorem readLabel_written (l : WrittenLabel) (position : Nat) {rest : List Slot}
    (hrest : Slot.NotFirst Kind.ofFields rest) :
    readLabel (UInt64.ofNat (Utf8.encode l.text).length)
        (Slot.place position (.frameFlags l.flags :: (Entry.fragments l.text ++ l.fields)) ++
          rest) =
      (l.frame, rest) := by
  have hlength : (UInt64.ofNat (Utf8.encode l.text).length).toNat = (Utf8.encode l.text).length :=
    UInt64.toNat_ofNat_of_lt' l.length_lt
  obtain ⟨slots, slots', hline, hcolumn, hcategory⟩ :=
    takeIf_fields l (position + 1 + (Entry.fragments l.text).length) hrest
  obtain ⟨b, hb, htext⟩ := TextBuilder.collect_fragments l.text (position + 1)
    (Slot.place (position + 1 + (Entry.fragments l.text).length) l.fields ++ rest)
  have hnumber : natOfInt32? = shownNumber := funext natOfInt32?_eq
  have hflags (slots : List Slot) :
      takeIf Entry.frameFlags? (⟨position, .frameFlags l.flags⟩ :: slots) = (some l.flags, slots) :=
    rfl
  rw [Slot.place_cons, Slot.place_append, List.cons_append, List.append_assoc]
  simp only [readLabel, hflags, hlength, htext, hline, hcolumn, hcategory, hb, hnumber,
    Option.any_some, FrameFlags.relevantForJs_eq]
  rfl

/-- One frame that was written is read, and then what comes after it. -/
theorem readAll_frame (frame : WrittenFrame) (position : Nat) {rest : List Slot}
    (hrest : Slot.NotFirst Kind.ofFields rest) :
    readAll (Slot.place position frame.entries ++ rest) =
      (frame.recorded position :: (readAll rest).1, (readAll rest).2) := by
  cases frame with
  | label l =>
    have hlabel := readLabel_written l (position + 1) hrest
    have hentries : Slot.place position (WrittenFrame.label l).entries ++ rest =
        ⟨position, .label (UInt64.ofNat (Utf8.encode l.text).length)⟩ ::
          (Slot.place (position + 1)
            (.frameFlags l.flags :: (Entry.fragments l.text ++ l.fields)) ++ rest) := rfl
    rw [hentries, readAll]
    simp only [hlabel]
    rfl
  | compiled address =>
    show readAll (⟨position, .jitReturnAddr address⟩ :: rest) = _
    rw [readAll]
    rfl
  | native address =>
    show readAll (⟨position, .nativeLeafAddr address⟩ :: rest) = _
    rw [readAll]
    rfl

/-- The kinds that may still belong to a sample after a frame of it. -/
def ofFrames : List Kind := [.label, .jitReturnAddr, .nativeLeafAddr] ++ Kind.ofFields

/-- Where no frame starts, none is read. -/
theorem readAll_of_notFirst {slots : List Slot} (h : Slot.NotFirst ofFrames slots) :
    readAll slots = ([], slots) := by
  cases slots with
  | nil => rw [readAll]
  | cons slot rest =>
    obtain ⟨p, entry⟩ := slot
    have hkind : entry.kind ∉ ofFrames := h ⟨p, entry⟩ rfl
    rw [readAll]
    split
    · next length heq =>
      obtain rfl : entry = .label length := heq
      exact absurd hkind (by simp [Entry.kind, ofFrames])
    · next address heq =>
      obtain rfl : entry = .jitReturnAddr address := heq
      exact absurd hkind (by simp [Entry.kind, ofFrames])
    · next address heq =>
      obtain rfl : entry = .nativeLeafAddr address := heq
      exact absurd hkind (by simp [Entry.kind, ofFrames])
    · rfl

/-- Frames do not start with an entry that may belong to the frame before. -/
theorem notFirst_frames (frames : List WrittenFrame) (position : Nat) :
    Slot.NotFirst Kind.ofFields (Slot.place position (frames.flatMap WrittenFrame.entries)) := by
  apply Slot.notFirst_place
  intro entry hentry
  rcases frames with _ | ⟨frame, frames⟩
  · exact absurd hentry (by simp)
  · cases frame with
    | label l =>
      obtain rfl := Option.some.inj hentry
      simp [Entry.kind, Kind.ofFields]
    | compiled address =>
      obtain rfl := Option.some.inj hentry
      simp [Entry.kind, Kind.ofFields]
    | native address =>
      obtain rfl := Option.some.inj hentry
      simp [Entry.kind, Kind.ofFields]

/-- Frames that were written are read back, each with its position. -/
theorem readAll_written (frames : List WrittenFrame) (position : Nat) {rest : List Slot}
    (hrest : Slot.NotFirst ofFrames rest) :
    readAll (Slot.place position (frames.flatMap WrittenFrame.entries) ++ rest) =
      ((positions WrittenFrame.entries position frames).map fun frame => frame.2.recorded frame.1,
        rest) := by
  induction frames generalizing position with
  | nil => exact readAll_of_notFirst hrest
  | cons frame frames ih =>
    have hnext : Slot.NotFirst Kind.ofFields
        (Slot.place (position + frame.entries.length) (frames.flatMap WrittenFrame.entries) ++
          rest) := by
      apply Slot.notFirst_append
      · exact notFirst_frames frames _
      · apply hrest.mono
        intro kind hkind
        exact List.mem_append_right _ hkind
    rw [List.flatMap_cons, Slot.place_append, List.append_assoc, readAll_frame _ _ hnext, ih]
    rfl

end RecordedFrame

/-! ## Reading samples -/

namespace RecordedSample

/-- Slots without thread entries are passed over. -/
theorem readAll_append (tid : Int32) {slots : List Slot}
    (h : ∀ slot ∈ slots, slot.entry.kind ≠ .threadId) (rest : List Slot) :
    readAll tid (slots ++ rest) = readAll tid rest := by
  induction slots with
  | nil => rfl
  | cons slot slots ih =>
    obtain ⟨p, entry⟩ := slot
    have hkind : entry.kind ≠ .threadId := h ⟨p, entry⟩ List.mem_cons_self
    rw [List.cons_append, readAll, ih fun slot hslot => h slot (List.mem_cons_of_mem _ hslot)]
    intro position t timePosition time more heq _
    obtain rfl : entry = .threadId t := congrArg Slot.entry heq
    exact hkind rfl

/-- No entry of a sample but the first is a thread entry. -/
theorem kind_ne_threadId_of_mem_body {s : WrittenSample} {entry : Entry} (h : entry ∈ s.body) :
    entry.kind ≠ .threadId := by
  rcases List.mem_append.1 h with hframe | hresponsiveness
  · obtain ⟨frame, -, hentry⟩ := List.mem_flatMap.1 hframe
    cases frame with
    | label l =>
      simp only [WrittenFrame.entries, WrittenLabel.entries, Entry.labelFrame, Entry.fragments,
        WrittenLabel.fields, List.cons_append, List.mem_cons, List.mem_append, List.mem_map,
        Option.mem_toList, Option.map_eq_some_iff] at hentry
      rcases hentry with rfl | rfl | ⟨_, -, rfl⟩ | ⟨_, -, rfl⟩ | ⟨_, -, rfl⟩ | ⟨_, -, rfl⟩ <;>
        simp [Entry.kind]
    | compiled address =>
      rw [List.mem_singleton.1 hentry]
      simp [Entry.kind]
    | native address =>
      rw [List.mem_singleton.1 hentry]
      simp [Entry.kind]
  · obtain ⟨duration, -, rfl⟩ := Option.map_eq_some_iff.1 (Option.mem_toList.1 hresponsiveness)
    simp [Entry.kind]

/-- The kinds that may still belong to a sample. -/
def ofRest : List Kind := .responsiveness :: RecordedFrame.ofFrames

theorem notFirst_after (gap : Gap) (position : Nat) {rest : List Slot}
    (hrest : Slot.NotFirst ofRest rest) :
    Slot.NotFirst ofRest (Slot.place position gap.entries ++ rest) := by
  apply Slot.notFirst_append _ hrest
  apply Slot.notFirst_place
  intro entry hentry hmem
  apply gap.foreign entry hentry
  have hsubset : ofRest ⊆ Kind.ofSamples := by decide
  exact hsubset hmem

/-- No sample starts after the thread entry of a sample and before the next one. -/
theorem readAll_after_threadId (tid : Int32) (s : WrittenSample) (position : Nat)
    (rest : List Slot) :
    readAll tid (⟨position + 1, .time s.time⟩ :: (Slot.place (position + 2) s.body ++
        (Slot.place (position + 2 + s.body.length) s.after.entries ++ rest))) =
      readAll tid rest := by
  rw [← List.append_assoc, ← List.cons_append]
  apply readAll_append
  intro slot hslot
  rcases List.mem_cons.1 hslot with rfl | hslot
  · simp [Entry.kind]
  · rcases List.mem_append.1 hslot with hbody | hgap
    · exact kind_ne_threadId_of_mem_body (Slot.mem_place hbody)
    · exact s.after.threadless _ (Slot.mem_place hgap)

/-- The frames and the responsiveness of a sample are read back. -/
theorem readAll_body (s : WrittenSample) (position : Nat) {rest : List Slot}
    (hrest : Slot.NotFirst ofRest rest) :
    ∃ slots, RecordedFrame.readAll (Slot.place (position + 2) s.body ++ rest) =
        ((s.recorded position).frames, slots) ∧
      takeIf Entry.responsiveness? slots = (s.responsiveness, rest) := by
  refine ⟨Slot.place (position + 2 + (s.frames.flatMap WrittenFrame.entries).length)
    (s.responsiveness.map .responsiveness).toList ++ rest, ?_, ?_⟩
  · rw [WrittenSample.body, Slot.place_append, List.append_assoc]
    apply RecordedFrame.readAll_written
    apply Slot.notFirst_append
    · exact Slot.notFirst_optional (by simp [Entry.kind, RecordedFrame.ofFrames, Kind.ofFields]) _ _
    · apply hrest.mono
      intro kind hkind
      exact List.mem_cons_of_mem _ hkind
  · apply takeIf_optional .responsiveness (fun _ => rfl)
      (fun entry => entry.eq_none_of_kind_ne.2.2.2)
    exact hrest.mono (by simp [ofRest])

/-- One sample that was written is read if it is one of the thread, and passed over if not. -/
theorem readAll_sample (tid : Int32) (s : WrittenSample) (position : Nat) {rest : List Slot}
    (hrest : Slot.NotFirst ofRest rest) :
    readAll tid (Slot.place position s.entries ++ rest) =
      if s.tid = tid then s.recorded position :: readAll tid rest else readAll tid rest := by
  have hafter := notFirst_after s.after (position + 2 + s.body.length) hrest
  obtain ⟨slots, hframes, hresponsiveness⟩ := readAll_body s position hafter
  have hentries : Slot.place position s.entries ++ rest =
      ⟨position, .threadId s.tid⟩ :: ⟨position + 1, .time s.time⟩ ::
        (Slot.place (position + 2) s.body ++
          (Slot.place (position + 2 + s.body.length) s.after.entries ++ rest)) := by
    rw [WrittenSample.entries, Slot.place_cons, Slot.place_cons, Slot.place_append,
      List.cons_append, List.cons_append, List.append_assoc]
  rw [hentries, readAll, readAll_after_threadId]
  split
  · next htid =>
    simp only [hframes, hresponsiveness, ← htid]
    rfl
  · rfl

/-- The samples of a thread that were written are read back, each with its position. -/
theorem readAll_written (tid : Int32) (samples : List WrittenSample) (position : Nat) :
    readAll tid (Slot.place position (samples.flatMap WrittenSample.entries)) =
      ((positions WrittenSample.entries position samples).filter fun s => s.2.tid = tid).map
        fun s => s.2.recorded s.1 := by
  induction samples generalizing position with
  | nil => rfl
  | cons s samples ih =>
    have hnext : Slot.NotFirst ofRest (Slot.place (position + s.entries.length)
        (samples.flatMap WrittenSample.entries)) := by
      apply Slot.notFirst_place
      intro entry hentry
      rcases samples with _ | ⟨s', samples⟩
      · exact absurd hentry (by simp)
      · obtain rfl : .threadId s'.tid = entry := Option.some.inj hentry
        simp [Entry.kind, ofRest, RecordedFrame.ofFrames, Kind.ofFields]
    rw [List.flatMap_cons, Slot.place_append, readAll_sample tid s position hnext, ih, positions,
      List.filter_cons]
    by_cases htid : s.tid = tid
    · simp [htid]
    · simp [htid]

end RecordedSample

end TraceProfile
