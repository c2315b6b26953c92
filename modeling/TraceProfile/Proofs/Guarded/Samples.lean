import TraceProfile.Profile.Thread
import TraceProfile.Proofs.Guarded.Cursor
import TraceProfile.Proofs.Reading.SinglePass

/-!
# Samples without faults

The samples of a thread, read in one pass by a cursor with each accessor, slice, subtraction and
addition checked. A text takes no more bytes from a fragment than are due, and not more than the
fragment has, so it never gets longer than declared, whatever length was declared.
-/

namespace TraceProfile

namespace Entry

/-- The bytes of a text, if the entry holds them. -/
def fragment? : Entry → Option Chunk
  | stringFragment chars => some chars
  | _ => none

/-- The time of a sample or of a reading, if the entry holds one. -/
def time? : Entry → Option Binary64
  | time t => some t
  | _ => none

theorem time?_eq_some_iff {entry : Entry} {t : Binary64} :
    entry.time? = some t ↔ entry = .time t := by
  cases entry <;> simp [time?]

end Entry

namespace RecordedSample

/-! ## One slot of a single pass -/

theorem readOn_of_ne {tid : Int32} {slot : Slot} (h : slot.entry ≠ .threadId tid)
    (shown : Binary64 → Bool) (rest : List Slot) :
    readOn tid shown (slot :: rest) = readOn tid shown rest := by
  rw [readOn_eq, readOn_eq, readAll_cons, first?_of_ne h]
  rfl

theorem readOn_of_untimed {tid : Int32} {rest : List Slot}
    (h : (takeIf Entry.time? rest).1 = none) (position : Nat) (t : Int32)
    (shown : Binary64 → Bool) :
    readOn tid shown (⟨position, .threadId t⟩ :: rest) = readOn tid shown rest := by
  have hfirst : first? tid (⟨position, .threadId t⟩ :: rest) = none := by
    rw [Option.eq_none_iff_forall_ne_some]
    intro sample hsample
    obtain ⟨timePosition, more, heq⟩ := first?_eq_some hsample
    obtain ⟨-, rfl⟩ := List.cons.inj heq
    exact absurd h (by simp [takeIf, Entry.time?])
  rw [readOn_eq, readOn_eq, readAll_cons, hfirst]
  rfl

end RecordedSample

namespace Tables

/-! ## Adding frames one by one -/

theorem timeline_appendAll (t : Tables) (outer : StackNode) (keys : List FrameKey) :
    (t.appendAll outer keys).2.timeline = t.timeline := by
  induction keys generalizing t outer with
  | nil => rfl
  | cons key keys ih => exact ih (t.append outer key).2 (t.append outer key).1

theorem appendAll_append (t : Tables) (outer : StackNode) (keys keys' : List FrameKey) :
    t.appendAll outer (keys ++ keys') =
      (t.appendAll outer keys).2.appendAll (t.appendAll outer keys).1 keys' := by
  induction keys generalizing t outer with
  | nil => rfl
  | cons key keys ih => exact ih (t.append outer key).2 (t.append outer key).1

end Tables

namespace Guarded

/-! ## Texts -/

/-- A text of a declared length; room is set aside for some of it. -/
def textOfLength (length : UInt64) : Guarded TextBuilder := do
  allocate (min length.toNat 512)
  return { limit := some length.toNat }

/-- Takes the bytes of a fragment that belong to the text. -/
def push (b : TextBuilder) (chars : Chunk) : Guarded TextBuilder :=
  if b.isComplete then return b
  else
    match b with
    | ⟨some limit, bytes, terminated⟩ => do
      let remaining ← sub limit bytes.size
      let part ← slice chars.toArray (min remaining 8)
      return ⟨some limit, bytes ++ part, terminated⟩
    | ⟨none, bytes, _⟩ =>
      match chars.toArray.toList.findIdx? (· == 0) with
      | some stop => do
        let part ← slice chars.toArray stop
        return ⟨none, bytes ++ part, true⟩
      | none => return ⟨none, bytes ++ chars.toArray, false⟩

/-- Takes one fragment, unless the text is complete. -/
def collectRound (b : TextBuilder) (c : Cursor) : Guarded (ForInStep (TextBuilder × Cursor)) :=
  if b.isComplete then return .done (b, c)
  else do
    match ← readIf .stringFragment Entry.readChars c with
    | (some chars, c) =>
      let b ← push b chars
      return .yield (b, c)
    | (none, c) => return .done (b, c)

theorem ensures_textOfLength (length : UInt64) :
    (textOfLength length).Ensures (· = { limit := some length.toNat }) := by
  have hroom : 2 * min length.toNat 512 < UInt64.size := by
    rw [UInt64.size]
    omega
  refine (ensures_allocate hroom).bind ?_
  rintro _ -
  exact .pure rfl

/-- The bytes before the first zero. -/
theorem takeWhile_ne_zero (bytes : Array UInt8) :
    bytes.takeWhile (· ≠ 0) = bytes.extract 0 (bytes.toList.findIdx (· == 0)) := by
  refine Array.toList_inj.1 ?_
  rw [Array.toList_takeWhile, Array.toList_extract, List.extract_eq_take_drop, List.drop_zero,
    Nat.sub_zero, List.takeWhile_eq_take_findIdx_not]
  congr 2
  funext b
  simp [BEq.beq]

theorem extract_min_size {α : Type} (items : Array α) (count : Nat) :
    items.extract 0 (min count items.size) = items.extract 0 count := by
  refine Array.toList_inj.1 ?_
  simp [List.take_eq_take_iff]

theorem ensures_push (b : TextBuilder) (chars : Chunk) :
    (push b chars).Ensures (· = b.push chars) := by
  have hsize : chars.toArray.size = 8 := Vector.size_toArray chars
  unfold push TextBuilder.push
  split
  · exact .pure rfl
  · next hcomplete =>
    obtain ⟨_ | limit, bytes, terminated⟩ := b
    · have htext := takeWhile_ne_zero chars.toArray
      simp only [htext]
      split
      · next stop hstop =>
        obtain ⟨hlt, hindex⟩ := List.findIdx?_eq_some_iff_findIdx_eq.1 hstop
        rw [Array.length_toList] at hlt
        refine (ensures_slice (Nat.le_of_lt hlt)).bind ?_
        rintro _ rfl
        rw [hsize] at hlt
        refine .pure ?_
        rw [hindex, Array.size_extract, hsize, Nat.min_eq_left (Nat.le_of_lt hlt), Nat.sub_zero,
          decide_eq_true hlt]
      · next hstop =>
        have hindex := List.findIdx?_eq_none_iff_findIdx_eq.1 hstop
        refine .pure ?_
        rw [hindex, Array.length_toList, Array.extract_size, hsize,
          decide_eq_false (Nat.lt_irrefl 8)]
    · have hdue : bytes.size ≤ limit := by
        simp only [TextBuilder.isComplete, decide_eq_true_eq] at hcomplete
        exact Nat.le_of_not_le hcomplete
      refine (ensures_sub hdue).bind ?_
      rintro _ rfl
      have hpart := extract_min_size chars.toArray (limit - bytes.size)
      rw [hsize] at hpart
      have hstop : min (limit - bytes.size) 8 ≤ chars.toArray.size := by
        rw [hsize]
        exact Nat.min_le_right _ 8
      refine (ensures_slice hstop).bind ?_
      rintro _ rfl
      rw [hpart]
      exact .pure rfl

theorem reads_stringFragment : Reads .stringFragment Entry.readChars Entry.fragment? := by
  intro entry
  cases entry <;> simp [Entry.kind, Entry.readChars, Entry.fragment?]

theorem collect_of_isComplete {b : TextBuilder} (h : b.isComplete = true) (slots : List Slot) :
    b.collect slots = (b, slots) := by
  unfold TextBuilder.collect
  split
  · rw [if_pos h]
  · rfl

/-- A text that is not complete takes the fragment that follows. -/
theorem collect_of_not_isComplete {b : TextBuilder} (h : b.isComplete ≠ true) (slots : List Slot) :
    b.collect slots = match takeIf Entry.fragment? slots with
      | (some chars, rest) => (b.push chars).collect rest
      | (none, _) => (b, slots) := by
  fun_cases TextBuilder.collect b slots with
  | case1 _ _ _ hcomplete => exact absurd hcomplete h
  | case2 position chars rest _ => rfl
  | case3 slots hslots =>
    have hnone : (takeIf Entry.fragment? slots).1 = none := by
      cases slots with
      | nil => rfl
      | cons slot rest =>
        obtain ⟨position, entry⟩ := slot
        cases entry with
        | stringFragment chars => exact (hslots position chars rest rfl).elim
        | _ => rfl
    rcases htake : takeIf Entry.fragment? slots with ⟨_ | chars, rest⟩
    · rfl
    · exact absurd hnone (by simp [htake])

theorem ensures_collect {w : Window} (hw : w.stop < UInt64.size) {c : Cursor} {slots : List Slot}
    (h : c.At w slots) (b : TextBuilder) :
    (loop collectRound b c).Ensures fun p =>
      ∃ rest, p.2.At w rest ∧ (p.1, rest) = b.collect slots := by
  refine ensures_loop_eq TextBuilder.collect Prod.mk ?_ h b
  intro b c slots h
  unfold collectRound
  split
  · next hcomplete =>
    exact .pure ⟨slots, h, (collect_of_isComplete hcomplete slots).symm⟩
  · next hcomplete =>
    have hcollect := collect_of_not_isComplete hcomplete slots
    rcases htake : takeIf Entry.fragment? slots with ⟨_ | chars, rest⟩
    · rw [htake] at hcollect
      refine (ensures_readIf_of_eq hw reads_stringFragment h htake).bind ?_
      rintro ⟨_, c'⟩ ⟨rfl, h'⟩
      obtain rfl := takeIf_eq_none htake
      exact .pure ⟨rest, h', hcollect.symm⟩
    · rw [htake] at hcollect
      refine (ensures_readIf_of_eq hw reads_stringFragment h htake).bind ?_
      rintro ⟨_, c'⟩ ⟨rfl, h'⟩
      obtain ⟨slot, rfl, -⟩ := takeIf_eq_some htake
      refine (ensures_push b chars).bind ?_
      rintro _ rfl
      exact .pure ⟨rest, h', Nat.lt_succ_self _, hcollect.symm⟩

/-! ## Frames -/

/-- Reads what follows a label entry. -/
def readLabel (length : UInt64) (c : Cursor) : Guarded (LabelFrame × Cursor) := do
  let (flags, c) ← readIf .frameFlags Entry.readUInt64 c
  let b ← textOfLength length
  let (b, c) ← loop collectRound b c
  let (line, c) ← readIf .lineNumber Entry.readInt c
  let (column, c) ← readIf .columnNumber Entry.readInt c
  let (category, c) ← readIf .categoryPair Entry.readInt c
  return ({ location := b.finish
            relevantForJs := flags.any FrameFlags.relevantForJs
            line := line.bind natOfInt32?
            column := column.bind natOfInt32?
            category := category.bind natOfInt32? }, c)

/-- Appends the frames of one entry to a stack. -/
def frameRound (s : StackNode × Tables) (c : Cursor) :
    Guarded (ForInStep ((StackNode × Tables) × Cursor)) := do
  let (node, tables) := s
  match ← peek c with
  | some slot =>
    match slot.entry with
    | .label length =>
      let c ← skip c
      let (frame, c) ← readLabel length c
      return .yield (tables.append node (.normal frame), c)
    | .jitReturnAddr address =>
      let c ← skip c
      return .yield (tables.appendAll node
        ((RecordedFrame.compiled slot.position address).keys tables.timeline), c)
    | .nativeLeafAddr address =>
      let c ← skip c
      return .yield (tables.append node (.ofAddress address), c)
    | _ => return .done (s, c)
  | none => return .done (s, c)

theorem reads_frameFlags : Reads .frameFlags Entry.readUInt64 Entry.frameFlags? := by
  intro entry
  cases entry <;> simp [Entry.kind, Entry.readUInt64, Entry.frameFlags?]

theorem reads_lineNumber : Reads .lineNumber Entry.readInt Entry.lineNumber? := by
  intro entry
  cases entry <;> simp [Entry.kind, Entry.readInt, Entry.lineNumber?]

theorem reads_columnNumber : Reads .columnNumber Entry.readInt Entry.columnNumber? := by
  intro entry
  cases entry <;> simp [Entry.kind, Entry.readInt, Entry.columnNumber?]

theorem reads_categoryPair : Reads .categoryPair Entry.readInt Entry.categoryPair? := by
  intro entry
  cases entry <;> simp [Entry.kind, Entry.readInt, Entry.categoryPair?]

theorem ensures_readLabel {w : Window} (hw : w.stop < UInt64.size) {c : Cursor} {slots : List Slot}
    (h : c.At w slots) (length : UInt64) :
    (readLabel length c).Ensures fun p =>
      p.1 = (RecordedFrame.readLabel length slots).1 ∧
        p.2.At w (RecordedFrame.readLabel length slots).2 := by
  refine (ensures_readIf hw reads_frameFlags h).bind ?_
  rintro ⟨_, c₁⟩ ⟨rfl, h₁⟩
  refine (ensures_textOfLength length).bind ?_
  rintro _ rfl
  refine (ensures_collect hw h₁ _).bind ?_
  rintro ⟨b, c₂⟩ ⟨rest, h₂, htext⟩
  obtain ⟨rfl, rfl⟩ := Prod.mk.inj htext
  refine (ensures_readIf hw reads_lineNumber h₂).bind ?_
  rintro ⟨_, c₃⟩ ⟨rfl, h₃⟩
  refine (ensures_readIf hw reads_columnNumber h₃).bind ?_
  rintro ⟨_, c₄⟩ ⟨rfl, h₄⟩
  refine (ensures_readIf hw reads_categoryPair h₄).bind ?_
  rintro ⟨_, c₅⟩ ⟨rfl, h₅⟩
  exact .pure ⟨rfl, h₅⟩

/-- What is left to do when frames are appended to a stack as they are read. -/
def framesFrom (s : StackNode × Tables) (slots : List Slot) : (StackNode × Tables) × List Slot :=
  let frames := RecordedFrame.readAll slots
  (s.2.appendAll s.1 (frames.1.flatMap (·.keys s.2.timeline)), frames.2)

/-- The frames of a sample are appended one by one while they are read. -/
theorem ensures_frames {w : Window} (hw : w.stop < UInt64.size) {c : Cursor} {slots : List Slot}
    (h : c.At w slots) (s : StackNode × Tables) :
    (loop frameRound s c).Ensures fun p =>
      ∃ rest, p.2.At w rest ∧ (p.1, rest) = framesFrom s slots := by
  refine ensures_loop_eq framesFrom Prod.mk ?_ h s
  rintro ⟨node, tables⟩ c slots h
  refine (ensures_peek hw h).bind ?_
  rintro _ rfl
  cases slots with
  | nil =>
    refine .pure ⟨[], h, ?_⟩
    rw [framesFrom, RecordedFrame.readAll]
    rfl
  | cons slot rest =>
    obtain ⟨position, entry⟩ := slot
    rw [framesFrom, RecordedFrame.readAll.eq_2]
    simp only [List.head?_cons]
    cases entry with
    | label length =>
      refine (ensures_skip hw h).bind ?_
      intro c₁ h₁
      refine (ensures_readLabel hw h₁ length).bind ?_
      rintro ⟨_, c₂⟩ ⟨rfl, h₂⟩
      have hle := RecordedFrame.length_readLabel_le length rest
      exact .pure ⟨_, h₂, Nat.lt_succ_of_le hle, rfl⟩
    | jitReturnAddr address =>
      refine (ensures_skip hw h).bind ?_
      intro c₁ h₁
      refine .pure ⟨rest, h₁, Nat.lt_succ_self _, ?_⟩
      simp only [framesFrom, Tables.timeline_appendAll, List.flatMap_cons,
        Tables.appendAll_append]
    | nativeLeafAddr address =>
      refine (ensures_skip hw h).bind ?_
      intro c₁ h₁
      exact .pure ⟨rest, h₁, Nat.lt_succ_self _, rfl⟩
    | _ => exact .pure ⟨_, h, rfl⟩

/-! ## Samples -/

/-- Reads what follows the time of a sample, and adds its row. -/
def readSample (settings : Settings) (time : Binary64) (tables : Tables) (c : Cursor) :
    Guarded ((SampleRow × Tables) × Cursor) := do
  let stack := tables.root (.ofLabel settings.rootLabel)
  let ((node, tables), c) ← loop frameRound stack c
  let (responsiveness, c) ← readIf .responsiveness Entry.readDouble c
  let (stack, tables) := tables.stackIndex node
  return (({ stack := some stack, time, responsiveness }, tables), c)

/-- Reads the sample that starts at the next entry, if one does that belongs to the thread and is
shown. -/
def sampleRound (tid : Int32) (settings : Settings) (s : List SampleRow × Tables) (c : Cursor) :
    Guarded (ForInStep ((List SampleRow × Tables) × Cursor)) := do
  match ← next c with
  | (some slot, c) =>
    match slot.entry with
    | .threadId t =>
      if t = tid then
        match ← readIf .time Entry.readDouble c with
        | (some time, c) =>
          if settings.includes time then
            let (rows, tables) := s
            let ((row, tables), c) ← readSample settings time tables c
            return .yield ((rows ++ [row], tables), c)
          else return .yield (s, c)
        | (none, c) => return .yield (s, c)
      else return .yield (s, c)
    | _ => return .yield (s, c)
  | (none, c) => return .done (s, c)

/-- The rows of the samples of a thread, and the tables with what they refer to added. -/
def samples (tid : Int32) (w : Window) (tables : Tables) (settings : Settings) :
    Guarded (List SampleRow × Tables) := do
  let (s, _) ← loop (sampleRound tid settings) ([], tables) ⟨w, 0⟩
  return s

theorem reads_time : Reads .time Entry.readDouble Entry.time? := by
  intro entry
  cases entry <;> simp [Entry.kind, Entry.readDouble, Entry.time?]

theorem reads_responsiveness :
    Reads .responsiveness Entry.readDouble Entry.responsiveness? := by
  intro entry
  cases entry <;> simp [Entry.kind, Entry.readDouble, Entry.responsiveness?]

theorem ensures_readSample {w : Window} (hw : w.stop < UInt64.size) {c : Cursor} {slots : List Slot}
    (h : c.At w slots) (settings : Settings) (time : Binary64) (tables : Tables) (position : Nat)
    (tid : Int32) :
    let frames := RecordedFrame.readAll slots
    let responsiveness := takeIf Entry.responsiveness? frames.2
    (readSample settings time tables c).Ensures fun p =>
      p.1 = tables.addSample (.ofLabel settings.rootLabel)
          ⟨position, tid, time, frames.1, responsiveness.1⟩ ∧
        p.2.At w responsiveness.2 := by
  intro frames responsiveness
  refine (ensures_frames hw h _).bind ?_
  rintro ⟨⟨node, tables'⟩, c₁⟩ ⟨rest, h₁, hframes⟩
  obtain ⟨hstack, rfl⟩ := Prod.mk.inj hframes
  obtain ⟨rfl, rfl⟩ := Prod.mk.inj hstack
  refine (ensures_readIf hw reads_responsiveness h₁).bind ?_
  rintro ⟨_, c₂⟩ ⟨rfl, h₂⟩
  exact .pure ⟨rfl, h₂⟩

/-- What is left to do when rows are added as samples are read. -/
def samplesFrom (tid : Int32) (settings : Settings) (s : List SampleRow × Tables)
    (slots : List Slot) : List SampleRow × Tables :=
  let r := s.2.addSamples (.ofLabel settings.rootLabel)
    (RecordedSample.readOn tid settings.includes slots)
  (s.1 ++ r.1, r.2)

theorem ensures_sampleRound {w : Window} (hw : w.stop < UInt64.size) (tid : Int32)
    (settings : Settings) (s : List SampleRow × Tables) (c : Cursor) (slots : List Slot)
    (h : c.At w slots) :
    (sampleRound tid settings s c).Ensures (Advances w slots.length
      (samplesFrom tid settings · · = samplesFrom tid settings s slots)
      fun s' _ => s' = samplesFrom tid settings s slots) := by
  refine (ensures_next hw h).bind ?_
  rintro ⟨_, c₁⟩ ⟨rfl, h₁⟩
  cases slots with
  | nil =>
    refine .pure ⟨[], h₁, ?_⟩
    simp [samplesFrom, RecordedSample.readOn, Tables.addSamples]
  | cons slot rest =>
    obtain ⟨position, entry⟩ := slot
    have hlt : rest.length < (⟨position, entry⟩ :: rest : List Slot).length := Nat.lt_succ_self _
    have h₁ : c₁.At w rest := h₁
    simp only [List.head?_cons]
    split
    · next t =>
      by_cases ht : t = tid
      · subst ht
        rw [if_pos rfl]
        rcases htake : takeIf Entry.time? rest with ⟨_ | time, behind⟩
        · refine (ensures_readIf_of_eq hw reads_time h₁ htake).bind ?_
          rintro ⟨_, c₂⟩ ⟨rfl, h₂⟩
          obtain rfl := takeIf_eq_none htake
          refine .pure ⟨behind, h₂, hlt, ?_⟩
          simp only [samplesFrom]
          rw [RecordedSample.readOn_of_untimed (congrArg Prod.fst htake)]
        · refine (ensures_readIf_of_eq hw reads_time h₁ htake).bind ?_
          rintro ⟨_, c₂⟩ ⟨rfl, h₂⟩
          obtain ⟨⟨timePosition, _⟩, rfl, htime⟩ := takeIf_eq_some htake
          obtain rfl := Entry.time?_eq_some_iff.1 htime
          have hbehind : behind.length <
              (⟨timePosition, .time time⟩ :: behind : List Slot).length := Nat.lt_succ_self _
          simp only
          split
          · next hshown =>
            refine (ensures_readSample hw h₂ settings time s.2 position t).bind ?_
            rintro ⟨_, c₃⟩ ⟨rfl, h₃⟩
            have hle := (RecordedSample.leadsTo_behind behind).length_le
            refine .pure ⟨_, h₃, Nat.lt_of_le_of_lt hle (Nat.lt_trans hbehind hlt), ?_⟩
            simp only [samplesFrom]
            rw [RecordedSample.readOn, if_pos rfl, if_pos hshown, List.append_assoc]
            rfl
          · next hshown =>
            refine .pure ⟨behind, h₂, Nat.lt_trans hbehind hlt, ?_⟩
            simp only [samplesFrom]
            rw [RecordedSample.readOn, if_pos rfl, if_neg hshown]
      · rw [if_neg ht]
        refine .pure ⟨rest, h₁, hlt, ?_⟩
        simp only [samplesFrom]
        rw [RecordedSample.readOn_of_ne (by simpa using ht)]
    · next hthread =>
      refine .pure ⟨rest, h₁, hlt, ?_⟩
      simp only [samplesFrom]
      rw [RecordedSample.readOn_of_ne (hthread tid)]

/-- The samples of a thread are read without a fault, and as they are read by trying each slot. -/
theorem samples_eq_ok {w : Window} (hw : w.stop < UInt64.size) (tid : Int32) (tables : Tables)
    (settings : Settings) :
    samples tid w tables settings = .ok (ThreadProfile.sampleRows tid w tables settings) := by
  have hloop := ensures_loop_eq _ (fun s _ => s) (ensures_sampleRound hw tid settings)
    (Cursor.at_start w) ([], tables)
  refine Ensures.eq_ok (hloop.bind ?_)
  rintro ⟨s, c⟩ ⟨rest, -, rfl⟩
  refine .pure ?_
  rw [samplesFrom, List.nil_append, ThreadProfile.sampleRows, ThreadProfile.shownSamples_eq_readOn]

end Guarded

end TraceProfile
