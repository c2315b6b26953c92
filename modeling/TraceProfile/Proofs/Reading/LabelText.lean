import TraceProfile.Proofs.Buffer.Placement

/-!
# The text of a label frame

The text of a label frame is read twice over: along a window, as part of a sample, and from a list
of entries. Whatever length the label declares, both give the text of the same bytes, and along the
window exactly the fragments that hold these bytes are used up (`RecordedFrame.readLabel_eq`). So a
text that was cut into fragments is read back whatever follows, if its length is declared; if not,
it must not hold a zero, and there must be a zero or another entry behind it.
-/

namespace TraceProfile

namespace RecordedFrame

/-- Reads what may stand behind the text of a label frame: a line, a column and a category. -/
def readFields (location : String) (relevantForJs : Bool) (slots : List Slot) :
    LabelFrame × List Slot :=
  let line := takeIf Entry.lineNumber? slots
  let column := takeIf Entry.columnNumber? line.2
  let category := takeIf Entry.categoryPair? column.2
  ({ location, relevantForJs
     line := line.1.bind natOfInt32?
     column := column.1.bind natOfInt32?
     category := category.1.bind natOfInt32? }, category.2)

/-- The bytes that fragments hold, up to a length. -/
theorem take_leadingBytes (count : Nat) (entries : List Entry) :
    (Entry.leadingBytes entries).take count =
      (Entry.leadingBytes entries).take
        (min count (8 * (Entry.leadingFragments entries).length)) := by
  rw [List.take_eq_take_min, Entry.length_leadingBytes]

theorem finish_eq {b : TextBuilder} {bytes : List UInt8} (h : b.bytes.toList = bytes) :
    b.finish = Utf8.decodeLossy bytes.toArray := by
  rw [← h]
  rfl

/-- A label frame is read up to the end of its text, and then on from there. -/
theorem readLabel_eq (length : UInt64) (slots : List Slot) :
    readLabel length slots =
      let behind := (takeIf Entry.frameFlags? slots).2
      let entries := behind.map Slot.entry
      readFields (Utf8.decodeLossy ((Entry.leadingBytes entries).take length.toNat).toArray)
        ((takeIf Entry.frameFlags? slots).1.any FrameFlags.relevantForJs)
        (behind.drop
          (min ((length.toNat + 7) / 8) (Entry.leadingFragments entries).length)) := by
  have hbytes := TextBuilder.bytes_collect { limit := some length.toNat }
    (takeIf Entry.frameFlags? slots).2
  have hslots := TextBuilder.slots_collect (b := { limit := some length.toNat }) rfl
    (takeIf Entry.frameFlags? slots).2
  have htext : (TextBuilder.collect { limit := some length.toNat }
      (takeIf Entry.frameFlags? slots).2).1.finish = Utf8.decodeLossy ((Entry.leadingBytes
        ((takeIf Entry.frameFlags? slots).2.map Slot.entry)).take length.toNat).toArray :=
    finish_eq hbytes
  simp only [readLabel, htext, hslots]
  rfl

end RecordedFrame

/-! ## Texts from entries -/

theorem textOfFragments_some (limit : Nat) (entries : List Entry) :
    textOfFragments (some limit) entries =
      Utf8.decodeLossy ((Entry.leadingBytes entries).take limit).toArray :=
  RecordedFrame.finish_eq (TextBuilder.bytes_feed { limit := some limit } entries)

theorem textOfFragments_none (entries : List Entry) :
    textOfFragments none entries =
      Utf8.decodeLossy ((Entry.leadingBytes entries).takeWhile (· ≠ 0)).toArray :=
  RecordedFrame.finish_eq (TextBuilder.bytes_feed { limit := none } entries)

/-- What was cut comes first among the bytes of the fragments. -/
theorem take_leadingBytes_fragments (text : String) (following : List Entry) :
    (Entry.leadingBytes (Entry.fragments text ++ following)).take (Utf8.encode text).length =
      Utf8.encode text := by
  obtain ⟨padding, hbytes, -⟩ := Chunk.exists_flatMap_cut (Utf8.encode text)
  rw [Entry.fragments, Entry.leadingBytes_append, hbytes, List.append_assoc]
  exact List.take_left

/-- Where the text holds no zero, it ends at the first one, or with the last fragment. -/
theorem takeWhile_leadingBytes_fragments {text : String} (htext : Char.ofNat 0 ∉ text.toList)
    {following : List Entry}
    (hend : (Utf8.encode text).length % 8 ≠ 0 ∨
      ∀ chars rest, following ≠ .stringFragment chars :: rest) :
    (Entry.leadingBytes (Entry.fragments text ++ following)).takeWhile (· ≠ 0) =
      Utf8.encode text := by
  obtain ⟨padding, hbytes, hpadding, -⟩ := Chunk.exists_flatMap_cut (Utf8.encode text)
  have hnonzero : ∀ b ∈ Utf8.encode text, decide (b ≠ 0) = true := by
    intro b hb
    refine decide_eq_true fun hzero => htext (Utf8.mem_encode_zero ?_)
    rw [← hzero]
    exact hb
  rw [Entry.fragments, Entry.leadingBytes_append, hbytes, List.append_assoc,
    List.takeWhile_append_of_pos hnonzero]
  refine (congrArg _ ?_).trans (List.append_nil _)
  cases padding with
  | zero =>
    have hfollowing := hend.resolve_left fun hne => hne (hpadding.1 rfl)
    rw [Entry.leadingBytes_of_ne hfollowing]
    rfl
  | succ padding => rfl

/-- Whatever length a label declares and whatever follows its flags: the text is that of the first
bytes of the fragments, up to the declared length, and reading goes on behind the fragments that
hold these bytes. From a list of entries the same text is read; without a length it is the text up
to the first zero. Hence a text that was cut into fragments is read back. -/
theorem textOfFragments_label (length : UInt64) (slots : List Slot) :
    let flags := (takeIf Entry.frameFlags? slots).1
    let behind := (takeIf Entry.frameFlags? slots).2
    let entries := behind.map Slot.entry
    let count := (Entry.leadingFragments entries).length
    let text := Utf8.decodeLossy
      ((Entry.leadingBytes entries).take (min length.toNat (8 * count))).toArray
    RecordedFrame.readLabel length slots = RecordedFrame.readFields text
        (flags.any FrameFlags.relevantForJs)
        (behind.drop (min ((length.toNat + 7) / 8) count)) ∧
      textOfFragments (some length.toNat) entries = text ∧
      textOfFragments none entries =
        Utf8.decodeLossy ((Entry.leadingBytes entries).takeWhile (· ≠ 0)).toArray ∧
      ∀ s following, entries = Entry.fragments s ++ following →
        (length.toNat = (Utf8.encode s).length → text = s) ∧
        (Char.ofNat 0 ∉ s.toList →
          ((Utf8.encode s).length % 8 ≠ 0 ∨
            ∀ chars rest, following ≠ .stringFragment chars :: rest) →
          textOfFragments none entries = s) := by
  intro flags behind entries count text
  have htext : text =
      Utf8.decodeLossy ((Entry.leadingBytes entries).take length.toNat).toArray := by
    rw [RecordedFrame.take_leadingBytes]
  refine ⟨?_, ?_, textOfFragments_none entries, fun s following hentries => ⟨?_, ?_⟩⟩
  · rw [htext]
    exact RecordedFrame.readLabel_eq length slots
  · rw [htext]
    exact textOfFragments_some length.toNat entries
  · intro hlength
    rw [htext, hentries, hlength, take_leadingBytes_fragments, Utf8.decodeLossy_encode]
  · intro hzero hend
    rw [textOfFragments_none, hentries, takeWhile_leadingBytes_fragments hzero hend,
      Utf8.decodeLossy_encode]

/-- The last character stands in two fragments, and a line behind them. -/
theorem textOfFragments_label_straddling :
    let entries := Entry.fragments "1234567é" ++ [.lineNumber 4]
    let slots := Slot.place 3 (.frameFlags 1 :: entries)
    (Entry.leadingFragments entries).length = 2 ∧ (Utf8.encode "1234567é").length = 9 ∧
      RecordedFrame.readLabel 9 slots =
        ({ location := "1234567é", relevantForJs := true, line := some 4, column := none,
           category := none }, []) ∧
      textOfFragments (some 9) entries = "1234567é" ∧
      textOfFragments none entries = "1234567é" := by
  intro entries slots
  have hcount : (Entry.leadingFragments entries).length = 2 := by decide +kernel
  have hlength : (Utf8.encode "1234567é").length = 9 := by decide +kernel
  obtain ⟨hlabel, hsome, -, hcut⟩ := textOfFragments_label 9 slots
  obtain ⟨htext, hnone⟩ := hcut "1234567é" [.lineNumber 4] (by decide +kernel)
  have hbehind : (takeIf Entry.frameFlags? slots).2.map Slot.entry = entries := by decide +kernel
  rw [htext hlength.symm] at hlabel hsome
  rw [hbehind] at hsome hnone
  refine ⟨hcount, hlength, ?_, hsome, hnone (by decide) (.inr (by simp))⟩
  rw [hlabel]
  decide +kernel

end TraceProfile
