import Mathlib.Data.List.Forall2
import TraceProfile.Proofs.Buffer.Words

/-!
# Entries and their encoded form

Encoded entries are a row of records of nine bytes, a tag and a payload (`records`). A record is
read on its own (`Record.decode`), and reading all of them succeeds exactly if every tag is that of
a kind (`mapM_decode`). What is read is written as the record that it was read from, but for
integers, of which the upper half is replaced by the sign (`Record.extended`). The records are found
again in whatever is put together from records (`records_of_flatMap`), so reading undoes writing.
-/

namespace TraceProfile

namespace Kind

theorem ofTag?_tag (kind : Kind) : ofTag? kind.tag = some kind := by
  cases kind <;> rfl

theorem tag_of_ofTag? {tag : UInt8} {kind : Kind} (h : ofTag? tag = some kind) :
    kind.tag = tag := by
  rw [ofTag?, List.find?_eq_some_iff_append] at h
  exact beq_iff_eq.1 h.1

/-- The tags of the kinds are the numbers from 1 to 24. -/
theorem exists_tag_iff {tag : UInt8} : (∃ kind : Kind, kind.tag = tag) ↔ 1 ≤ tag ∧ tag ≤ 24 := by
  constructor
  · rintro ⟨kind, rfl⟩
    cases kind <;> decide
  · rintro ⟨hlow, hhigh⟩
    have hall : ∀ n : Fin 24, ∃ kind ∈ all, kind.tag.toNat = n.val + 1 := by decide
    have hlow' : 1 ≤ tag.toNat := UInt8.le_iff_toNat_le.1 hlow
    have hhigh' : tag.toNat ≤ 24 := UInt8.le_iff_toNat_le.1 hhigh
    obtain ⟨kind, -, hkind⟩ := hall ⟨tag.toNat - 1, by omega⟩
    refine ⟨kind, UInt8.toNat_inj.1 ?_⟩
    rw [hkind]
    exact Nat.sub_add_cancel hlow'

/-- The kinds of entries that hold a signed 32-bit integer. -/
def holdsInt32 : Kind → Bool
  | categoryPair | lineNumber | columnNumber | threadId => true
  | _ => false

end Kind

namespace Entry

theorem kind_ofPayload (kind : Kind) (payload : Chunk) : (ofPayload kind payload).kind = kind := by
  cases kind <;> rfl

/-- An entry is determined by its kind and its payload. -/
theorem ofPayload_payload (e : Entry) : ofPayload e.kind e.payload = e := by
  cases e <;> simp [ofPayload, payload, kind]

/-- A payload that is read and written again stays as it is, unless it holds an integer of half the
width. -/
theorem payload_ofPayload (kind : Kind) (payload : Chunk) :
    (ofPayload kind payload).payload =
      if kind.holdsInt32 then payload.signExtend else payload := by
  cases kind <;>
    simp [ofPayload, Entry.payload, Kind.holdsInt32, Chunk.ofWord_toInt32]

end Entry

/-! ## Records -/

/-- Nine bytes that an entry is read from. -/
structure Record where
  /-- The first byte. -/
  tag : UInt8
  /-- The other bytes. -/
  payload : Chunk

namespace Record

/-- The bytes of a record. -/
def bytes (r : Record) : List UInt8 := r.tag :: r.payload.toList

/-- The record at an offset. -/
def ofBytesAt (d : ByteArray) (offset : Nat) : Record :=
  ⟨byteAt d offset, .ofBytesAt d (offset + 1)⟩

/-- The entry that is read from a record. -/
def decode (r : Record) : Except Entry.DecodeError Entry := Entry.decode r.tag r.payload

/-- Whether the tag is that of a kind of entries that hold a signed 32-bit integer. -/
def holdsInt32 (r : Record) : Bool := (Kind.ofTag? r.tag).any Kind.holdsInt32

/-- The record with the sign in the upper half of the payload, if it holds such an integer. -/
def extended (r : Record) : Record :=
  if r.holdsInt32 then { r with payload := r.payload.signExtend } else r

/-- A record stays as it is if it holds no integer, or one whose sign is there already. -/
theorem extended_eq_iff {r : Record} :
    r.extended = r ↔ (r.holdsInt32 = true → r.payload = r.payload.signExtend) := by
  rw [extended]
  split
  · next h =>
    constructor
    · intro heq _
      exact (congrArg Record.payload heq).symm
    · intro hsign
      rw [← hsign h]
  · next h => exact ⟨fun _ hint => absurd hint h, fun _ => rfl⟩

theorem length_bytes (r : Record) : r.bytes.length = Entry.encodedSize := by
  rw [bytes, List.length_cons, Vector.length_toList]
  rfl

/-- Nine bytes or more start with a record. -/
theorem exists_bytes {l : List UInt8} (h : Entry.encodedSize ≤ l.length) :
    ∃ r rest, l = bytes r ++ rest := by
  obtain _ | ⟨tag, l⟩ := l
  · exact absurd h (by decide)
  have hlength : (l.take 8).length = 8 := by
    rw [List.length_take]
    exact Nat.min_eq_left (Nat.le_of_succ_le_succ h)
  refine ⟨⟨tag, ⟨(l.take 8).toArray, hlength⟩⟩, l.drop 8, ?_⟩
  have hsplit : tag :: (l.take 8 ++ l.drop 8) = tag :: l := by rw [List.take_append_drop]
  exact hsplit.symm

end Record

theorem byteAt_eq (d : ByteArray) (offset : Nat) :
    byteAt d offset = (d.data.toList[offset]?).getD 0 := by
  rw [byteAt]
  by_cases h : offset < d.size
  · have hdata : offset < d.data.toList.length := h
    rw [getElem?_pos d offset h, List.getElem?_eq_getElem hdata]
    rfl
  · have hdata : d.data.toList.length ≤ offset := Nat.le_of_not_lt h
    rw [getElem?_neg d offset h, List.getElem?_eq_none hdata]

/-- Where the bytes of a record stand, it is read. -/
theorem Record.ofBytesAt_eq {d : ByteArray} {offset : Nat} {r : Record} {rest : List UInt8}
    (h : d.data.toList.drop offset = r.bytes ++ rest) : ofBytesAt d offset = r := by
  -- There are only zeros after the end, so bytes are compared where the record has them.
  have hbyte (i : Nat) (b : UInt8) (hi : r.bytes[i]? = some b) : byteAt d (offset + i) = b := by
    obtain ⟨hlt, -⟩ := List.getElem?_eq_some_iff.1 hi
    rw [byteAt_eq, ← List.getElem?_drop, h, List.getElem?_append_left hlt, hi, Option.getD_some]
  have hpayload : Chunk.ofBytesAt d (offset + 1) = r.payload := by
    apply Vector.ext
    intro i hi
    have hget : r.bytes[i + 1]? = some r.payload[i] := by
      rw [bytes, List.getElem?_cons_succ, List.getElem?_eq_getElem (by simpa using hi)]
      simp
    have hread := hbyte (i + 1) r.payload[i] hget
    rw [Chunk.ofBytesAt, Vector.getElem_ofFn, Nat.add_assoc, Nat.add_comm 1 i]
    exact hread
  have htag : byteAt d offset = r.tag := hbyte 0 r.tag rfl
  rw [ofBytesAt, htag, hpayload]

/-! ## Rows of records -/

/-- As many records as said, the first of them at an offset. -/
def recordsFrom (d : ByteArray) (offset : Nat) : Nat → List Record
  | 0 => []
  | more + 1 => .ofBytesAt d offset :: recordsFrom d (offset + Entry.encodedSize) more

/-- The records of a sequence of bytes. -/
def records (d : ByteArray) : List Record := recordsFrom d 0 (d.size / Entry.encodedSize)

theorem length_flatMap_bytes (rs : List Record) :
    (rs.flatMap Record.bytes).length = Entry.encodedSize * rs.length := by
  induction rs with
  | nil => rfl
  | cons r rs ih =>
    rw [List.flatMap_cons, List.length_append, ih, Record.length_bytes, List.length_cons,
      Nat.mul_succ, Nat.add_comm]

/-- Bytes whose number is right are a row of records. -/
theorem exists_records {count : Nat} {l : List UInt8} (h : l.length = Entry.encodedSize * count) :
    ∃ rs : List Record, rs.length = count ∧ l = rs.flatMap Record.bytes := by
  induction count generalizing l with
  | zero => exact ⟨[], rfl, List.eq_nil_of_length_eq_zero h⟩
  | succ count ih =>
    rw [Nat.mul_succ] at h
    obtain ⟨r, rest, rfl⟩ := Record.exists_bytes (l := l) (by omega)
    rw [List.length_append, Record.length_bytes] at h
    obtain ⟨rs, hlength, hrest⟩ := ih (l := rest) (by omega)
    refine ⟨r :: rs, by rw [List.length_cons, hlength], ?_⟩
    rw [List.flatMap_cons, ← hrest]

theorem recordsFrom_eq {d : ByteArray} {offset : Nat} {rs : List Record}
    (h : d.data.toList.drop offset = rs.flatMap Record.bytes) :
    recordsFrom d offset rs.length = rs := by
  induction rs generalizing offset with
  | nil => rfl
  | cons r rs ih =>
    rw [List.flatMap_cons] at h
    have hrest : d.data.toList.drop (offset + Entry.encodedSize) = rs.flatMap Record.bytes := by
      rw [← List.drop_drop, h, ← r.length_bytes, List.drop_left]
    rw [List.length_cons, recordsFrom, Record.ofBytesAt_eq h, ih hrest]

/-- What is put together from records has these records. -/
theorem records_of_flatMap {d : ByteArray} {rs : List Record}
    (h : d.data.toList = rs.flatMap Record.bytes) : records d = rs := by
  have hsize : d.size = Entry.encodedSize * rs.length := by
    rw [← length_flatMap_bytes, ← h]
    rfl
  have hcount : d.size / Entry.encodedSize = rs.length := by
    rw [hsize]
    exact Nat.mul_div_cancel_left _ (by decide)
  rw [records, hcount]
  exact recordsFrom_eq h

/-- If their number is right, the bytes are those of the records, in order. -/
theorem flatMap_records {d : ByteArray} (h : d.size % Entry.encodedSize = 0) :
    d.data.toList = (records d).flatMap Record.bytes := by
  have hlength : d.data.toList.length = Entry.encodedSize * (d.size / Entry.encodedSize) :=
    (Nat.mul_div_cancel' (Nat.dvd_of_mod_eq_zero h)).symm
  obtain ⟨rs, -, hrs⟩ := exists_records hlength
  rw [records_of_flatMap hrs]
  exact hrs

/-! ## Reading and writing -/

/-- The entry is of the kind that the tag of the record stands for, and is written as the record,
with the sign in the upper half of an integer. -/
def Record.Gives (r : Record) (e : Entry) : Prop := e.kind.tag = r.tag ∧ e.encode = r.extended.bytes

/-- The first tag that is not that of a kind. -/
def unknownTag? (rs : List Record) : Option UInt8 :=
  (rs.map Record.tag).find? fun tag => tag < 1 || 24 < tag

theorem unknownTag?_cons (r : Record) (rs : List Record) :
    unknownTag? (r :: rs) = if r.tag < 1 || 24 < r.tag then some r.tag else unknownTag? rs := by
  rw [unknownTag?, List.map_cons, List.find?_cons]
  split
  · next h => rw [if_pos h]
  · next h =>
    rw [h]
    rfl

theorem unknownTag?_eq_none_iff {rs : List Record} :
    unknownTag? rs = none ↔ ∀ r ∈ rs, 1 ≤ r.tag ∧ r.tag ≤ 24 := by
  rw [unknownTag?, List.find?_eq_none, List.forall_mem_map]
  simp only [Bool.or_eq_true, decide_eq_true_eq, not_or, UInt8.not_lt]

theorem Record.decode_of_unknown {r : Record} (h : (r.tag < 1 || 24 < r.tag) = true) :
    r.decode = .error (.invalidKind r.tag) := by
  have hnone : Kind.ofTag? r.tag = none := by
    rw [Option.eq_none_iff_forall_ne_some]
    intro kind hkind
    obtain ⟨hlow, hhigh⟩ := Kind.exists_tag_iff.1 ⟨kind, Kind.tag_of_ofTag? hkind⟩
    rw [Bool.or_eq_true, decide_eq_true_eq, decide_eq_true_eq] at h
    rcases h with h | h
    · exact absurd hlow (UInt8.not_le.2 h)
    · exact absurd hhigh (UInt8.not_le.2 h)
  rw [decode, Entry.decode, hnone]

theorem Record.decode_of_known {r : Record} (h : ¬(r.tag < 1 || 24 < r.tag) = true) :
    ∃ e, r.decode = .ok e ∧ r.Gives e := by
  rw [Bool.or_eq_true, decide_eq_true_eq, decide_eq_true_eq, not_or, UInt8.not_lt,
    UInt8.not_lt] at h
  obtain ⟨kind, hkind⟩ := Kind.exists_tag_iff.2 h
  have hsome : Kind.ofTag? r.tag = some kind := by
    rw [← hkind]
    exact Kind.ofTag?_tag kind
  refine ⟨.ofPayload kind r.payload, ?_, ?_, ?_⟩
  · rw [decode, Entry.decode, hsome]
  · rw [Entry.kind_ofPayload, hkind]
  · rw [Entry.encode, Entry.kind_ofPayload, Entry.payload_ofPayload, hkind, extended, holdsInt32,
      hsome, Option.any_some]
    split
    · rfl
    · rfl

/-- Records are read in order up to the first one whose tag is not that of a kind. -/
theorem mapM_decode (rs : List Record) :
    (∃ tag, unknownTag? rs = some tag ∧ rs.mapM Record.decode = .error (.invalidKind tag)) ∨
      unknownTag? rs = none ∧
        ∃ entries, rs.mapM Record.decode = .ok entries ∧ List.Forall₂ Record.Gives rs entries := by
  induction rs with
  | nil => exact .inr ⟨rfl, [], rfl, .nil⟩
  | cons r rs ih =>
    rw [unknownTag?_cons, List.mapM_cons]
    by_cases hunknown : (r.tag < 1 || 24 < r.tag) = true
    · rw [if_pos hunknown, Record.decode_of_unknown hunknown]
      exact .inl ⟨r.tag, rfl, rfl⟩
    · obtain ⟨e, he, hgives⟩ := Record.decode_of_known hunknown
      rw [if_neg hunknown, he]
      rcases ih with ⟨tag, htag, hrest⟩ | ⟨hnone, entries, hrest, hall⟩
      · rw [hrest]
        exact .inl ⟨tag, htag, rfl⟩
      · rw [hrest]
        exact .inr ⟨hnone, e :: entries, rfl, .cons hgives hall⟩

namespace Entry

/-- Reading as many records as said is reading them one by one. -/
theorem decodeRecords_eq (d : ByteArray) (entries : Array Entry) (offset count : Nat) :
    decodeRecords d entries offset count =
      ((recordsFrom d offset count).mapM Record.decode).map fun more =>
        entries ++ more.toArray := by
  induction count generalizing entries offset with
  | zero => simp [decodeRecords, recordsFrom, Except.map, pure, Except.pure]
  | succ count ih =>
    have hdecode : decode (byteAt d offset) (.ofBytesAt d (offset + 1)) =
        (Record.ofBytesAt d offset).decode := rfl
    rw [decodeRecords, recordsFrom, List.mapM_cons, hdecode]
    rcases (Record.ofBytesAt d offset).decode with e | entry
    · rfl
    · simp only [ih]
      rcases (recordsFrom d (offset + encodedSize) count).mapM Record.decode with e | more
      · rfl
      · simp [Except.map, bind, Except.bind, pure, Except.pure]

theorem decodeAll_of_mod_eq_zero {d : ByteArray} (h : d.size % encodedSize = 0) :
    decodeAll d = ((records d).mapM Record.decode).map List.toArray := by
  rw [decodeAll, if_neg (not_not_intro h), decodeRecords_eq]
  simp only [Array.empty_append]
  rfl

theorem decodeAll_of_mod_ne_zero {d : ByteArray} (h : d.size % encodedSize ≠ 0) :
    decodeAll d = .error (.truncated d.size) := by
  rw [decodeAll, if_pos h]

/-- What reading gives: an error about the length, an error about the first unknown tag, or entries
that the records give. -/
theorem decodeAll_cases (d : ByteArray) :
    (d.size % encodedSize ≠ 0 ∧ decodeAll d = .error (.truncated d.size)) ∨
      d.size % encodedSize = 0 ∧
        ((∃ tag, unknownTag? (records d) = some tag ∧ decodeAll d = .error (.invalidKind tag)) ∨
          unknownTag? (records d) = none ∧ ∃ entries, decodeAll d = .ok entries ∧
            List.Forall₂ Record.Gives (records d) entries.toList) := by
  by_cases h : d.size % encodedSize = 0
  · right
    refine ⟨h, ?_⟩
    rw [decodeAll_of_mod_eq_zero h]
    rcases mapM_decode (records d) with ⟨tag, htag, herror⟩ | ⟨hnone, entries, hok, hall⟩
    · rw [herror]
      exact .inl ⟨tag, htag, rfl⟩
    · rw [hok]
      exact .inr ⟨hnone, entries.toArray, rfl, hall⟩
  · exact .inl ⟨h, decodeAll_of_mod_ne_zero h⟩

/-- The bytes of entries that records give are those of the records, extended by their signs. -/
theorem flatMap_encode {rs : List Record} {entries : List Entry}
    (h : List.Forall₂ Record.Gives rs entries) :
    entries.flatMap encode = (rs.map Record.extended).flatMap Record.bytes := by
  induction h with
  | nil => rfl
  | cons hgives _ ih => rw [List.map_cons, List.flatMap_cons, List.flatMap_cons, hgives.2, ih]

/-- The record of an entry. -/
def record (e : Entry) : Record := ⟨e.kind.tag, e.payload⟩

theorem decode_record (e : Entry) : e.record.decode = .ok e := by
  have hdecode : e.record.decode = decode e.kind.tag e.payload := rfl
  rw [hdecode, decode, Kind.ofTag?_tag]
  exact congrArg Except.ok (ofPayload_payload e)

theorem mapM_decode_record (entries : List Entry) :
    (entries.map record).mapM Record.decode = .ok entries := by
  induction entries with
  | nil => rfl
  | cons e entries ih =>
    rw [List.map_cons, List.mapM_cons, decode_record, ih]
    rfl

/-- Reading undoes writing. -/
theorem decodeAll_encodeAll (entries : Array Entry) :
    decodeAll (encodeAll entries) = .ok entries := by
  have hbytes : (encodeAll entries).data.toList =
      (entries.toList.map record).flatMap Record.bytes := by
    rw [encodeAll_eq, List.flatMap_map]
    rfl
  have hsize : (encodeAll entries).size = encodedSize * (entries.toList.map record).length := by
    rw [← length_flatMap_bytes, ← hbytes]
    rfl
  have hmod : (encodeAll entries).size % encodedSize = 0 := by
    rw [hsize]
    exact Nat.mul_mod_right _ _
  rw [decodeAll_of_mod_eq_zero hmod, records_of_flatMap hbytes, mapM_decode_record]
  rfl

theorem decodeAll_eq_truncated_iff {d : ByteArray} {n : Nat} :
    decodeAll d = .error (.truncated n) ↔ d.size % encodedSize ≠ 0 ∧ n = d.size := by
  rcases decodeAll_cases d with ⟨h, heq⟩ | ⟨h, ⟨tag, -, heq⟩ | ⟨-, entries, heq, -⟩⟩
  · rw [heq]
    simp [h, eq_comm]
  · rw [heq]
    simp [h]
  · rw [heq]
    simp [h]

theorem decodeAll_eq_invalidKind_iff {d : ByteArray} {tag : UInt8} :
    decodeAll d = .error (.invalidKind tag) ↔
      d.size % encodedSize = 0 ∧ unknownTag? (records d) = some tag := by
  rcases decodeAll_cases d with ⟨h, heq⟩ | ⟨h, ⟨tag', htag, heq⟩ | ⟨hnone, entries, heq, -⟩⟩
  · rw [heq]
    simp [h]
  · rw [heq]
    simp [h, htag]
  · rw [heq]
    simp [hnone]

theorem exists_decodeAll_iff {d : ByteArray} :
    (∃ entries, decodeAll d = .ok entries) ↔
      d.size % encodedSize = 0 ∧ ∀ r ∈ records d, 1 ≤ r.tag ∧ r.tag ≤ 24 := by
  rw [← unknownTag?_eq_none_iff]
  rcases decodeAll_cases d with ⟨h, heq⟩ | ⟨h, ⟨tag, htag, heq⟩ | ⟨hnone, entries, heq, -⟩⟩
  · rw [heq]
    simp [h]
  · rw [heq]
    simp [htag]
  · rw [heq]
    simp [h, hnone]

/-- The entries that were read, one for each record, are written as the records, extended by their
signs. -/
structure WrittenFrom (d : ByteArray) (entries : Array Entry) : Prop where
  kinds : List.Forall₂ (fun r e => e.kind.tag = r.tag) (records d) entries.toList
  size_eq : (encodeAll entries).size = d.size
  read : d.data.toList = (records d).flatMap Record.bytes
  written : (encodeAll entries).data.toList =
    ((records d).map Record.extended).flatMap Record.bytes
  eq_iff : encodeAll entries = d ↔
    ∀ r ∈ records d, r.holdsInt32 = true → r.payload = r.payload.signExtend

theorem writtenFrom_of_decodeAll {d : ByteArray} {entries : Array Entry}
    (h : decodeAll d = .ok entries) : WrittenFrom d entries := by
  obtain ⟨hsize, hall⟩ : d.size % encodedSize = 0 ∧
      List.Forall₂ Record.Gives (records d) entries.toList := by
    rcases decodeAll_cases d with ⟨-, heq⟩ | ⟨hmod, ⟨tag, -, heq⟩ | ⟨-, entries', heq, hall⟩⟩
    · exact absurd (h.symm.trans heq) (by simp)
    · exact absurd (h.symm.trans heq) (by simp)
    · obtain rfl := Except.ok.inj (h.symm.trans heq)
      exact ⟨hmod, hall⟩
  have hread := flatMap_records hsize
  have hwritten : (encodeAll entries).data.toList =
      ((records d).map Record.extended).flatMap Record.bytes := by
    rw [encodeAll_eq]
    exact flatMap_encode hall
  refine ⟨hall.imp fun _ _ hgives => hgives.1, ?_, hread, hwritten, ?_⟩
  · show (encodeAll entries).data.toList.length = d.data.toList.length
    rw [hwritten, hread, length_flatMap_bytes, length_flatMap_bytes, List.length_map]
  · have hsame : encodeAll entries = d ↔ (records d).map Record.extended = (records d).map id := by
      rw [List.map_id]
      constructor
      · rintro rfl
        exact (records_of_flatMap hwritten).symm
      · intro hrecords
        rw [hrecords, ← hread] at hwritten
        exact ByteArray.ext (Array.toList_inj.1 hwritten)
    rw [hsame, List.map_inj_left]
    exact forall₂_congr fun r _ => Record.extended_eq_iff

/-- Reading undoes writing. Of any bytes, the length is checked first, and then the tags in order;
if nothing is wrong there is one entry for each record, of the kind that its tag stands for. Writing
the entries again gives the records as they were, but with the sign in the upper half of the
integers, so it gives the same bytes exactly if the signs were there already. -/
theorem decodeAll_spec :
    (∀ entries : Array Entry, decodeAll (encodeAll entries) = .ok entries) ∧
      ∀ d : ByteArray,
        (∀ n, decodeAll d = .error (.truncated n) ↔ d.size % encodedSize ≠ 0 ∧ n = d.size) ∧
        (∀ tag, decodeAll d = .error (.invalidKind tag) ↔
          d.size % encodedSize = 0 ∧ unknownTag? (records d) = some tag) ∧
        ((∃ entries, decodeAll d = .ok entries) ↔
          d.size % encodedSize = 0 ∧ ∀ r ∈ records d, 1 ≤ r.tag ∧ r.tag ≤ 24) ∧
        ∀ entries, decodeAll d = .ok entries → WrittenFrom d entries := by
  refine ⟨decodeAll_encodeAll, ?_⟩
  intro d
  exact ⟨fun n => decodeAll_eq_truncated_iff, fun tag => decodeAll_eq_invalidKind_iff,
    exists_decodeAll_iff, fun entries h => writtenFrom_of_decodeAll h⟩

end Entry

end TraceProfile
