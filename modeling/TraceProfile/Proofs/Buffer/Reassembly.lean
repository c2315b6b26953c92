import TraceProfile.Proofs.Text.Decoding
import TraceProfile.Reading.Sample

/-!
# Texts put together from fragments

Two readers put texts together. One is given entries and takes a fragment before it asks whether the
text is complete; the other moves along the slots of a window and asks first. Both end up with the
same bytes, because no fragment changes what a builder will have in the end if the bytes that follow
are known (`TextBuilder.outcome_push`): up to a declared length, or up to the first zero.

A text that was cut into fragments is followed by zeros, and then by what comes after it
(`Chunk.exists_flatMap_cut`). So its bytes are the outcome if its length is declared, or if it holds
no zero itself and ends with one or with the last fragment.
-/

namespace TraceProfile

namespace Entry

/-- The fragments at the front of a list of entries. -/
def leadingFragments : List Entry → List Chunk
  | .stringFragment chars :: rest => chars :: leadingFragments rest
  | _ => []

/-- The bytes of the fragments at the front of a list of entries. -/
def leadingBytes (entries : List Entry) : List UInt8 :=
  (leadingFragments entries).flatMap Vector.toList

theorem leadingFragments_cons (chars : Chunk) (rest : List Entry) :
    leadingFragments (.stringFragment chars :: rest) = chars :: leadingFragments rest := rfl

theorem leadingBytes_cons (chars : Chunk) (rest : List Entry) :
    leadingBytes (.stringFragment chars :: rest) = chars.toList ++ leadingBytes rest := rfl

theorem leadingFragments_of_ne {entries : List Entry}
    (h : ∀ chars rest, entries ≠ .stringFragment chars :: rest) :
    leadingFragments entries = [] := by
  unfold leadingFragments
  split
  · next chars rest => exact absurd rfl (h chars rest)
  · rfl

theorem leadingBytes_of_ne {entries : List Entry}
    (h : ∀ chars rest, entries ≠ .stringFragment chars :: rest) : leadingBytes entries = [] := by
  rw [leadingBytes, leadingFragments_of_ne h]
  rfl

theorem length_leadingBytes (entries : List Entry) :
    (leadingBytes entries).length = 8 * (leadingFragments entries).length := by
  rw [leadingBytes]
  induction leadingFragments entries with
  | nil => rfl
  | cons chars rest ih =>
    rw [List.flatMap_cons, List.length_append, ih, Vector.length_toList, List.length_cons]
    omega

theorem leadingFragments_append (chunks : List Chunk) (rest : List Entry) :
    leadingFragments (chunks.map .stringFragment ++ rest) = chunks ++ leadingFragments rest := by
  induction chunks with
  | nil => rfl
  | cons chars chunks ih =>
    rw [List.map_cons, List.cons_append, leadingFragments_cons, ih, List.cons_append]

theorem leadingBytes_append (chunks : List Chunk) (rest : List Entry) :
    leadingBytes (chunks.map .stringFragment ++ rest) =
      chunks.flatMap Vector.toList ++ leadingBytes rest := by
  rw [leadingBytes, leadingFragments_append, List.flatMap_append]
  rfl

end Entry

/-! ## What a builder will have -/

namespace TextBuilder

/-- The bytes that a builder will have if it goes on with the given ones. -/
def outcome (b : TextBuilder) (more : List UInt8) : List UInt8 :=
  match b.limit with
  | some limit => b.bytes.toList ++ more.take (limit - b.bytes.size)
  | none => if b.terminated then b.bytes.toList else b.bytes.toList ++ more.takeWhile (· ≠ 0)

theorem outcome_nil (b : TextBuilder) : b.outcome [] = b.bytes.toList := by
  unfold outcome
  split
  · simp
  · simp

/-- A builder that is complete takes nothing more. -/
theorem outcome_of_isComplete {b : TextBuilder} (h : b.isComplete = true) (more : List UInt8) :
    b.outcome more = b.bytes.toList := by
  obtain ⟨_ | limit, bytes, terminated⟩ := b
  · have hterminated : terminated = true := h
    simp [outcome, hterminated]
  · have hlimit : limit ≤ bytes.size := of_decide_eq_true h
    simp [outcome, Nat.sub_eq_zero_of_le hlimit]

/-- Without a declared length a fragment is taken up to its first zero, or as a whole. -/
theorem takeWhile_append_chunk (chars : Chunk) (more : List UInt8) :
    (chars.toList ++ more).takeWhile (· ≠ 0) =
      if (chars.toList.takeWhile (· ≠ 0)).length < 8 then chars.toList.takeWhile (· ≠ 0)
      else chars.toList.takeWhile (· ≠ 0) ++ more.takeWhile (· ≠ 0) := by
  have hlength : chars.toList.length = 8 := Vector.length_toList
  have hprefix := List.takeWhile_prefix (fun b : UInt8 => decide (b ≠ 0)) (l := chars.toList)
  have hle := hprefix.length_le
  rw [List.takeWhile_append]
  split
  · next hwhole =>
    rw [if_neg (by omega), hprefix.eq_of_length hwhole]
  · next hzero =>
    rw [if_pos (by omega)]

/-- A fragment does not change what a builder will have. -/
theorem outcome_push (b : TextBuilder) (chars : Chunk) (more : List UInt8) :
    (b.push chars).outcome more = b.outcome (chars.toList ++ more) := by
  unfold push
  split
  · next hcomplete =>
    rw [outcome_of_isComplete hcomplete, outcome_of_isComplete hcomplete]
  · next hcomplete =>
    obtain ⟨_ | limit, bytes, terminated⟩ := b
    · have hterminated : terminated = false := by simpa [isComplete] using hcomplete
      have hsize : (chars.toArray.takeWhile (· ≠ 0)).size =
          (chars.toList.takeWhile (· ≠ 0)).length := by
        rw [← Array.length_toList, Array.toList_takeWhile, Vector.toList_toArray]
      simp only [outcome, hterminated, hsize, Array.toList_append, Array.toList_takeWhile,
        Vector.toList_toArray, decide_eq_true_eq, Bool.false_eq_true, if_false,
        takeWhile_append_chunk]
      split
      · rfl
      · rw [List.append_assoc]
    · have hdue : limit - (bytes.size + min (limit - bytes.size) 8) = limit - bytes.size - 8 := by
        omega
      simp [outcome, List.take_append, hdue, Vector.toList_toArray]

/-- What is put together from entries. -/
theorem bytes_feed (b : TextBuilder) (entries : List Entry) :
    (b.feed entries).bytes.toList = b.outcome (Entry.leadingBytes entries) := by
  fun_induction feed b entries with
  | case1 b chars rest next hcomplete =>
    rw [Entry.leadingBytes_cons, ← outcome_push, outcome_of_isComplete hcomplete]
  | case2 b chars rest next hcomplete ih =>
    rw [ih, Entry.leadingBytes_cons, ← outcome_push]
  | case3 b entries hentries =>
    rw [Entry.leadingBytes_of_ne hentries, outcome_nil]

/-- No slot starts with a fragment if no entry does. -/
theorem ne_of_slots_ne {slots : List Slot}
    (h : ∀ position chars rest, slots ≠ ⟨position, .stringFragment chars⟩ :: rest) :
    ∀ chars rest, slots.map Slot.entry ≠ .stringFragment chars :: rest := by
  intro chars rest heq
  obtain ⟨⟨position, entry⟩, more, rfl, hentry, -⟩ := List.map_eq_cons_iff.1 heq
  obtain rfl : entry = .stringFragment chars := hentry
  exact h position chars more rfl

/-- What is put together along the slots of a window. -/
theorem bytes_collect (b : TextBuilder) (slots : List Slot) :
    (b.collect slots).1.bytes.toList = b.outcome (Entry.leadingBytes (slots.map Slot.entry)) := by
  fun_induction collect b slots with
  | case1 b position chars rest hcomplete => rw [outcome_of_isComplete hcomplete]
  | case2 b position chars rest hcomplete ih =>
    rw [ih, List.map_cons, Entry.leadingBytes_cons, outcome_push]
  | case3 b slots hslots =>
    rw [Entry.leadingBytes_of_ne (ne_of_slots_ne hslots), outcome_nil]

/-- A fragment fills up what is due of a declared length. -/
theorem bytes_size_push (limit : Nat) (bytes : Array UInt8) (terminated : Bool) (chars : Chunk) :
    (push ⟨some limit, bytes, terminated⟩ chars).limit = some limit ∧
      (push ⟨some limit, bytes, terminated⟩ chars).bytes.size =
        bytes.size + min (limit - bytes.size) 8 := by
  unfold push
  split
  · next hcomplete =>
    have hlimit : limit ≤ bytes.size := of_decide_eq_true hcomplete
    have hdue : min (limit - bytes.size) 8 = 0 := by omega
    exact ⟨rfl, by rw [hdue, Nat.add_zero]⟩
  · exact ⟨rfl, by simp⟩

/-- Up to a declared length, as many fragments are taken as hold the bytes that are due. -/
theorem slots_collect {b : TextBuilder} {limit : Nat} (h : b.limit = some limit)
    (slots : List Slot) :
    (b.collect slots).2 = slots.drop (min ((limit - b.bytes.size + 7) / 8)
      (Entry.leadingFragments (slots.map Slot.entry)).length) := by
  fun_induction collect b slots with
  | case1 b position chars rest hcomplete =>
    obtain ⟨_, bytes, terminated⟩ := b
    obtain rfl : _ = some limit := h
    have hlimit : limit ≤ bytes.size := of_decide_eq_true hcomplete
    have hcount : (limit - bytes.size + 7) / 8 = 0 := by omega
    rw [hcount, Nat.zero_min, List.drop_zero]
  | case2 b position chars rest hcomplete ih =>
    obtain ⟨_, bytes, terminated⟩ := b
    obtain rfl : _ = some limit := h
    obtain ⟨hlimit, hsize⟩ := bytes_size_push limit bytes terminated chars
    have hlt : bytes.size < limit := by simpa [isComplete] using hcomplete
    have hcount : (limit - bytes.size + 7) / 8 =
        (limit - (bytes.size + min (limit - bytes.size) 8) + 7) / 8 + 1 := by
      omega
    rw [ih hlimit, hsize, List.map_cons, Entry.leadingFragments_cons, List.length_cons, hcount,
      Nat.add_min_add_right, List.drop_succ_cons]
  | case3 b slots hslots =>
    rw [Entry.leadingFragments_of_ne (ne_of_slots_ne hslots), List.length_nil, Nat.min_zero,
      List.drop_zero]

end TextBuilder

/-! ## Texts that were cut -/

theorem Chunk.toList_ofBytes (bytes : List UInt8) :
    (Chunk.ofBytes bytes).toList = bytes.take 8 ++ List.replicate (8 - bytes.length) 0 := by
  apply List.ext_getElem
  · simp
    omega
  · intro i hi hi'
    have hlt : i < 8 := by simpa using hi
    have hchunk : (Chunk.ofBytes bytes).toList[i] = bytes.getD i 0 := by
      simp only [Chunk.ofBytes, Vector.getElem_toList, Vector.getElem_ofFn]
    refine hchunk.trans ?_
    rw [List.getD_eq_getElem?_getD, List.getElem_append]
    split
    · next hlength =>
      have hbytes : i < bytes.length := by
        rw [List.length_take] at hlength
        omega
      rw [List.getElem?_eq_getElem hbytes, List.getElem_take]
      rfl
    · next hlength =>
      have hbytes : bytes.length ≤ i := by
        rw [List.length_take] at hlength
        omega
      rw [List.getElem?_eq_none hbytes, List.getElem_replicate]
      rfl

/-- The last chunk is filled up with zeros, unless the bytes fill it. -/
theorem Chunk.exists_flatMap_cut (bytes : List UInt8) :
    ∃ padding, (Chunk.cut bytes).flatMap Vector.toList = bytes ++ List.replicate padding 0 ∧
      (padding = 0 ↔ bytes.length % 8 = 0) ∧
      (Chunk.cut bytes).length = (bytes.length + 7) / 8 := by
  fun_induction Chunk.cut bytes with
  | case1 => exact ⟨0, rfl, by simp, rfl⟩
  | case2 b rest ih =>
    obtain ⟨padding, hbytes, hpadding, hlength⟩ := ih
    rw [List.length_drop] at hpadding hlength
    have hsplit : (b :: rest).take 8 ++ rest.drop 7 = b :: rest :=
      List.take_append_drop 8 (b :: rest)
    rcases Nat.lt_or_ge (b :: rest).length 8 with hshort | hlong
    · -- The only chunk: nothing is left to be cut.
      have hnil : rest.drop 7 = [] := List.drop_eq_nil_of_le (by simp at hshort; omega)
      have hwhole : (b :: rest).take 8 = b :: rest := List.take_of_length_le (Nat.le_of_lt hshort)
      refine ⟨8 - (b :: rest).length, ?_, ?_, ?_⟩
      · rw [List.flatMap_cons, toList_ofBytes, hnil, hwhole, Chunk.cut, List.flatMap_nil,
          List.append_nil]
      · simp only [List.length_cons] at hshort ⊢
        omega
      · simp only [List.length_cons] at hshort ⊢
        omega
    · refine ⟨padding, ?_, ?_, ?_⟩
      · rw [List.flatMap_cons, toList_ofBytes, hbytes, Nat.sub_eq_zero_of_le hlong,
          List.replicate_zero, List.append_nil, ← List.append_assoc, hsplit]
      · simp only [List.length_cons] at hlong ⊢
        omega
      · simp only [List.length_cons] at hlong ⊢
        omega

end TraceProfile
