import TraceProfile.Text.Utf8

/-!
# Decoding what was encoded

The bytes of a text decode to the text. The decoder goes through the bytes of one character at a
time: the first byte tells how many follow and which range the second one must lie in, and the bits
that it collects are those of the code point (`foldl_push_encodeChar`). The narrower ranges are
where it matters that a `Char` is neither a surrogate nor too large, and that its shortest form is
written.
-/

namespace TraceProfile.Utf8

namespace Decoder

theorem toNat_ofNat {n : Nat} (h : n < 256) : (UInt8.ofNat n).toNat = n := by
  rw [UInt8.toNat_ofNat', Nat.mod_eq_of_lt h]

theorem ofNat_le_iff {n : Nat} (h : n < 256) (b : UInt8) : UInt8.ofNat n ≤ b ↔ n ≤ b.toNat := by
  rw [UInt8.le_iff_toNat_le, toNat_ofNat h]

theorem ofNat_lt_iff {n : Nat} (h : n < 256) (b : UInt8) : UInt8.ofNat n < b ↔ n < b.toNat := by
  rw [UInt8.lt_iff_toNat_lt, toNat_ofNat h]

theorem ofNat_eq_iff {n : Nat} (h : n < 256) (b : UInt8) : UInt8.ofNat n = b ↔ n = b.toNat := by
  rw [← UInt8.toNat_inj, toNat_ofNat h]

/-! ## The first byte -/

theorem start_one (text : String) {c : Char} (h : c.val.toNat ≤ 0x7f) :
    start text (UInt8.ofNat c.val.toNat) = ⟨text.push c, none⟩ := by
  have hchar : Char.ofUInt8 (UInt8.ofNat c.val.toNat) = c := by
    apply Char.ext
    apply UInt32.toNat_inj.1
    show (UInt8.ofNat c.val.toNat).toUInt32.toNat = c.val.toNat
    rw [UInt8.toNat_toUInt32, toNat_ofNat (by omega)]
  have hle : UInt8.ofNat c.val.toNat ≤ 0x7f := (ofNat_le_iff (by omega) _).2 h
  simp only [start, if_pos hle, hchar]

theorem start_two (text : String) {n : Nat} (hlow : 0xc2 ≤ n) (hhigh : n ≤ 0xdf) :
    start text (UInt8.ofNat n) = ⟨text, some ⟨0, 0x80, 0xbf, n % 0x20⟩⟩ := by
  have hn : n < 256 := by omega
  simp only [start, ofNat_le_iff hn, ofNat_lt_iff hn, toNat_ofNat hn]
  rw [if_neg (by simp; omega), if_neg (by simp; omega), if_pos (by simpa using hhigh)]

theorem start_three (text : String) {n : Nat} (hlow : 0xe0 ≤ n) (hhigh : n ≤ 0xef) :
    start text (UInt8.ofNat n) = ⟨text, some ⟨1, if n = 0xe0 then 0xa0 else 0x80,
      if n = 0xed then 0x9f else 0xbf, n % 0x10⟩⟩ := by
  have hn : n < 256 := by omega
  simp only [start, ofNat_le_iff hn, ofNat_lt_iff hn, ofNat_eq_iff hn, toNat_ofNat hn]
  rw [if_neg (by simp; omega), if_neg (by simp; omega), if_neg (by simp; omega)]
  by_cases he0 : n = 0xe0
  · simp [he0]
  · by_cases hed : n = 0xed
    · simp [hed]
    · simp [he0, hed, hhigh]

theorem start_four (text : String) {n : Nat} (hlow : 0xf0 ≤ n) (hhigh : n ≤ 0xf4) :
    start text (UInt8.ofNat n) = ⟨text, some ⟨2, if n = 0xf0 then 0x90 else 0x80,
      if n = 0xf4 then 0x8f else 0xbf, n % 0x08⟩⟩ := by
  have hn : n < 256 := by omega
  simp only [start, ofNat_le_iff hn, ofNat_lt_iff hn, ofNat_eq_iff hn, toNat_ofNat hn]
  rw [if_neg (by simp; omega), if_neg (by simp; omega), if_neg (by simp; omega),
    if_neg (by simp; omega), if_neg (by simp; omega), if_neg (by simp; omega)]
  by_cases hf0 : n = 0xf0
  · simp [hf0]
  · by_cases hf4 : n = 0xf4
    · simp [hf4]
    · have hle : n ≤ 0xf3 := by omega
      simp [hf0, hf4, hle]

/-! ## The bytes after it -/

theorem push_within (text : String) {more value n : Nat} {low high : UInt8} (hn : n < 256)
    (hlow : low.toNat ≤ n) (hhigh : n ≤ high.toNat) :
    push ⟨text, some ⟨more, low, high, value⟩⟩ (UInt8.ofNat n) =
      match more with
      | 0 => ⟨text.push (Char.ofNat (value * 0x40 + n % 0x40)), none⟩
      | more + 1 => ⟨text, some ⟨more, 0x80, 0xbf, value * 0x40 + n % 0x40⟩⟩ := by
  have hle : low ≤ UInt8.ofNat n := by rwa [UInt8.le_iff_toNat_le, toNat_ofNat hn]
  have hle' : UInt8.ofNat n ≤ high := (ofNat_le_iff hn _).2 hhigh
  cases more with
  | zero => simp only [push, if_pos (And.intro hle hle'), toNat_ofNat hn]
  | succ more => simp only [push, if_pos (And.intro hle hle'), toNat_ofNat hn]

/-- The last byte of a character. -/
theorem push_last (text : String) {value v : Nat} {c : Char} {low high : UInt8}
    (hlow : low.toNat ≤ v % 0x40 + 0x80) (hhigh : v % 0x40 + 0x80 ≤ high.toNat)
    (hc : value * 0x40 + v % 0x40 = c.val.toNat) :
    push ⟨text, some ⟨0, low, high, value⟩⟩ (UInt8.ofNat (v % 0x40 + 0x80)) =
      ⟨text.push c, none⟩ := by
  have hbits : (v % 0x40 + 0x80) % 0x40 = v % 0x40 := by omega
  have hchar : Char.ofNat c.val.toNat = c := Char.ofNat_toNat c
  rw [push_within text (by omega) hlow hhigh, hbits, hc, hchar]

/-- A byte of a character that is not its last one. -/
theorem push_middle (text : String) {more value v : Nat} {low high : UInt8}
    (hlow : low.toNat ≤ v % 0x40 + 0x80) (hhigh : v % 0x40 + 0x80 ≤ high.toNat) :
    push ⟨text, some ⟨more + 1, low, high, value⟩⟩ (UInt8.ofNat (v % 0x40 + 0x80)) =
      ⟨text, some ⟨more, 0x80, 0xbf, value * 0x40 + v % 0x40⟩⟩ := by
  have hbits : (v % 0x40 + 0x80) % 0x40 = v % 0x40 := by omega
  rw [push_within text (by omega) hlow hhigh, hbits]

/-! ## Characters and texts -/

/-- A `Char` is no surrogate and at most `10ffff`. -/
theorem valid (c : Char) :
    c.val.toNat < 0xd800 ∨ 0xdfff < c.val.toNat ∧ c.val.toNat < 0x110000 := c.valid

/-- The bytes of a character decode to the character. -/
theorem foldl_push_encodeChar (text : String) (c : Char) :
    (String.utf8EncodeChar c).foldl push ⟨text, none⟩ = ⟨text.push c, none⟩ := by
  have hvalid := valid c
  have hstart (b : UInt8) : push ⟨text, none⟩ b = start text b := rfl
  unfold String.utf8EncodeChar
  generalize hv : c.val.toNat = v at hvalid
  dsimp only
  -- One case for each number of bytes.
  split
  · next h1 =>
    subst hv
    exact start_one text h1
  · next h1 =>
    split
    · next h2 =>
      rw [List.foldl_cons, List.foldl_cons, List.foldl_nil, hstart,
        start_two text (by omega) (by omega)]
      apply push_last
      · show 128 ≤ _
        omega
      · show _ ≤ 191
        omega
      · omega
    · next h2 =>
      split
      · next h3 =>
        rw [List.foldl_cons, List.foldl_cons, List.foldl_cons, List.foldl_nil, hstart,
          start_three text (by omega) (by omega), push_middle, push_last]
        · show 128 ≤ _
          omega
        · show _ ≤ 191
          omega
        · omega
        · split
          · show 160 ≤ _
            omega
          · show 128 ≤ _
            omega
        · split
          · show _ ≤ 159
            omega
          · show _ ≤ 191
            omega
      · next h3 =>
        rw [List.foldl_cons, List.foldl_cons, List.foldl_cons, List.foldl_cons, List.foldl_nil,
          hstart, start_four text (by omega) (by omega), push_middle, push_middle, push_last]
        · show 128 ≤ _
          omega
        · show _ ≤ 191
          omega
        · omega
        · show 128 ≤ _
          omega
        · show _ ≤ 191
          omega
        · split
          · show 144 ≤ _
            omega
          · show 128 ≤ _
            omega
        · split
          · show _ ≤ 143
            omega
          · show _ ≤ 191
            omega

theorem foldl_push_encode (text : String) (chars : List Char) :
    (chars.flatMap String.utf8EncodeChar).foldl push ⟨text, none⟩ =
      ⟨text ++ String.ofList chars, none⟩ := by
  induction chars generalizing text with
  | nil => simp
  | cons c chars ih =>
    have happend : text.push c ++ String.ofList chars = text ++ String.ofList (c :: chars) := by
      apply String.toList_inj.1
      simp
    rw [List.flatMap_cons, List.foldl_append, foldl_push_encodeChar, ih, happend]

end Decoder

/-- Encoding a text and decoding the bytes gives the text. -/
theorem decodeLossy_encode (text : String) : decodeLossy (encode text).toArray = text := by
  rw [decodeLossy, List.foldl_toArray, encode, Decoder.foldl_push_encode]
  show "" ++ String.ofList text.toList = text
  rw [String.ofList_toList, String.empty_append]

/-- Only the character zero is written with a byte that is zero. -/
theorem mem_encode_zero {text : String} (h : (0 : UInt8) ∈ encode text) :
    Char.ofNat 0 ∈ text.toList := by
  obtain ⟨c, hc, hzero⟩ := List.mem_flatMap.1 h
  have hnat : c.val.toNat = 0 := by
    have hbyte {n : Nat} (hn : n < 256) (h : (0 : UInt8) = UInt8.ofNat n) : n = 0 :=
      (Decoder.ofNat_eq_iff hn 0).1 h.symm
    unfold String.utf8EncodeChar at hzero
    generalize c.val.toNat = v at hzero ⊢
    dsimp only at hzero
    -- All bytes but that of a character below 128 have their highest bit set.
    split at hzero
    · next hone => exact hbyte (by omega) (List.mem_singleton.1 hzero)
    · split at hzero
      · simp only [List.mem_cons, List.not_mem_nil, or_false] at hzero
        rcases hzero with h | h <;> exact absurd (hbyte (by omega) h) (by omega)
      · split at hzero
        · simp only [List.mem_cons, List.not_mem_nil, or_false] at hzero
          rcases hzero with h | h | h <;> exact absurd (hbyte (by omega) h) (by omega)
        · simp only [List.mem_cons, List.not_mem_nil, or_false] at hzero
          rcases hzero with h | h | h | h <;> exact absurd (hbyte (by omega) h) (by omega)
  obtain rfl : c = Char.ofNat 0 := by
    apply Char.ext
    exact UInt32.toNat_inj.1 hnat
  exact hc

end TraceProfile.Utf8
