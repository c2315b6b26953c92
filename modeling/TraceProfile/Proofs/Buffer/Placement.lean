import TraceProfile.Proofs.Buffer.Reassembly

/-!
# Entries in their places

What is written is a list of entries; what is read are slots. `Slot.place` puts entries into their
places from a position on, and the readers are then followed along `++`. The first of them is the
reader of texts: the fragments of a text give its bytes back, whatever comes after them
(`TextBuilder.collect_fragments`).
-/

namespace TraceProfile

namespace Slot

/-- The entries at consecutive positions, the first at the given one. -/
def place (position : Nat) : List Entry → List Slot
  | [] => []
  | entry :: rest => ⟨position, entry⟩ :: place (position + 1) rest

@[simp] theorem place_nil (position : Nat) : place position [] = [] := rfl

@[simp] theorem place_cons (position : Nat) (entry : Entry) (rest : List Entry) :
    place position (entry :: rest) = ⟨position, entry⟩ :: place (position + 1) rest := rfl

theorem place_append (position : Nat) (entries more : List Entry) :
    place position (entries ++ more) =
      place position entries ++ place (position + entries.length) more := by
  induction entries generalizing position with
  | nil => rfl
  | cons entry entries ih =>
    have hnext : position + 1 + entries.length = position + (entries.length + 1) := by omega
    rw [List.cons_append, place_cons, ih, place_cons, List.length_cons, hnext, List.cons_append]

theorem mem_place {position : Nat} {entries : List Entry} {slot : Slot}
    (h : slot ∈ place position entries) : slot.entry ∈ entries := by
  induction entries generalizing position with
  | nil => exact absurd h List.not_mem_nil
  | cons entry entries ih =>
    rcases List.mem_cons.1 h with rfl | hrest
    · exact List.mem_cons_self
    · exact List.mem_cons_of_mem _ (ih hrest)

theorem length_place (position : Nat) (entries : List Entry) :
    (place position entries).length = entries.length := by
  induction entries generalizing position with
  | nil => rfl
  | cons entry entries ih => rw [place_cons, List.length_cons, ih, List.length_cons]

theorem map_entry_place (position : Nat) (entries : List Entry) :
    (place position entries).map entry = entries := by
  induction entries generalizing position with
  | nil => rfl
  | cons first entries ih => rw [place_cons, List.map_cons, ih]

theorem number_eq_place (position : Nat) (entries : List Entry) :
    number position entries.toArray = place position entries := by
  rw [number_eq_mapIdx]
  induction entries generalizing position with
  | nil => rfl
  | cons entry entries ih =>
    have hshift : (fun i e => (⟨position + (i + 1), e⟩ : Slot)) =
        fun i e => ⟨position + 1 + i, e⟩ := by
      funext i e
      rw [Nat.add_assoc, Nat.add_comm 1 i]
    have hrest := ih (position + 1)
    simp only [List.mapIdx_cons] at hrest ⊢
    rw [hshift, hrest]
    rfl

end Slot

/-! ## Texts -/

/-- The fragments of a text of declared length give the text back. -/
theorem TextBuilder.collect_fragments (text : String) (position : Nat) (rest : List Slot) :
    ∃ b : TextBuilder, b.finish = text ∧
      collect { limit := some (Utf8.encode text).length }
        (Slot.place position (Entry.fragments text) ++ rest) = (b, rest) := by
  obtain ⟨padding, hbytes, -, hcount⟩ := Chunk.exists_flatMap_cut (Utf8.encode text)
  have hentries : (Slot.place position (Entry.fragments text) ++ rest).map Slot.entry =
      (Chunk.cut (Utf8.encode text)).map .stringFragment ++ rest.map Slot.entry := by
    rw [List.map_append, Slot.map_entry_place, Entry.fragments]
  refine ⟨_, ?_, Prod.ext rfl ?_⟩
  · have hcollect := bytes_collect { limit := some (Utf8.encode text).length }
      (Slot.place position (Entry.fragments text) ++ rest)
    rw [hentries, Entry.leadingBytes_append, hbytes, List.append_assoc] at hcollect
    have hwhole : (collect { limit := some (Utf8.encode text).length }
        (Slot.place position (Entry.fragments text) ++ rest)).1.bytes =
        (Utf8.encode text).toArray := by
      rw [← Array.toList_inj, hcollect]
      exact List.take_left
    rw [finish, hwhole, Utf8.decodeLossy_encode]
  · have hslots := slots_collect (b := { limit := some (Utf8.encode text).length }) rfl
      (Slot.place position (Entry.fragments text) ++ rest)
    rw [hslots, hentries, Entry.leadingFragments_append, List.length_append, hcount]
    have hplace : (Slot.place position (Entry.fragments text)).length =
        ((Utf8.encode text).length + 7) / 8 := by
      rw [Slot.length_place, Entry.fragments, List.length_map, hcount]
    refine List.drop_left' (hplace.trans ?_)
    exact (Nat.min_eq_left (Nat.le_add_right _ _)).symm

end TraceProfile
