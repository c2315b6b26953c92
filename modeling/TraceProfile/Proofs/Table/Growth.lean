import TraceProfile.Table.Interner

/-!
# Tables only grow

Rows are handed out by their index long before a profile is finished, so nothing may move a value
once it has an index. `Interner.GrowsTo` says that a later table has all values of an earlier one
under the same indices; asking for a value is one step of such growth, and every fact about a value
at an index is carried along it.
-/

namespace TraceProfile

/-- What stands at an index of a list stands there in every longer one. -/
theorem getElem?_mono {α : Type} {l l' : List α} (h : l <+: l') {index : Nat} {a : α}
    (ha : l[index]? = some a) : l'[index]? = some a := by
  obtain ⟨more, rfl⟩ := h
  obtain ⟨hlt, -⟩ := List.getElem?_eq_some_iff.1 ha
  rw [List.getElem?_append_left hlt]
  exact ha

namespace Interner

variable {α : Type} [Ord α]

/-- The later table has the values of the earlier one under the same indices, and maybe more. -/
def GrowsTo (t t' : Interner α) : Prop := t.toList <+: t'.toList

theorem GrowsTo.refl (t : Interner α) : t.GrowsTo t := List.prefix_rfl

theorem GrowsTo.trans {t t' t'' : Interner α} (h : t.GrowsTo t') (h' : t'.GrowsTo t'') :
    t.GrowsTo t'' := List.IsPrefix.trans h h'

/-- A value keeps its index. -/
theorem GrowsTo.get? {t t' : Interner α} (h : t.GrowsTo t') {index : Nat} {a : α}
    (ha : t.get? index = some a) : t'.get? index = some a := by
  rw [get?_eq_getElem?] at ha ⊢
  exact getElem?_mono h ha

theorem GrowsTo.size_le {t t' : Interner α} (h : t.GrowsTo t') : t.size ≤ t'.size := by
  rw [← length_toList, ← length_toList]
  exact h.length_le

theorem lt_size_of_get? {t : Interner α} {index : Nat} {a : α} (h : t.get? index = some a) :
    index < t.size := by
  rw [get?_eq_getElem?] at h
  rw [← length_toList]
  exact (List.getElem?_eq_some_iff.1 h).1

theorem exists_get?_of_lt_size {t : Interner α} {index : Nat} (h : index < t.size) :
    ∃ a, t.get? index = some a := by
  rw [← length_toList] at h
  exact ⟨t.toList[index], by rw [get?_eq_getElem?, List.getElem?_eq_getElem h]⟩

/-- No two values stand at one index, and no value at two. -/
theorem index_eq_iff {t : Interner α} {i j : Nat} {a b : α} (hi : t.get? i = some a)
    (hj : t.get? j = some b) : i = j ↔ a = b := by
  constructor
  · rintro rfl
    exact Option.some.inj (hi.symm.trans hj)
  · rintro rfl
    have htree := (t.getElem?_indices a i).2 hi
    exact Option.some.inj (htree.symm.trans ((t.getElem?_indices a j).2 hj))

theorem mem_of_get? {t : Interner α} {index : Nat} {a : α} (h : t.get? index = some a) :
    a ∈ t.toList := by
  rw [get?_eq_getElem?] at h
  exact List.mem_of_getElem? h

theorem idxOf_of_get? {t : Interner α} {index : Nat} {a : α} (h : t.get? index = some a) :
    t.idxOf a = index := by
  rw [idxOf, (t.getElem?_indices a index).2 h]
  rfl

variable [Std.TransOrd α] [Std.LawfulEqOrd α]

/-- Asking for a value that the table has changes nothing. -/
theorem intern_of_get? {t : Interner α} {index : Nat} {a : α} (h : t.get? index = some a) :
    t.intern a = (index, t) := by
  rw [intern_eq, idxOf_of_get? h, insert_of_mem (mem_of_get? h)]

variable [DecidableEq α]

theorem growsTo_insert (t : Interner α) (a : α) : t.GrowsTo (t.insert a) := by
  rw [GrowsTo, toList_insert]
  split
  · exact List.prefix_rfl
  · exact List.prefix_append _ _

theorem getElem?_idxOf_insert (t : Interner α) (a : α) :
    (t.insert a).toList[t.idxOf a]? = some a := by
  rw [← get?_eq_getElem?]
  exact get?_idxOf_insert t a

/-- A value of the table after another was asked for is an old one, or that other one at the end. -/
theorem get?_of_get?_insert {t : Interner α} {a b : α} {index : Nat}
    (h : (t.insert a).get? index = some b) :
    t.get? index = some b ∨ index = t.size ∧ b = a := by
  by_cases hmem : a ∈ t.toList
  · rw [insert_of_mem hmem] at h
    exact Or.inl h
  · rw [get?_eq_getElem?, toList_insert_of_not_mem hmem] at h
    rcases Nat.lt_or_ge index t.toList.length with hlt | hge
    · rw [List.getElem?_append_left hlt] at h
      rw [get?_eq_getElem?]
      exact Or.inl h
    · rw [List.getElem?_append_right hge, List.getElem?_singleton] at h
      split at h
      · next hindex =>
        rw [length_toList] at hge hindex
        exact Or.inr ⟨by omega, (Option.some.inj h).symm⟩
      · exact absurd h (by simp)

/-- A new value gets the next index. -/
theorem idxOf_of_not_mem {t : Interner α} {a : α} (h : a ∉ t.toList) : t.idxOf a = t.size := by
  rw [idxOf_eq, List.idxOf_eq_length h, length_toList]

end Interner

end TraceProfile
