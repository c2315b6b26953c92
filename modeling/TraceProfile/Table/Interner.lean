import Std.Data.TreeMap

/-!
# Interners

Every table of a profile holds each of its values once, and other tables refer to a value by its
index. An interner lists distinct values in the order in which they were first asked for; the index
of a value is its position in that list, and stays the same for as long as the table grows.

The indices are kept in a search tree beside the values, so that a long table is asked as fast as a
short one. `Interner.toList_insert`, `Interner.idxOf_eq` and `Interner.toList_ofList` say what the
operations are on the list of values, without the tree.

Indices are natural numbers here, as are the depths of inlined frames and the indices of ranges of
known code, and nothing wraps around. In a profile they are numbers of 32 bits. So what is said of
tables and profiles is meant for fewer than 2^32 rows in each table, 2^32 ranges in a coverage, and
2^32 frames at one address.
-/

namespace TraceProfile

/-- An empty search tree lists the indices of an empty table. -/
theorem getElem?_emptyTree_iff {α : Type} [Ord α] (a : α) (index : Nat) :
    (∅ : Std.TreeMap α Nat)[a]? = some index ↔ (#[] : Array α)[index]? = some a :=
  ⟨fun h => (nomatch h), fun h => by simp at h⟩

/-- A table of distinct values in the order of their first use. -/
structure Interner (α : Type) [Ord α] where
  /-- The values by index. -/
  items : Array α := #[]
  /-- The indices by value. -/
  indices : Std.TreeMap α Nat := ∅
  /-- The tree holds each value of the table under its index, and nothing else. -/
  getElem?_indices : ∀ (a : α) (index : Nat),
    indices[a]? = some index ↔ items[index]? = some a := by exact getElem?_emptyTree_iff

namespace Interner

variable {α : Type} [Ord α]

/-- The values in the order of their first use. -/
def toList (t : Interner α) : List α := t.items.toList

/-- The number of values. -/
def size (t : Interner α) : Nat := t.items.size

/-- The value at an index. -/
def get? (t : Interner α) (index : Nat) : Option α := t.items[index]?

/-- Whether the table has a value. -/
def contains (t : Interner α) (a : α) : Bool := t.indices[a]?.isSome

/-- The index that a value has or, if the table does not have it, will get. -/
def idxOf (t : Interner α) (a : α) : Nat := t.indices[a]?.getD t.size

theorem get?_eq_getElem? (t : Interner α) (index : Nat) : t.get? index = t.toList[index]? := by
  simp [get?, toList]

theorem length_toList (t : Interner α) : t.toList.length = t.size := rfl

theorem contains_iff {t : Interner α} {a : α} : t.contains a = true ↔ a ∈ t.toList := by
  rw [contains, Option.isSome_iff_exists, List.mem_iff_getElem?]
  simp only [t.getElem?_indices, ← get?_eq_getElem?, get?]

/-- No value occurs twice. -/
theorem nodup_toList (t : Interner α) : t.toList.Nodup := by
  rw [List.Nodup, List.pairwise_iff_getElem]
  intro i j hi hj hij heq
  have hfirst := (t.getElem?_indices _ i).2 (Array.getElem?_eq_getElem hi)
  have hsecond := (t.getElem?_indices _ j).2 (Array.getElem?_eq_getElem hj)
  simp only [toList, Array.getElem_toList] at heq
  have hsame := (congrArg (t.indices[·]?) heq).symm.trans hfirst
  exact absurd (Option.some.inj (hsecond.symm.trans hsame)) (Nat.ne_of_gt hij)

variable [Std.TransOrd α] [Std.LawfulEqOrd α]

/-- The tree stays right when a new value is added. -/
theorem getElem?_indices_push (t : Interner α) (a : α) (h : ¬t.contains a) (b : α) (index : Nat) :
    (t.indices.insert a t.items.size)[b]? = some index ↔ (t.items.push a)[index]? = some b := by
  have hnew : ∀ i : Nat, t.items[i]? ≠ some a := by
    intro i hi
    exact h (by rw [contains, (t.getElem?_indices a i).2 hi]; rfl)
  rw [Std.TreeMap.getElem?_insert, Array.getElem?_push]
  by_cases hab : a = b
  · subst hab
    rw [if_pos (Std.compare_eq_iff_eq.2 rfl)]
    by_cases hi : index = t.items.size
    · simp [hi]
    · rw [if_neg hi]
      exact ⟨fun e => absurd (Option.some.inj e).symm hi, fun e => absurd e (hnew index)⟩
  · rw [if_neg fun e => hab (Std.compare_eq_iff_eq.1 e), t.getElem?_indices]
    by_cases hi : index = t.items.size
    · simp [hi, hab]
    · rw [if_neg hi]

/-- The table with a value at its end that it does not have. -/
def push : (t : Interner α) → (a : α) → ¬t.contains a → Interner α
  | ⟨items, indices, h⟩, a, hnew =>
    let index := items.size
    ⟨items.push a, indices.insert a index, getElem?_indices_push ⟨items, indices, h⟩ a hnew⟩

/-- The table with a value added at the end, unless it has the value. -/
def insert (t : Interner α) (a : α) : Interner α :=
  if h : t.contains a then t else t.push a h

/-- The index of a value, which is added if the table does not have it. -/
def intern (t : Interner α) (a : α) : Nat × Interner α :=
  match h : t.indices[a]? with
  | some index => (index, t)
  | none => (t.size, t.push a (by simp [contains, h]))

theorem intern_eq (t : Interner α) (a : α) : t.intern a = (t.idxOf a, t.insert a) := by
  unfold intern
  split
  · next h => simp [idxOf, insert, contains, h]
  · next h => simp [idxOf, insert, contains, h]

theorem insert_of_mem {t : Interner α} {a : α} (h : a ∈ t.toList) : t.insert a = t :=
  dif_pos (contains_iff.2 h)

theorem toList_insert_of_not_mem {t : Interner α} {a : α} (h : a ∉ t.toList) :
    (t.insert a).toList = t.toList ++ [a] := by
  rw [insert, dif_neg fun hc => h (contains_iff.1 hc)]
  exact Array.toList_push

variable [DecidableEq α]

/-- Asking for a value adds it at the end, unless the table has it. -/
theorem toList_insert (t : Interner α) (a : α) :
    (t.insert a).toList = if a ∈ t.toList then t.toList else t.toList ++ [a] := by
  split
  · next h => rw [insert_of_mem h]
  · next h => exact toList_insert_of_not_mem h

/-- The index of a value is its position in the list, which is the length of the list if the value
is not in it. -/
theorem idxOf_eq (t : Interner α) (a : α) : t.idxOf a = t.toList.idxOf a := by
  by_cases h : a ∈ t.toList
  · have hlt := List.idxOf_lt_length_of_mem h
    have hget : t.toList[t.toList.idxOf a]? = some a := by
      rw [List.getElem?_eq_getElem hlt, List.getElem_idxOf hlt]
    rw [← get?_eq_getElem?, get?, ← t.getElem?_indices] at hget
    rw [idxOf, hget, Option.getD_some]
  · have hnone : t.indices[a]? = none := by
      have hc := mt contains_iff.1 h
      rwa [contains, Option.not_isSome_iff_eq_none] at hc
    rw [idxOf, hnone, Option.getD_none, List.idxOf_eq_length h, length_toList]

theorem idxOf_lt_size_iff {t : Interner α} {a : α} : t.idxOf a < t.size ↔ a ∈ t.toList := by
  rw [idxOf_eq, ← length_toList, List.idxOf_lt_length_iff]

/-- A value stands at its index once it has been asked for. -/
theorem get?_idxOf_insert (t : Interner α) (a : α) : (t.insert a).get? (t.idxOf a) = some a := by
  rw [get?_eq_getElem?, idxOf_eq]
  by_cases h : a ∈ t.toList
  · have hlt := List.idxOf_lt_length_of_mem h
    rw [insert_of_mem h, List.getElem?_eq_getElem hlt, List.getElem_idxOf hlt]
  · rw [toList_insert_of_not_mem h, List.idxOf_eq_length h]
    exact List.getElem?_concat_length

/-- The table of the values of a list. -/
def ofList (values : List α) : Interner α := values.foldl insert {}

theorem toList_foldl_insert (values : List α) (t : Interner α) :
    (values.foldl insert t).toList = t.toList ++ (values.removeAll t.toList).eraseDups := by
  induction values generalizing t with
  | nil => simp [List.removeAll]
  | cons a values ih =>
    rw [List.foldl_cons, ih]
    by_cases h : a ∈ t.toList
    · rw [insert_of_mem h]
      simp [List.removeAll, h]
    · rw [toList_insert_of_not_mem h]
      simp only [List.removeAll, List.filter_cons, List.elem_eq_mem, List.mem_append,
        List.mem_singleton, h, decide_false, Bool.not_false, if_true, List.eraseDups_cons,
        List.filter_filter, List.append_assoc, List.singleton_append]
      congr 4
      funext b
      by_cases hb : b = a <;> simp [hb]

/-- The table of a list lists the distinct values of the list. -/
theorem toList_ofList (values : List α) : (ofList values).toList = values.eraseDups := by
  rw [ofList, toList_foldl_insert]
  change ([] : List α) ++ (values.removeAll []).eraseDups = _
  exact congrArg List.eraseDups (List.filter_eq_self.2 fun _ _ => rfl)

end Interner

/-- The texts that a profile refers to. -/
abbrev StringTable := Interner String

end TraceProfile
