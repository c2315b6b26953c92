import TraceProfile.Table.Interner

/-!
# Groups

Things that belong together are shown together: the groups in the order in which their keys appear
first, and in each group its members in the order in which they stand. A `Grouping` sorts one thing
after the other into its group. `groupBy_eq` says what comes out, without the table of the keys.
-/

namespace TraceProfile

/-- Groups that are being collected. -/
structure Grouping (κ α : Type) [Ord κ] where
  /-- The keys of the groups. -/
  keys : Interner κ := {}
  /-- The members of each group, by the index of its key. -/
  members : Array (Array α) := #[]

namespace Grouping

variable {κ α : Type} [Ord κ] [Std.TransOrd κ] [Std.LawfulEqOrd κ]

/-- Adds a member to the group of a key, which is added at the end if there is none. -/
def insert (g : Grouping κ α) (key : κ) (a : α) : Grouping κ α :=
  match g with
  | ⟨keys, members⟩ =>
    let index := keys.idxOf key
    if index < members.size then ⟨keys, members.modify index (·.push a)⟩
    else ⟨keys.insert key, members.push #[a]⟩

/-- The keys with their members. -/
def toList (g : Grouping κ α) : List (κ × List α) :=
  g.keys.toList.zip (g.members.toList.map Array.toList)

end Grouping

theorem modify_map_idxOf {κ β : Type} [DecidableEq κ] (keys : List κ) (k : κ) (f : κ → β)
    (change : β → β) (hnodup : keys.Nodup) :
    (keys.map f).modify (keys.idxOf k) change
      = keys.map fun k' => if k' = k then change (f k') else f k' := by
  induction keys with
  | nil => simp
  | cons k' keys ih =>
    obtain ⟨hnot, hrest⟩ := List.nodup_cons.1 hnodup
    by_cases h : k' = k
    · subst h
      have hsame : keys.map (fun k => if k = k' then change (f k) else f k) = keys.map f :=
        List.map_congr_left fun k hk => if_neg fun e : k = k' => hnot (e ▸ hk)
      simp [hsame]
    · rw [List.idxOf_cons, beq_false_of_ne h, List.map_cons, List.map_cons, if_neg h, ← ih hrest]
      rfl

theorem eraseDups_concat {κ : Type} [BEq κ] [LawfulBEq κ] (l : List κ) (k : κ) :
    (l ++ [k]).eraseDups = if k ∈ l then l.eraseDups else l.eraseDups ++ [k] := by
  rw [List.eraseDups_append]
  by_cases h : k ∈ l <;> simp [List.removeAll, List.eraseDups_cons, h]

theorem map_modify_push {α : Type} (a : α) (members : List (Array α)) (index : Nat) :
    (members.modify index (·.push a)).map Array.toList
      = (members.map Array.toList).modify index (· ++ [a]) := by
  induction members generalizing index with
  | nil => simp
  | cons group members ih => cases index <;> simp [ih]

variable {κ α : Type} [Ord κ] [Std.TransOrd κ] [Std.LawfulEqOrd κ]

/-- The groups of a list. -/
def groupBy (key : α → κ) (l : List α) : List (κ × List α) :=
  (l.foldl (fun (g : Grouping κ α) a => g.insert (key a) a) {}).toList

variable [DecidableEq κ]

/-- The groups of a list are what they are meant to be. -/
structure Grouping.Collects (g : Grouping κ α) (key : α → κ) (l : List α) : Prop where
  /-- The keys are those of the list. -/
  keys_eq : g.keys.toList = (l.map key).eraseDups
  /-- The members of a group are those elements of the list that have its key. -/
  members_eq : g.members.toList.map Array.toList
    = g.keys.toList.map fun k => l.filter fun a => key a == k

theorem Grouping.Collects.insert {g : Grouping κ α} {key : α → κ} {l : List α}
    (h : g.Collects key l) (a : α) : (g.insert (key a) a).Collects key (l ++ [a]) := by
  obtain ⟨keys, members⟩ := g
  obtain ⟨hkeys, hmembers⟩ := h
  have hsize : members.size = keys.toList.length := by
    simpa using congrArg List.length hmembers
  have hmem : key a ∈ keys.toList ↔ key a ∈ l.map key := by rw [hkeys, List.mem_eraseDups]
  simp only [Grouping.insert]
  by_cases ha : key a ∈ keys.toList
  · have hlt : keys.idxOf (key a) < members.size := by
      rw [Interner.idxOf_eq, hsize]
      exact List.idxOf_lt_length_of_mem ha
    rw [if_pos hlt]
    refine ⟨?_, ?_⟩
    · rw [List.map_append, List.map_singleton, eraseDups_concat, if_pos (hmem.1 ha)]
      exact hkeys
    · rw [Array.toList_modify, map_modify_push, hmembers, Interner.idxOf_eq,
        modify_map_idxOf _ _ _ _ keys.nodup_toList]
      refine List.map_congr_left fun k _ => ?_
      by_cases hk : k = key a
      · simp [List.filter_append, hk]
      · simp [List.filter_append, hk, Ne.symm hk]
  · have hge : ¬keys.idxOf (key a) < members.size := by
      rw [Interner.idxOf_eq, hsize, List.idxOf_eq_length ha]
      exact Nat.lt_irrefl _
    rw [if_neg hge]
    refine ⟨?_, ?_⟩
    · rw [List.map_append, List.map_singleton, eraseDups_concat, if_neg (mt hmem.2 ha), ← hkeys]
      exact Interner.toList_insert_of_not_mem ha
    · rw [Interner.toList_insert_of_not_mem ha, Array.toList_push, List.map_append, hmembers,
        List.map_append]
      congr 1
      · refine List.map_congr_left fun k hk => ?_
        have hne : key a ≠ k := fun e => ha (e ▸ hk)
        simp [List.filter_append, hne]
      · have hnone : l.filter (fun b => key b == key a) = [] :=
          List.filter_eq_nil_iff.2 fun b hb hkey =>
            ha (hmem.2 (List.mem_map.2 ⟨b, hb, eq_of_beq hkey⟩))
        simp [List.filter_append, hnone]

theorem collects_foldl (key : α → κ) (rest l : List α) (g : Grouping κ α)
    (h : g.Collects key l) :
    (rest.foldl (fun (g : Grouping κ α) a => g.insert (key a) a) g).Collects key (l ++ rest) := by
  induction rest generalizing g l with
  | nil => simpa using h
  | cons a rest ih => simpa using ih _ _ (h.insert a)

/-- The groups of a list: its distinct keys, each with the elements that have it. -/
theorem groupBy_eq (key : α → κ) (l : List α) :
    groupBy key l = (l.map key).eraseDups.map fun k => (k, l.filter fun a => key a == k) := by
  obtain ⟨hkeys, hmembers⟩ := collects_foldl key l [] {} ⟨rfl, rfl⟩
  rw [List.nil_append] at hkeys hmembers
  rw [groupBy, Grouping.toList, hmembers, hkeys]
  generalize (l.map key).eraseDups = keys
  induction keys with
  | nil => rfl
  | cons k keys ih => simp [ih]

end TraceProfile
