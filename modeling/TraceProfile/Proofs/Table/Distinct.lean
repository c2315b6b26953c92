import Mathlib.Data.List.Forall2
import Mathlib.Data.List.Induction
import Mathlib.Data.List.Nodup
import TraceProfile.Table.Grouping

/-!
# Distinct values in the order of their first appearance

A table of the values of a list is the list without repetitions. It gets longer at its end or not at
all when the list does, and each of its values has one position.

What is read from a buffer stands at places. A list of what was read is said by these: it has one
element for each place (`OnePerPlace`), or one for each value in the order of the first places
(`FirstAppearances`).
-/

namespace TraceProfile

section

variable {α : Type} [BEq α] [LawfulBEq α]

theorem nodup_eraseDups (l : List α) : l.eraseDups.Nodup := by
  induction l using List.reverseRecOn with
  | nil => exact List.nodup_nil
  | append_singleton l a ih =>
    rw [eraseDups_concat]
    split
    · exact ih
    · next h =>
      rw [List.nodup_append_comm, List.singleton_append, List.nodup_cons]
      exact ⟨mt List.mem_eraseDups.1 h, ih⟩

theorem eraseDups_eq_self {l : List α} (h : l.Nodup) : l.eraseDups = l := by
  induction l using List.reverseRecOn with
  | nil => rfl
  | append_singleton l a ih =>
    rw [List.nodup_append_comm, List.singleton_append, List.nodup_cons] at h
    obtain ⟨hnew, hnodup⟩ := h
    rw [eraseDups_concat, if_neg hnew, ih hnodup]

theorem eraseDups_map_of_injective {β : Type} [BEq β] [LawfulBEq β] {f : α → β}
    (hf : Function.Injective f) (l : List α) : (l.map f).eraseDups = l.eraseDups.map f := by
  induction l using List.reverseRecOn with
  | nil => rfl
  | append_singleton l a ih =>
    rw [List.map_append, List.map_singleton, eraseDups_concat, eraseDups_concat, ih]
    simp only [List.mem_map_of_injective hf]
    split
    · rfl
    · rw [List.map_append, List.map_singleton]

/-- The position of what stands somewhere in a list without repetitions. -/
theorem idxOf_of_getElem? {l : List α} (hnodup : l.Nodup) {index : Nat} {a : α}
    (h : l[index]? = some a) : l.idxOf a = index := by
  obtain ⟨hlt, rfl⟩ := List.getElem?_eq_some_iff.1 h
  exact hnodup.idxOf_getElem index hlt

/-- The position of a value among the distinct values stays what it is when the list gets longer. -/
theorem idxOf_eraseDups_append {l : List α} {a : α} (h : a ∈ l) (more : List α) :
    (l ++ more).eraseDups.idxOf a = l.eraseDups.idxOf a := by
  rw [List.eraseDups_append, List.idxOf_append_of_mem (List.mem_eraseDups.2 h)]

theorem idxOf?_of_getElem? {l : List α} (hnodup : l.Nodup) {index : Nat} {a : α}
    (h : l[index]? = some a) : l.idxOf? a = some index := by
  obtain ⟨hlt, rfl⟩ := List.getElem?_eq_some_iff.1 h
  refine List.idxOf?_eq_some_iff.2 ⟨hlt, rfl, fun j hj heq => ?_⟩
  exact absurd ((List.Nodup.getElem_inj_iff hnodup).1 heq) (Nat.ne_of_lt hj)

end

/-- A table that lists the distinct values of a list does so with one more value asked for. -/
theorem Interner.toList_insert_of_eq_eraseDups {α : Type} [Ord α] [Std.TransOrd α]
    [Std.LawfulEqOrd α] [DecidableEq α] {t : Interner α} {l : List α} (h : t.toList = l.eraseDups)
    (a : α) : (t.insert a).toList = (l ++ [a]).eraseDups := by
  rw [Interner.toList_insert, eraseDups_concat, h]
  simp only [List.mem_eraseDups]

theorem Interner.ofList_concat {α : Type} [Ord α] [Std.TransOrd α] [Std.LawfulEqOrd α]
    [DecidableEq α] (l : List α) (a : α) : ofList (l ++ [a]) = (ofList l).insert a :=
  List.foldl_concat insert {} a l

/-! ## One element for each place -/

/-- The list has one element for each of the places, in their order, and it stands there. -/
def OnePerPlace {α : Type} (place : Nat → Prop) (stands : Nat → α → Prop) (l : List α) : Prop :=
  ∃ places : List Nat, places.Pairwise (· < ·) ∧ (∀ position, position ∈ places ↔ place position) ∧
    List.Forall₂ stands places l

namespace OnePerPlace

variable {α γ : Type} {place : Nat → Prop} {stands : Nat → α → Prop} {first : Nat} {as : List α}

theorem nil (h : ∀ position, ¬place position) : OnePerPlace place stands [] :=
  ⟨[], .nil, fun position => ⟨fun hmem => absurd hmem List.not_mem_nil,
    fun hplace => absurd hplace (h position)⟩, .nil⟩

/-- Nothing is at the first place that is looked at. -/
theorem skip (h : OnePerPlace (fun position => first + 1 ≤ position ∧ place position) stands as)
    (hfirst : ¬place first) :
    OnePerPlace (fun position => first ≤ position ∧ place position) stands as := by
  obtain ⟨places, hordered, hmem, hstands⟩ := h
  refine ⟨places, hordered, fun position => ?_, hstands⟩
  rw [hmem]
  refine and_congr_left fun hplace => ⟨Nat.le_of_succ_le, fun hle => ?_⟩
  refine Nat.lt_of_le_of_ne hle ?_
  rintro rfl
  exact hfirst hplace

/-- Something stands at the first place that is looked at. -/
theorem cons {a : α}
    (h : OnePerPlace (fun position => first + 1 ≤ position ∧ place position) stands as)
    (hfirst : place first) (ha : stands first a) :
    OnePerPlace (fun position => first ≤ position ∧ place position) stands (a :: as) := by
  obtain ⟨places, hordered, hmem, hstands⟩ := h
  refine ⟨first :: places, hordered.cons fun position h => ((hmem position).1 h).1,
    fun position => ?_, .cons ha hstands⟩
  rw [List.mem_cons, hmem]
  constructor
  · rintro (rfl | ⟨hlt, hplace⟩)
    · exact ⟨Nat.le_refl _, hfirst⟩
    · exact ⟨Nat.le_of_succ_le hlt, hplace⟩
  · rintro ⟨hle, hplace⟩
    rcases Nat.eq_or_lt_of_le hle with rfl | hlt
    · exact .inl rfl
    · exact .inr ⟨hlt, hplace⟩

/-- What is made, one by one, of what stands at the places. -/
theorem made (h : OnePerPlace place stands as) {makes : α → γ → Prop} {cs : List γ}
    (hmade : List.Forall₂ makes as cs) :
    OnePerPlace place (fun position c => ∃ a, stands position a ∧ makes a c) cs := by
  obtain ⟨places, hordered, hplace, hstands⟩ := h
  refine ⟨places, hordered, hplace, ?_⟩
  clear hordered hplace
  induction hstands generalizing cs with
  | nil =>
    cases hmade
    exact .nil
  | cons ha _ ih =>
    cases hmade with
    | cons hc hrest => exact .cons ⟨_, ha, hc⟩ (ih hrest)

end OnePerPlace

section

variable {α β : Type} {key : β → Nat} {read : β → Option α} {l : List β}

/-- What is read from the elements of a list, with the places of these elements. -/
def placed (key : β → Nat) (read : β → Option α) (l : List β) : List (Nat × α) :=
  l.filterMap fun b => (read b).map fun a => (key b, a)

theorem mem_placed_iff {position : Nat} {a : α} :
    (position, a) ∈ placed key read l ↔ ∃ b ∈ l, key b = position ∧ read b = some a := by
  rw [placed, List.mem_filterMap]
  refine exists_congr fun b => and_congr_right fun _ => ?_
  rw [Option.map_eq_some_iff]
  constructor
  · rintro ⟨a', hread, heq⟩
    obtain ⟨rfl, rfl⟩ := Prod.mk.inj heq
    exact ⟨rfl, hread⟩
  · rintro ⟨rfl, hread⟩
    exact ⟨a, hread, rfl⟩

theorem map_snd_placed (key : β → Nat) (read : β → Option α) (l : List β) :
    (placed key read l).map Prod.snd = l.filterMap read := by
  rw [placed, List.map_filterMap]
  refine List.filterMap_congr fun b _ => ?_
  rw [Option.map_map]
  exact Option.map_id'

theorem pairwise_placed (h : l.Pairwise fun earlier later => key earlier < key later) :
    (placed key read l).Pairwise fun earlier later => earlier.1 < later.1 := by
  refine h.filterMap _ ?_
  rintro b b' hlt ⟨position, a⟩ hplaced ⟨position', a'⟩ hplaced'
  obtain ⟨_, -, heq⟩ := Option.map_eq_some_iff.1 hplaced
  obtain ⟨_, -, heq'⟩ := Option.map_eq_some_iff.1 hplaced'
  rw [← (Prod.mk.inj heq).1, ← (Prod.mk.inj heq').1]
  exact hlt

/-- What is read from elements whose places ascend. -/
theorem onePerPlace_filterMap {place : Nat → Prop} {stands : Nat → α → Prop}
    (hordered : l.Pairwise fun earlier later => key earlier < key later)
    (hplace : ∀ position, place position ↔ ∃ b ∈ l, key b = position ∧ ∃ a, read b = some a)
    (hstands : ∀ b ∈ l, ∀ a, read b = some a → stands (key b) a) :
    OnePerPlace place stands (l.filterMap read) := by
  refine ⟨(placed key read l).map Prod.fst, List.pairwise_map.2 (pairwise_placed hordered),
    fun position => ?_, ?_⟩
  · rw [hplace, List.mem_map]
    constructor
    · rintro ⟨⟨_, a⟩, hplaced, rfl⟩
      obtain ⟨b, hb, hkey, hread⟩ := mem_placed_iff.1 hplaced
      exact ⟨b, hb, hkey, a, hread⟩
    · rintro ⟨b, hb, hkey, a, hread⟩
      exact ⟨(position, a), mem_placed_iff.2 ⟨b, hb, hkey, hread⟩, rfl⟩
  · rw [← map_snd_placed key, List.forall₂_map_left_iff, List.forall₂_map_right_iff,
      List.forall₂_same]
    rintro ⟨position, a⟩ hplaced
    obtain ⟨b, hb, rfl, hread⟩ := mem_placed_iff.1 hplaced
    exact hstands b hb a hread

end

/-! ## First appearances -/

/-- The list names each value that stands somewhere, once, in the order of their first places. -/
structure FirstAppearances {α : Type} (stands : Nat → α → Prop) (l : List α) : Prop where
  mem_iff : ∀ a, a ∈ l ↔ ∃ position, stands position a
  nodup : l.Nodup
  ordered : l.Pairwise fun a b =>
    ∃ position, stands position a ∧ ∀ later, stands later b → position < later

/-- One more place, behind all others. -/
theorem FirstAppearances.concat {α : Type} [DecidableEq α] {places : List (Nat × α)} {l : List α}
    (h : FirstAppearances (fun p a => (p, a) ∈ places) l) (position : Nat) (a : α)
    (hlast : ∀ place ∈ places, place.1 < position) :
    FirstAppearances (fun p b => (p, b) ∈ places ++ [(position, a)])
      (if a ∈ l then l else l ++ [a]) := by
  have hstands (p : Nat) (b : α) :
      (p, b) ∈ places ++ [(position, a)] ↔ (p, b) ∈ places ∨ p = position ∧ b = a := by
    simp
  have hbefore {p : Nat} {b : α} (hp : (p, b) ∈ places) : p < position := hlast (p, b) hp
  have hordered : l.Pairwise fun b c => ∃ p, (p, b) ∈ places ++ [(position, a)] ∧
      ∀ later, (later, c) ∈ places ++ [(position, a)] → p < later := by
    refine h.ordered.imp ?_
    rintro b c ⟨p, hp, hlater⟩
    refine ⟨p, (hstands p b).2 (.inl hp), fun later hc => ?_⟩
    rcases (hstands later c).1 hc with hold | ⟨rfl, -⟩
    · exact hlater later hold
    · exact hbefore hp
  split
  · next hmem =>
    refine ⟨fun b => ?_, h.nodup, hordered⟩
    rw [h.mem_iff]
    constructor
    · rintro ⟨p, hp⟩
      exact ⟨p, (hstands p b).2 (.inl hp)⟩
    · rintro ⟨p, hp⟩
      rcases (hstands p b).1 hp with hold | ⟨-, rfl⟩
      · exact ⟨p, hold⟩
      · exact (h.mem_iff b).1 hmem
  · next hnew =>
    refine ⟨fun b => ?_, ?_, ?_⟩
    · rw [List.mem_append, List.mem_singleton, h.mem_iff]
      constructor
      · rintro (⟨p, hp⟩ | rfl)
        · exact ⟨p, (hstands p b).2 (.inl hp)⟩
        · exact ⟨position, (hstands position b).2 (.inr ⟨rfl, rfl⟩)⟩
      · rintro ⟨p, hp⟩
        rcases (hstands p b).1 hp with hold | ⟨-, rfl⟩
        · exact .inl ⟨p, hold⟩
        · exact .inr rfl
    · rw [List.nodup_append_comm, List.singleton_append, List.nodup_cons]
      exact ⟨hnew, h.nodup⟩
    · rw [List.pairwise_append]
      refine ⟨hordered, List.pairwise_singleton _ _, fun b hb c hc => ?_⟩
      obtain rfl := List.mem_singleton.1 hc
      obtain ⟨p, hp⟩ := (h.mem_iff b).1 hb
      refine ⟨p, (hstands p b).2 (.inl hp), fun later hc => ?_⟩
      rcases (hstands later c).1 hc with hold | ⟨rfl, -⟩
      · exact absurd ((h.mem_iff c).2 ⟨later, hold⟩) hnew
      · exact hbefore hp

/-- The distinct values of a list whose places ascend. -/
theorem firstAppearances_eraseDups {α : Type} [DecidableEq α] {places : List (Nat × α)}
    (h : places.Pairwise fun earlier later => earlier.1 < later.1) :
    FirstAppearances (fun p a => (p, a) ∈ places) (places.map Prod.snd).eraseDups := by
  induction places using List.reverseRecOn with
  | nil => exact ⟨by simp, List.nodup_nil, .nil⟩
  | append_singleton places place ih =>
    obtain ⟨position, a⟩ := place
    rw [List.pairwise_append] at h
    obtain ⟨hplaces, -, hlast⟩ := h
    have hconcat := (ih hplaces).concat position a fun earlier hearlier =>
      hlast earlier hearlier (position, a) (List.mem_singleton.2 rfl)
    rw [List.map_append, List.map_singleton, eraseDups_concat]
    simpa only [List.mem_eraseDups] using hconcat

/-! ## Members of a group -/

section

variable {α κ : Type} [BEq κ] [LawfulBEq κ] {key : α → κ}

theorem filter_eq_nil_of_not_mem_map {l : List α} {k : κ} (h : k ∉ l.map key) :
    l.filter (key · == k) = [] := by
  rw [List.filter_eq_nil_iff]
  intro a ha hk
  exact h (List.mem_map.2 ⟨a, ha, eq_of_beq hk⟩)

theorem filter_beq_concat_self (key : α → κ) (l : List α) (a : α) :
    (l ++ [a]).filter (key · == key a) = l.filter (key · == key a) ++ [a] := by
  simp

theorem filter_beq_concat_of_ne {a : α} {k : κ} (h : k ≠ key a) (l : List α) :
    (l ++ [a]).filter (key · == k) = l.filter (key · == k) := by
  simp [h.symm]

end

end TraceProfile
