import TraceProfile.Proofs.Profile.Sharing

/-!
# Which range answers

A coverage is built by adding ranges and by dropping those that have ended. No range ends before it
starts; beyond that they may be empty, leave gaps, come in any order and overlap. Every step keeps
the mark exact and the ranges ordered (`Coverage.Sound.change`), so the bisection that is used while
the mark is not set finds what trying the ranges in turn finds: the first range that covers the
position and knows the address (`FirstAnswer`). The tables of a thread take the ranges over and
never change them, so they answer in the same way.

Which ranges these are can be told from the steps alone: what was added is there, in order, unless a
later step dropped it (`Coverage.madeOf_build`).
-/

namespace TraceProfile.Jit

/-! ## The first range that knows -/

/-- The first of the ranges that covers the position and knows the address, with the frames that it
knows; nothing if there is no such range. -/
def FirstAnswer (ranges : List Range) (address : UInt64) (position : Nat) :
    Option (Nat × List CodeFrame) → Prop
  | some (index, frames) =>
    (∃ range, ranges[index]? = some range ∧ range.contains position = true ∧
        range.frames? address = some frames) ∧
      ∀ earlier < index, ∀ range, ranges[earlier]? = some range → range.contains position = true →
        range.frames? address = none
  | none => ∀ range ∈ ranges, range.contains position = true → range.frames? address = none

variable {ranges : List Range} {address : UInt64} {position : Nat}

/-- No range before a first one is a first one. -/
theorem FirstAnswer.not_lt {index index' : Nat} {frames frames' : List CodeFrame}
    (h : FirstAnswer ranges address position (some (index, frames)))
    (h' : FirstAnswer ranges address position (some (index', frames'))) : ¬index < index' := by
  intro hlt
  obtain ⟨⟨range, hrange, hcontains, hframes⟩, -⟩ := h
  have hnone := h'.2 index hlt range hrange hcontains
  rw [hnone] at hframes
  exact absurd hframes (by simp)

/-- Where a range knows, it cannot be that none does. -/
theorem FirstAnswer.not_none {found : Nat × List CodeFrame}
    (h : FirstAnswer ranges address position (some found)) :
    ¬FirstAnswer ranges address position none := by
  intro hnone
  obtain ⟨⟨range, hrange, hcontains, hframes⟩, -⟩ := h
  have hnever := hnone range (List.mem_of_getElem? hrange) hcontains
  rw [hnever] at hframes
  exact absurd hframes (by simp)

/-- There is one first answer. -/
theorem FirstAnswer.eq {answer answer' : Option (Nat × List CodeFrame)}
    (h : FirstAnswer ranges address position answer)
    (h' : FirstAnswer ranges address position answer') : answer = answer' := by
  rcases answer with _ | ⟨index, frames⟩ <;> rcases answer' with _ | ⟨index', frames'⟩
  · rfl
  · exact absurd h h'.not_none
  · exact absurd h' h.not_none
  · obtain rfl : index = index' := Nat.le_antisymm (Nat.le_of_not_lt (h'.not_lt h))
      (Nat.le_of_not_lt (h.not_lt h'))
    obtain ⟨⟨range, hrange, -, hframes⟩, -⟩ := h
    obtain ⟨⟨range', hrange', -, hframes'⟩, -⟩ := h'
    obtain rfl : range = range' := Option.some.inj (hrange.symm.trans hrange')
    rw [Option.some.inj (hframes.symm.trans hframes')]

namespace Timeline

/-- A range that covers the position and does not answer does not know the address. -/
theorem frames?_of_framesIn?_eq_none {t : Timeline} {index : Nat} {range : Range}
    (h : t.framesIn? address position index = none) (hrange : t.ranges.toList[index]? = some range)
    (hcontains : range.contains position = true) : range.frames? address = none := by
  rw [Array.getElem?_toList] at hrange
  rcases hframes : range.frames? address with _ | frames
  · rfl
  · have hfound : t.framesIn? address position index = some (index, frames) :=
      framesIn?_eq_some_iff.2 ⟨rfl, range, hrange, hcontains, hframes⟩
    rw [h] at hfound
    exact absurd hfound (by simp)

/-- Trying the ranges in turn gives the first answer. -/
theorem firstAnswer_findSome? (t : Timeline) (address : UInt64) (position : Nat) :
    FirstAnswer t.ranges.toList address position
      ((List.range t.ranges.size).findSome? (t.framesIn? address position)) := by
  rcases hfind : (List.range t.ranges.size).findSome? (t.framesIn? address position) with
    _ | ⟨index, frames⟩
  · rw [List.findSome?_eq_none_iff] at hfind
    intro range hmem hcontains
    obtain ⟨index, hindex, rfl⟩ := List.getElem_of_mem hmem
    have hnone := hfind index (List.mem_range.2 hindex)
    exact frames?_of_framesIn?_eq_none hnone (List.getElem?_eq_getElem hindex) hcontains
  · obtain ⟨tried, index', rest, hrange, hfound, htried⟩ := List.findSome?_eq_some_iff.1 hfind
    obtain ⟨rfl, range, hget, hcontains, hframes⟩ := framesIn?_eq_some_iff.1 hfound
    rw [← Array.getElem?_toList] at hget
    refine ⟨⟨range, hget, hcontains, hframes⟩, ?_⟩
    intro earlier hlt range' hget' hcontains'
    -- The indices ascend, so those before the one that answers were tried.
    have hascend := List.pairwise_lt_range (n := t.ranges.size)
    rw [hrange, List.pairwise_append, List.pairwise_cons] at hascend
    have hmem : earlier ∈ List.range t.ranges.size :=
      List.mem_range.2 (List.getElem?_eq_some_iff.1 hget').1
    rw [hrange, List.mem_append, List.mem_cons] at hmem
    rcases hmem with hbefore | rfl | hafter
    · exact frames?_of_framesIn?_eq_none (htried earlier hbefore) hget' hcontains'
    · exact absurd hlt (Nat.lt_irrefl _)
    · exact absurd (hascend.2.1.1 earlier hafter) (Nat.lt_asymm hlt)

/-- An exact mark is set exactly if some range starts before the end of an earlier one. -/
theorem Marked.overlapping_iff {t : Timeline} (h : t.Marked) :
    t.overlapping = true ↔
      ∃ (i j : Nat) (earlier later : Range), i < j ∧ t.ranges[i]? = some earlier ∧
        t.ranges[j]? = some later ∧ later.start < earlier.stop := by
  have hiff := not_congr h.consecutive_iff
  rw [Bool.not_eq_false] at hiff
  rw [hiff, Consecutive, List.pairwise_iff_getElem]
  constructor
  · intro hnot
    simp only [not_forall, Nat.not_le] at hnot
    obtain ⟨i, j, hi, hj, hij, hlt⟩ := hnot
    exact ⟨i, j, _, _, hij, Array.getElem?_eq_getElem hi, Array.getElem?_eq_getElem hj, hlt⟩
  · rintro ⟨i, j, earlier, later, hij, hearlier, hlater, hlt⟩ hall
    obtain ⟨hi, rfl⟩ := Array.getElem?_eq_some_iff.1 hearlier
    obtain ⟨hj, rfl⟩ := Array.getElem?_eq_some_iff.1 hlater
    exact absurd hlt (Nat.not_lt_of_le (hall i j hi hj hij))

end Timeline

/-! ## Coverages as they are built -/

namespace Coverage

/-- A step in building a coverage. -/
inductive Change where
  /-- What a resolver knows about addresses is added. -/
  | add (start stop : Nat) (start_le_stop : start ≤ stop) (resolver : Resolver)
      (addresses : List UInt64)
  /-- What has ended at a position is dropped. -/
  | discard (position : Nat)
  /-- A copy is made, and used from there on. -/
  | copy

/-- The coverage after a step. -/
def change (c : Coverage) : Change → Coverage
  | .add start stop _ resolver addresses => c.add start stop resolver addresses
  | .discard position => c.discard position
  | .copy => c.deepCopy

/-- The coverage that is built by steps, in order. -/
def build (changes : List Change) : Coverage := changes.foldl change {}

theorem build_concat (changes : List Change) (change : Change) :
    build (changes ++ [change]) = (build changes).change change :=
  List.foldl_concat _ _ _ _

/-- What the search relies on. -/
structure Sound (c : Coverage) : Prop where
  marked : c.timeline.Marked
  start_le_stop : ∀ range ∈ c.timeline.ranges.toList, range.start ≤ range.stop
  reached : c.Reached

theorem sound_empty : Sound {} where
  marked := Timeline.marked_empty
  start_le_stop := fun _ hrange => absurd hrange List.not_mem_nil
  reached := .empty

theorem Sound.change {c : Coverage} (h : c.Sound) (change : Change) : (c.change change).Sound := by
  cases change with
  | add start stop hle resolver addresses =>
    refine ⟨h.marked.push _, ?_, h.reached.add start stop resolver addresses⟩
    intro range hrange
    rw [Coverage.change, ranges_add, List.mem_append, List.mem_singleton] at hrange
    rcases hrange with hold | rfl
    · exact h.start_le_stop range hold
    · exact hle
  | discard position =>
    refine ⟨Timeline.marked_discard c.timeline position, ?_, h.reached.discard position⟩
    intro range hrange
    exact h.start_le_stop range (Timeline.mem_discard.1 hrange).1
  | copy =>
    rw [Coverage.change, deepCopy_eq]
    exact h

theorem sound_build (changes : List Change) : (build changes).Sound := by
  have hfold : ∀ c : Coverage, c.Sound → (changes.foldl Coverage.change c).Sound := by
    induction changes with
    | nil => exact fun c hc => hc
    | cons change changes ih => exact fun c hc => ih (c.change change) (hc.change change)
  exact hfold {} sound_empty

theorem Sound.lookup?_eq_iff {c : Coverage} (h : c.Sound) {address : UInt64} {position : Nat}
    {answer : Option (Nat × List CodeFrame)} :
    c.lookup? address position = answer ↔
      FirstAnswer c.timeline.ranges.toList address position answer := by
  have hfirst := Timeline.firstAnswer_findSome? c.timeline address position
  rw [← Timeline.lookup?_eq_findSome? h.marked h.start_le_stop] at hfirst
  constructor
  · rintro rfl
    exact hfirst
  · exact fun hanswer => hfirst.eq hanswer

/-! ## The ranges of a coverage as it is built -/

/-- What a step adds: the bounds of a range, and the questions and answers that it is made from. -/
structure Addition where
  /-- The first position. -/
  start : Nat
  /-- The position after the last. -/
  stop : Nat
  /-- The resolver that is asked. -/
  resolver : Resolver
  /-- The addresses that it is asked for. -/
  addresses : List UInt64

/-- The range has the bounds that were given when it was added, and holds the answers. -/
structure Addition.Makes (a : Addition) (strings : List String) (range : Range) : Prop extends
    range.Holds strings a.resolver a.addresses where
  start_eq : range.start = a.start
  stop_eq : range.stop = a.stop

theorem Addition.Makes.mono {a : Addition} {strings strings' : List String} {range : Range}
    (h : a.Makes strings range) (hs : strings <+: strings') : a.Makes strings' range :=
  { h with toHolds := h.toHolds.mono hs }

/-- Whether a range that ends at a position outlasts a step. -/
def Change.keeps (stop : Nat) : Change → Bool
  | .discard position => position < stop
  | _ => true

/-- What steps add, in order, without what a later one of them drops. -/
def additions : List Change → List Addition
  | [] => []
  | .add start stop _ resolver addresses :: later =>
    if later.all (Change.keeps stop) then ⟨start, stop, resolver, addresses⟩ :: additions later
    else additions later
  | .discard _ :: later => additions later
  | .copy :: later => additions later

theorem additions_append (changes later : List Change) :
    additions (changes ++ later) =
      (additions changes).filter (fun a => later.all (Change.keeps a.stop)) ++
        additions later := by
  induction changes with
  | nil => rfl
  | cons change changes ih =>
    cases change with
    | add start stop hle resolver addresses =>
      simp only [List.cons_append, additions, List.all_append, ih]
      by_cases hkept : changes.all (Change.keeps stop) = true
      · by_cases hlater : later.all (Change.keeps stop) = true <;> simp [hkept, hlater]
      · simp [hkept]
    | discard position => exact ih
    | copy => exact ih

/-- The ranges are those that were added, in this order. -/
def MadeOf (c : Coverage) (made : List Addition) : Prop :=
  List.Forall₂ (fun a range => a.Makes c.strings.toList range) made c.timeline.ranges.toList

theorem MadeOf.change {c : Coverage} {made : List Addition} (h : c.MadeOf made) (change : Change) :
    (c.change change).MadeOf
      (made.filter (fun a => change.keeps a.stop) ++ additions [change]) := by
  cases change with
  | add start stop hle resolver addresses =>
    obtain ⟨hgrows, hnew⟩ := Range.holds_resolve start stop resolver addresses c.strings
    have hkept : made.filter (fun a => (Change.add start stop hle resolver addresses).keeps a.stop)
        = made := List.filter_eq_self.2 fun _ _ => rfl
    rw [MadeOf, Coverage.change, ranges_add, hkept]
    exact List.rel_append (h.imp fun _ _ hold => hold.mono hgrows)
      (.cons { toHolds := hnew, start_eq := rfl, stop_eq := rfl } .nil)
  | discard position =>
    simp only [additions, List.append_nil]
    exact Timeline.forall₂_discard (fun _ _ hrange => hrange.stop_eq) h position
  | copy =>
    have hkept : made.filter (fun a => Change.copy.keeps a.stop) = made :=
      List.filter_eq_self.2 fun _ _ => rfl
    rw [Coverage.change, deepCopy_eq, hkept]
    simpa [additions] using h

theorem madeOf_build (changes : List Change) : (build changes).MadeOf (additions changes) := by
  -- From the end, since a step can only drop what was added before it.
  induction changes using List.reverseRecOn with
  | nil => exact .nil
  | append_singleton changes change ih =>
    have hstep := ih.change change
    rw [build_concat, additions_append]
    simpa using hstep

/-- However a coverage is built: its ranges are those that were added and not dropped afterwards, in
this order, each with the bounds and the answers that it was added with. Its mark is set exactly if
some range starts before the end of a range that was added before it, and what is looked up is the
first answer of its ranges. Tables that take the coverage over give the same answer, the frames
tagged with the range, whatever has been asked of them. -/
theorem firstAnswer_build (changes : List Change) :
    (build changes).MadeOf (additions changes) ∧
      ((build changes).timeline.overlapping = true ↔
        ∃ (i j : Nat) (earlier later : Range), i < j ∧
          (build changes).timeline.ranges[i]? = some earlier ∧
          (build changes).timeline.ranges[j]? = some later ∧ later.start < earlier.stop) ∧
      ∀ (address : UInt64) (position : Nat),
        (∀ answer, (build changes).lookup? address position = answer ↔
            FirstAnswer (build changes).timeline.ranges.toList address position answer) ∧
          ∀ requests, ∃ answer,
            FirstAnswer (build changes).timeline.ranges.toList address position answer ∧
              (Ledger.run { tables := .ofCoverage (build changes) } requests).tables.timeline.keys?
                  address position =
                answer.map fun found => found.2.map fun frame => FrameKey.jit frame found.1 := by
  have hsound := sound_build changes
  refine ⟨madeOf_build changes, hsound.marked.overlapping_iff, ?_⟩
  intro address position
  refine ⟨fun answer => hsound.lookup?_eq_iff, ?_⟩
  intro requests
  refine ⟨(build changes).lookup? address position, hsound.lookup?_eq_iff.1 rfl, ?_⟩
  obtain ⟨-, hgrows⟩ := (Ledger.consistent_ofCoverage hsound.reached).run requests
  have htimeline : (Ledger.run { tables := .ofCoverage (build changes) } requests).tables.timeline =
      (build changes).timeline := hgrows.timeline
  rw [htimeline, Timeline.keys?, lookup?]

/-- Of five ranges two are dropped, one by a step after the copy. An empty one is left in front and
answers nothing; the next starts before it and holds the last one, which knows the address too. -/
theorem firstAnswer_build_nested :
    let resolver : Resolver := fun address =>
      if address = 99 then [] else [{ canonical := address, label := "loop" }]
    let changes : List Change :=
      [.add 0 4 (by decide) resolver [16], .add 20 20 (by decide) resolver [32],
        .add 0 10 (by decide) resolver [16, 99], .discard 4,
        .add 5 40 (by decide) resolver [32, 99, 32], .copy, .discard 10,
        .add 30 35 (by decide) resolver [16, 32]]
    (additions changes).map (fun a => (a.start, a.stop)) = [(20, 20), (5, 40), (30, 35)] ∧
      (build changes).MadeOf (additions changes) ∧
      (build changes).timeline.overlapping = true ∧
      FirstAnswer (build changes).timeline.ranges.toList 32 31 (some (1, [⟨32, 0⟩])) ∧
      FirstAnswer (build changes).timeline.ranges.toList 99 31 none ∧
      (Ledger.run { tables := .ofCoverage (build changes) }
        [.root (.ofLabel "main")]).tables.timeline.keys? 32 31 = some [.jit ⟨32, 0⟩ 1] := by
  intro resolver changes
  obtain ⟨hmade, -, hanswers⟩ := firstAnswer_build changes
  have hknown := ((hanswers 32 31).1 (some (1, [⟨32, 0⟩]))).1 (by decide +kernel)
  have hunknown := ((hanswers 99 31).1 none).1 (by decide +kernel)
  obtain ⟨answer, hanswer, hkeys⟩ := (hanswers 32 31).2 [.root (.ofLabel "main")]
  obtain rfl := hanswer.eq hknown
  exact ⟨by decide +kernel, hmade, by decide +kernel, hknown, hunknown, hkeys⟩

end Coverage

end TraceProfile.Jit
