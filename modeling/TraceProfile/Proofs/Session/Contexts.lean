import TraceProfile.Profile.Session
import TraceProfile.Proofs.Profile.Samples
import TraceProfile.Proofs.Reading.Attribution

/-!
# Contexts and what is known about their code

A context is there from the position at which it was received up to the end of the window in which
it was resolved. `Knows` says what is left of a list of contexts in a coverage, once ranges that end
at a position or before it may have been dropped: the range of each context that ends later, in
order, and each with the answers of its resolver. For contexts that follow one another this decides
what is shown for an address (`Knows.shown?_of_covers`, `Knows.shown?_of_not_covers`).
-/

namespace TraceProfile

/-- A context whose code has been resolved. -/
structure Context where
  /-- The position at which it was received. -/
  start : Nat
  /-- The window in which its code was found. -/
  window : Window
  /-- What its addresses mean. -/
  resolver : Jit.Resolver

namespace Context

/-- The context was there at a position. -/
def Covers (x : Context) (position : Nat) : Prop := x.start ≤ position ∧ position < x.window.stop

/-- The addresses that its resolver was asked for. -/
def addresses (x : Context) (tid : Int32) : List UInt64 := x.window.jitAddresses x.start tid

/-- What its resolver says about an address: one frame for each descriptor, or the address itself if
there is none. -/
def framesAt (x : Context) (address : UInt64) : List ShownFrame :=
  match x.resolver address with
  | [] => [.ofAddress address]
  | descriptors => descriptors.map Jit.Descriptor.shown

/-- The range covers the positions of the context and holds the answers of its resolver. -/
structure RangeOf (tid : Int32) (strings : List String) (x : Context) (range : Jit.Range) :
    Prop where
  start_eq : range.start = x.start
  stop_eq : range.stop = x.window.stop
  holds : range.Holds strings x.resolver (x.addresses tid)

/-- The window of the context showed the recording, and neither started nor ended after the given
bounds. -/
def Within (recording : Nat → Entry) (start stop : Nat) (x : Context) : Prop :=
  x.window.Shows recording ∧ x.window.start ≤ start ∧ x.window.stop ≤ stop

theorem Within.mono {recording : Nat → Entry} {start start' stop stop' : Nat} {x : Context}
    (h : x.Within recording start stop) (hstart : start ≤ start') (hstop : stop ≤ stop') :
    x.Within recording start' stop' :=
  ⟨h.1, Nat.le_trans h.2.1 hstart, Nat.le_trans h.2.2 hstop⟩

/-- The contexts follow one another: none ends before it starts, and none starts before the end of
an earlier one. -/
structure Ordered (contexts : List Context) : Prop where
  start_le : ∀ x ∈ contexts, x.start ≤ x.window.stop
  pairwise : contexts.Pairwise fun earlier later => earlier.window.stop ≤ later.start

theorem RangeOf.contains_iff {tid : Int32} {strings : List String} {x : Context} {range : Jit.Range}
    (h : RangeOf tid strings x range) {position : Nat} :
    range.contains position = true ↔ x.Covers position := by
  simp [Jit.Range.contains, Covers, h.start_eq, h.stop_eq]

theorem RangeOf.mono {tid : Int32} {strings strings' : List String} {x : Context}
    {range : Jit.Range} (h : RangeOf tid strings x range) (hs : strings <+: strings') :
    RangeOf tid strings' x range :=
  ⟨h.start_eq, h.stop_eq, h.holds.mono hs⟩

theorem Ordered.sublist {contexts kept : List Context} (h : Ordered contexts)
    (hkept : kept.Sublist contexts) : Ordered kept :=
  ⟨fun x hx => h.start_le x (hkept.subset hx), h.pairwise.sublist hkept⟩

/-- Of contexts that follow one another only one covers a position. -/
theorem Ordered.index_unique {contexts : List Context} (h : Ordered contexts) {i j : Nat}
    (hi : i < contexts.length) (hj : j < contexts.length) {position : Nat}
    (hci : contexts[i].Covers position) (hcj : contexts[j].Covers position) : i = j := by
  obtain ⟨hi1, hi2⟩ := hci
  obtain ⟨hj1, hj2⟩ := hcj
  have hpairwise := List.pairwise_iff_getElem.1 h.pairwise
  rcases Nat.lt_trichotomy i j with hlt | heq | hgt
  · have hle := hpairwise i j hi hj hlt
    omega
  · exact heq
  · have hle := hpairwise j i hj hi hgt
    omega

theorem Ordered.append {contexts : List Context} (h : Ordered contexts) {x : Context}
    (hx : x.start ≤ x.window.stop) (hall : ∀ y ∈ contexts, y.window.stop ≤ x.start) :
    Ordered (contexts ++ [x]) := by
  constructor
  · intro y hy
    rcases List.mem_append.1 hy with hy | hy
    · exact h.start_le y hy
    · rw [List.mem_singleton.1 hy]
      exact hx
  · rw [List.pairwise_append]
    refine ⟨h.pairwise, List.pairwise_singleton _ _, ?_⟩
    intro y hy z hz
    rw [List.mem_singleton.1 hz]
    exact hall y hy

/-- The last of contexts that follow one another ends last. -/
theorem Ordered.stop_le_getLast {contexts : List Context} (h : Ordered contexts)
    (hne : contexts ≠ []) {x : Context} (hx : x ∈ contexts) :
    x.window.stop ≤ (contexts.getLast hne).window.stop := by
  obtain ⟨i, hi, rfl⟩ := List.mem_iff_getElem.1 hx
  rw [List.getLast_eq_getElem]
  rcases Nat.eq_or_lt_of_le (Nat.le_sub_one_of_lt hi) with heq | hlt
  · simp [heq]
  · have hle := List.pairwise_iff_getElem.1 h.pairwise i (contexts.length - 1) hi (by omega) hlt
    have hstart := h.start_le contexts[contexts.length - 1] (List.getElem_mem _)
    omega

end Context

open Context

/-- What the coverage holds is what is known about those of the contexts that end after the
position, and maybe about others of them. The mark of its timeline is exact. -/
structure Knows (c : Jit.Coverage) (tid : Int32) (contexts : List Context) (position : Nat) :
    Prop where
  marked : c.timeline.Marked
  ranges : ∃ kept, kept.Sublist contexts ∧
    (∀ x ∈ contexts, position < x.window.stop → x ∈ kept) ∧
    List.Forall₂ (RangeOf tid c.strings.toList) kept c.timeline.ranges.toList

namespace Knows

variable {c : Jit.Coverage} {tid : Int32} {contexts : List Context} {position : Nat}

/-! ## Adding and dropping -/

theorem empty (h : ∀ x ∈ contexts, x.window.stop ≤ position) : Knows {} tid contexts position where
  marked := Jit.Timeline.marked_empty
  ranges := ⟨[], List.nil_sublist contexts,
    fun x hx hlt => absurd (h x hx) (Nat.not_le_of_lt hlt), .nil⟩

theorem later (h : Knows c tid contexts position) {later : Nat} (hle : position ≤ later) :
    Knows c tid contexts later := by
  obtain ⟨kept, hkept, hall, hranges⟩ := h.ranges
  refine ⟨h.marked, kept, hkept, ?_, hranges⟩
  intro x hx hlt
  exact hall x hx (Nat.lt_of_le_of_lt hle hlt)

/-- If the last range has ended, all contexts have. -/
theorem stop_le_of_hasExpired (h : Knows c tid contexts position) (ho : Ordered contexts)
    {later : Nat} (hle : position ≤ later) (hexpired : c.hasExpired later = true) :
    ∀ x ∈ contexts, x.window.stop ≤ later := by
  obtain ⟨kept, hkept, hall, hranges⟩ := h.ranges
  have hstop : ∀ x ∈ kept, x.window.stop ≤ later := by
    intro x hx
    -- The range added last is that of the last context, which ends last.
    have hne : kept ≠ [] := List.ne_nil_of_mem hx
    have hx_last := (ho.sublist hkept).stop_le_getLast hne hx
    have hlength : kept.length = c.timeline.ranges.size := hranges.length_eq
    have hlast : kept.length - 1 < kept.length := Nat.sub_one_lt_of_lt (List.length_pos_iff.2 hne)
    have hlast' : kept.length - 1 < c.timeline.ranges.size := hlength ▸ hlast
    have hrange : RangeOf tid c.strings.toList kept[kept.length - 1]
        c.timeline.ranges[kept.length - 1] := hranges.get hlast hlast'
    have hback : c.timeline.ranges.back? = some c.timeline.ranges[kept.length - 1] := by
      rw [Array.back?_eq_getElem?, ← hlength]
      exact Array.getElem?_eq_getElem hlast'
    rw [Jit.Coverage.hasExpired, Jit.Timeline.hasExpired, hback] at hexpired
    have hle' : c.timeline.ranges[kept.length - 1].stop ≤ later := of_decide_eq_true hexpired
    rw [hrange.stop_eq] at hle'
    rw [List.getLast_eq_getElem] at hx_last
    exact Nat.le_trans hx_last hle'
  intro x hx
  rcases Nat.lt_or_ge position x.window.stop with hlt | hge
  · exact hstop x (hall x hx hlt)
  · omega

theorem discard (h : Knows c tid contexts position) {later : Nat} (hle : position ≤ later) :
    Knows (c.discard later) tid contexts later := by
  refine ⟨Jit.Timeline.marked_discard c.timeline later, ?_⟩
  obtain ⟨kept, hkept, hall, hranges⟩ := h.ranges
  refine ⟨kept.filter fun x => later < x.window.stop, List.filter_sublist.trans hkept, ?_, ?_⟩
  · intro x hx hlt
    exact List.mem_filter.2 ⟨hall x hx (Nat.lt_of_le_of_lt hle hlt), decide_eq_true hlt⟩
  · exact Jit.Timeline.forall₂_discard (fun _ _ hrange => hrange.stop_eq) hranges later

/-- Dropping what has ended leaves what is known about the contexts that have not. -/
theorem kept {retained : Option Jit.Coverage} (h : Knows (retained.getD {}) tid contexts position)
    (ho : Ordered contexts) {later : Nat} (hle : position ≤ later) :
    Knows ((Session.kept retained later).getD {}) tid contexts later := by
  cases retained with
  | none =>
    refine empty ?_
    exact h.stop_le_of_hasExpired ho hle rfl
  | some c =>
    rw [Session.kept, Option.bind_some]
    split
    · next hexpired => exact empty (h.stop_le_of_hasExpired ho hle hexpired)
    · exact h.discard hle

/-- What is known about one more context is added at the end. -/
theorem addContext (h : Knows c tid contexts position) (start : Nat) (w : Window)
    (resolver : Jit.Resolver) :
    Knows (c.addContext start w tid resolver) tid (contexts ++ [⟨start, w, resolver⟩])
      position := by
  obtain ⟨hgrows, hnew⟩ :=
    Jit.Range.holds_resolve start w.stop resolver (w.jitAddresses start tid) c.strings
  refine ⟨h.marked.push _, ?_⟩
  obtain ⟨kept, hkept, hall, hranges⟩ := h.ranges
  refine ⟨kept ++ [⟨start, w, resolver⟩], hkept.append_right _, ?_, ?_⟩
  · intro x hx hlt
    rcases List.mem_append.1 hx with hx | hx
    · exact List.mem_append_left _ (hall x hx hlt)
    · exact List.mem_append_right _ hx
  · rw [Jit.Coverage.addContext, Jit.Coverage.ranges_add]
    refine List.rel_append ?_ (.cons ⟨rfl, rfl, hnew⟩ .nil)
    exact hranges.imp fun x range hrange => hrange.mono hgrows

theorem valid (h : Knows c tid contexts position) : c.Valid := by
  obtain ⟨kept, -, -, hranges⟩ := h.ranges
  intro range hrange
  obtain ⟨i, hi, rfl⟩ := List.mem_iff_getElem.1 hrange
  have hholds := (hranges.get (hranges.length_eq ▸ hi) hi).holds
  exact ⟨_, _, hholds⟩

/-! ## What is shown for an address -/

theorem start_le_stop (h : Knows c tid contexts position) (ho : Ordered contexts) :
    ∀ range ∈ c.timeline.ranges.toList, range.start ≤ range.stop := by
  obtain ⟨kept, hkept, -, hranges⟩ := h.ranges
  intro range hmem
  obtain ⟨i, hi, rfl⟩ := List.mem_iff_getElem.1 hmem
  have hi' : i < kept.length := hranges.length_eq ▸ hi
  have hrange : RangeOf tid c.strings.toList kept[i] c.timeline.ranges.toList[i] :=
    hranges.get hi' hi
  have hle := (ho.sublist hkept).start_le kept[i] (List.getElem_mem hi')
  rw [hrange.start_eq, hrange.stop_eq]
  exact hle

/-- If some context covers the position, its range is the one that is looked up. -/
theorem lookup?_of_covers (h : Knows c tid contexts position) (ho : Ordered contexts) {x : Context}
    (hx : x ∈ contexts) {p : Nat} (hcovers : x.Covers p) (hp : position ≤ p) (address : UInt64) :
    ∃ index range, c.timeline.ranges[index]? = some range ∧
      RangeOf tid c.strings.toList x range ∧
      c.lookup? address p = (range.frames? address).map fun frames => (index, frames) := by
  have hbounds := h.start_le_stop ho
  obtain ⟨kept, hkept, hall, hranges⟩ := h.ranges
  have hlength : kept.length = c.timeline.ranges.size := hranges.length_eq
  have hget (j : Nat) (hj : j < kept.length) :
      RangeOf tid c.strings.toList kept[j] c.timeline.ranges[j] :=
    hranges.get hj (hranges.length_eq ▸ hj)
  have hx_kept : x ∈ kept := hall x hx (Nat.lt_of_le_of_lt hp hcovers.2)
  obtain ⟨i, hi, rfl⟩ := List.mem_iff_getElem.1 hx_kept
  have hrange : c.timeline.ranges[i]? = some c.timeline.ranges[i] := Array.getElem?_eq_getElem _
  have hframes : c.timeline.framesIn? address p i =
      (c.timeline.ranges[i].frames? address).map fun frames => (i, frames) := by
    have hcontains : c.timeline.ranges[i].contains p = true := (hget i hi).contains_iff.2 hcovers
    rw [Jit.Timeline.framesIn?, hrange]
    simp only [hcontains]
    rfl
  refine ⟨i, c.timeline.ranges[i], hrange, hget i hi, ?_⟩
  rw [← hframes]
  rcases hlookup : c.lookup? address p with _ | found
  · -- Nothing was found in any range, so nothing is found in this one.
    rw [Jit.Coverage.lookup?, Jit.Timeline.lookup?_eq_findSome? h.marked hbounds,
      List.findSome?_eq_none_iff] at hlookup
    exact (hlookup i (List.mem_range.2 (hlength ▸ hi))).symm
  · -- The range in which something was found covers the position, so it is this one.
    have hfound := Jit.Timeline.framesIn?_of_lookup? hlookup
    obtain ⟨-, range, hj, hcontains, -⟩ := Jit.Timeline.framesIn?_eq_some_iff.1 hfound
    obtain ⟨hj', rfl⟩ := Array.getElem?_eq_some_iff.1 hj
    have hj_kept : found.1 < kept.length := hlength ▸ hj'
    have hcovers' := (hget found.1 hj_kept).contains_iff.1 hcontains
    rw [(ho.sublist hkept).index_unique hi hj_kept hcovers hcovers']
    exact hfound.symm

/-- If no context covers the position, nothing is found. -/
theorem lookup?_of_not_covers (h : Knows c tid contexts position) {p : Nat}
    (hnone : ∀ x ∈ contexts, ¬ x.Covers p) (address : UInt64) : c.lookup? address p = none := by
  obtain ⟨kept, hkept, -, hranges⟩ := h.ranges
  have hlength : kept.length = c.timeline.ranges.size := hranges.length_eq
  rcases hlookup : c.lookup? address p with _ | found
  · rfl
  · obtain ⟨-, range, hj, hcontains, -⟩ :=
      Jit.Timeline.framesIn?_eq_some_iff.1 (Jit.Timeline.framesIn?_of_lookup? hlookup)
    obtain ⟨hj', rfl⟩ := Array.getElem?_eq_some_iff.1 hj
    have hj_kept : found.1 < kept.length := hlength ▸ hj'
    have hrange : RangeOf tid c.strings.toList kept[found.1] c.timeline.ranges[found.1] :=
      hranges.get hj_kept hj'
    have hcovers := hrange.contains_iff.1 hcontains
    exact absurd hcovers (hnone kept[found.1] (hkept.subset (List.getElem_mem hj_kept)))

end Knows

/-- The rows of a context whose resolver is coherent show what the resolver says. -/
theorem Context.RangeOf.mapM_rows {tid : Int32} {strings : List String} {x : Context}
    {range : Jit.Range} (h : RangeOf tid strings x range) (hcoherent : x.resolver.Coherent)
    {address : UInt64} (haddress : address ∈ x.addresses tid) :
    ((Jit.Descriptor.framesOf (x.resolver address)).map Prod.fst).mapM
        (fun frame => (range.row? frame).bind (·.shown? strings)) =
      some ((x.resolver address).map Jit.Descriptor.shown) := by
  have hdescriptors : (x.resolver address).map Jit.Descriptor.shown =
      (Jit.Descriptor.framesOf (x.resolver address)).map fun frame => frame.2.shown := by
    apply List.ext_getElem <;> simp [Jit.Descriptor.framesOf]
  rw [mapM_eq_some_iff, hdescriptors, List.map_map, List.map_map]
  apply List.map_congr_left
  intro frame hframe
  obtain ⟨row, hrow, hshown⟩ := h.holds.row?_of_coherent hcoherent haddress hframe
  show (range.row? frame.1).bind _ = some frame.2.shown
  rw [hrow]
  exact hshown

/-- What is shown for an address at a position that some context covers: what its resolver says, if
it was asked for the address. -/
theorem Knows.shown?_of_covers {c : Jit.Coverage} {tid : Int32} {contexts : List Context}
    {position : Nat} (h : Knows c tid contexts position) (ho : Ordered contexts) {x : Context}
    (hx : x ∈ contexts) (hcoherent : x.resolver.Coherent) {p : Nat} (hcovers : x.Covers p)
    (hp : position ≤ p) (address : UInt64) :
    (address ∈ x.addresses tid →
        (RecordedFrame.compiled p address).shown? c = some (x.framesAt address)) ∧
      (address ∉ x.addresses tid →
        (RecordedFrame.compiled p address).shown? c = some [.ofAddress address]) := by
  obtain ⟨index, range, hrange, hrangeOf, hlookup⟩ := h.lookup?_of_covers ho hx hcovers hp address
  rw [hrangeOf.holds.frames?_eq] at hlookup
  constructor
  · intro hasked
    rcases hresolved : x.resolver address with _ | ⟨d, descriptors⟩
    · rw [if_neg (by simp [hresolved])] at hlookup
      rw [framesAt, hresolved]
      exact RecordedFrame.shown?_of_lookup?_eq_none hlookup
    · rw [if_pos ⟨hasked, by simp [hresolved]⟩] at hlookup
      rw [RecordedFrame.shown?_of_lookup?_eq_some h.valid hlookup]
      have hrow (frame : CodeFrame) : c.timeline.row? frame index = range.row? frame := by
        rw [Jit.Timeline.row?, hrange]
        rfl
      simp only [hrow]
      rw [hrangeOf.mapM_rows hcoherent hasked, framesAt, hresolved]
  · intro hnot
    rw [if_neg (by simp [hnot])] at hlookup
    exact RecordedFrame.shown?_of_lookup?_eq_none hlookup

/-- At a position that no context covers the address itself is shown. -/
theorem Knows.shown?_of_not_covers {c : Jit.Coverage} {tid : Int32} {contexts : List Context}
    {position : Nat} (h : Knows c tid contexts position) {p : Nat}
    (hnone : ∀ x ∈ contexts, ¬ x.Covers p) (address : UInt64) :
    (RecordedFrame.compiled p address).shown? c = some [.ofAddress address] :=
  RecordedFrame.shown?_of_lookup?_eq_none (h.lookup?_of_not_covers hnone address)

end TraceProfile
