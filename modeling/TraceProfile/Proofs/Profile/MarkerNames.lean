import TraceProfile.Proofs.Profile.Deduplication
import TraceProfile.Proofs.Profile.SinceTime
import TraceProfile.Proofs.Reading.Ownership

/-!
# Which markers are shown, and where their names go

A marker is shown for a reference that stands in the window (`Marker.StandsAt`): the closest thread
entry before names the thread, the store knows the reference, and the marker itself happened at a
time that is shown. There is one row for each such reference, in the order of the buffer.

The names go into the string table that the frames of the samples are in already. What has an index
keeps it; behind come the names that are new, each once, in the order in which they are first used.
A marker that is not shown leaves no trace in the table.
-/

namespace TraceProfile

/-- A reference to the marker stands at the position, where it belongs to the thread, and the marker
is shown. -/
structure Marker.StandsAt (marker : Marker) (w : Window) (tid : Int32) (store : MarkerStore)
    (settings : Settings) (position : Nat) : Prop where
  known : ∃ ref, w.get? position = some (.marker ref) ∧ store ref = some marker
  belongs : w.Belongs tid position
  shown : settings.includes marker.time = true

/-! ## References -/

/-- The marker that the slot refers to, if it is known and shown. -/
def Slot.shownMarker? (store : MarkerStore) (settings : Settings) (slot : Slot) : Option Marker :=
  (slot.entry.marker?.bind store).filter fun marker => settings.includes marker.time

theorem Slot.shownMarker?_eq_some_iff {store : MarkerStore} {settings : Settings} {slot : Slot}
    {marker : Marker} :
    slot.shownMarker? store settings = some marker ↔
      (∃ ref, slot.entry = .marker ref ∧ store ref = some marker) ∧
        settings.includes marker.time = true := by
  obtain ⟨position, entry⟩ := slot
  cases entry <;> simp [shownMarker?, Entry.marker?, Option.filter_eq_some_iff]

namespace ThreadProfile

variable {tid : Int32} {w : Window} {store : MarkerStore} {settings : Settings}

/-- The slots of the thread that refer to markers that are shown are where these stand. -/
theorem exists_own_iff {position : Nat} {marker : Marker} :
    (∃ slot ∈ w.own tid, slot.position = position ∧
        slot.shownMarker? store settings = some marker) ↔
      marker.StandsAt w tid store settings position := by
  constructor
  · rintro ⟨⟨_, _⟩, hown, rfl, hslot⟩
    obtain ⟨hget, hbelongs⟩ := Window.mem_own_iff.1 hown
    obtain ⟨⟨ref, rfl, hknown⟩, hshown⟩ := Slot.shownMarker?_eq_some_iff.1 hslot
    exact ⟨⟨ref, hget, hknown⟩, hbelongs, hshown⟩
  · rintro ⟨⟨ref, hget, hknown⟩, hbelongs, hshown⟩
    exact ⟨⟨position, .marker ref⟩, Window.mem_own_iff.2 ⟨hget, hbelongs⟩, rfl,
      Slot.shownMarker?_eq_some_iff.2 ⟨⟨ref, rfl, hknown⟩, hshown⟩⟩

theorem shownMarkers_eq_own (tid : Int32) (w : Window) (store : MarkerStore)
    (settings : Settings) :
    shownMarkers tid w store settings =
      (w.own tid).filterMap (Slot.shownMarker? store settings) := by
  rw [shownMarkers, Window.markers, Window.markerUses_eq_own, List.filterMap_filterMap,
    List.filter_filterMap]
  refine List.filterMap_congr fun slot _ => ?_
  rw [Slot.shownMarker?]
  cases slot.entry.marker? <;> rfl

theorem onePerPlace_shownMarkers (tid : Int32) (w : Window) (store : MarkerStore)
    (settings : Settings) :
    OnePerPlace (fun position => ∃ marker : Marker, marker.StandsAt w tid store settings position)
      (fun position marker => marker.StandsAt w tid store settings position)
      (shownMarkers tid w store settings) := by
  rw [shownMarkers_eq_own]
  refine onePerPlace_filterMap (w.pairwise_own tid) (fun position => ?_) ?_
  · simp only [← exists_own_iff]
    constructor
    · rintro ⟨marker, slot, hown, hposition, hslot⟩
      exact ⟨slot, hown, hposition, marker, hslot⟩
    · rintro ⟨slot, hown, hposition, marker, hslot⟩
      exact ⟨marker, slot, hown, hposition, hslot⟩
  · intro slot hown marker hslot
    exact exists_own_iff.1 ⟨slot, hown, rfl, hslot⟩

/-! ## Names -/

/-- The names that are not yet in the table, where they are used. -/
def newNames (tid : Int32) (w : Window) (store : MarkerStore) (settings : Settings)
    (strings : List String) : List (Nat × String) :=
  placed Slot.position (fun slot => ((slot.shownMarker? store settings).map Marker.name).filter
    (· ∉ strings)) (w.own tid)

theorem mem_newNames_iff {strings : List String} {position : Nat} {name : String} :
    (position, name) ∈ newNames tid w store settings strings ↔
      name ∉ strings ∧ ∃ marker : Marker, marker.StandsAt w tid store settings position ∧
        marker.name = name := by
  simp only [newNames, mem_placed_iff, Option.filter_eq_some_iff, Option.map_eq_some_iff,
    decide_eq_true_eq, ← exists_own_iff]
  constructor
  · rintro ⟨slot, hown, hposition, ⟨marker, hslot, hname⟩, hnew⟩
    exact ⟨hnew, marker, ⟨slot, hown, hposition, hslot⟩, hname⟩
  · rintro ⟨hnew, marker, ⟨slot, hown, hposition, hslot⟩, hname⟩
    exact ⟨slot, hown, hposition, ⟨marker, hslot, hname⟩, hnew⟩

theorem map_snd_newNames (tid : Int32) (w : Window) (store : MarkerStore) (settings : Settings)
    (strings : List String) :
    (newNames tid w store settings strings).map Prod.snd =
      ((shownMarkers tid w store settings).map Marker.name).removeAll strings := by
  rw [newNames, map_snd_placed, shownMarkers_eq_own, List.removeAll, List.map_filterMap,
    List.filter_filterMap]
  refine List.filterMap_congr fun slot _ => ?_
  congr 1
  funext name
  rw [List.elem_eq_mem, decide_not]

/-- The string table with the names of the markers is the earlier one, and the new names behind. -/
theorem toList_markerRows (tid : Int32) (w : Window) (store : MarkerStore) (strings : StringTable)
    (settings : Settings) :
    (markerRows tid w store strings settings).2.toList =
      strings.toList ++
        ((newNames tid w store settings strings.toList).map Prod.snd).eraseDups := by
  have hnodup := eraseDups_eq_self strings.nodup_toList
  have hnames := (MarkerRow.ofMarkers_eq hnodup.symm (shownMarkers tid w store settings)).1
  rw [markerRows, hnames, List.eraseDups_append, hnodup, map_snd_newNames]

/-- There is one row for each reference to a marker of the thread that is known and shown. Read in
the new string table, the row shows that marker. The new table is the earlier one with the new names
behind it, once each, in the order in which they are first used. -/
theorem onePerPlace_markerRows (tid : Int32) (w : Window) (store : MarkerStore)
    (strings : StringTable) (settings : Settings) :
    OnePerPlace (fun position => ∃ marker : Marker, marker.StandsAt w tid store settings position)
        (fun position row => ∃ marker : Marker, marker.StandsAt w tid store settings position ∧
          row.marker? (markerRows tid w store strings settings).2.toList = some marker)
        (markerRows tid w store strings settings).1 ∧
      strings.GrowsTo (markerRows tid w store strings settings).2 ∧
      ∃ more, (markerRows tid w store strings settings).2.toList = strings.toList ++ more ∧
        FirstAppearances (fun position name => name ∉ strings.toList ∧
          ∃ marker : Marker, marker.StandsAt w tid store settings position ∧ marker.name = name)
          more := by
  have hrows := (MarkerRow.forall₂_marker? strings (shownMarkers tid w store settings)).imp
    fun _ _ h => h.1
  -- The new names appear in the order of their places, and these ascend with the slots.
  have hordered : (newNames tid w store settings strings.toList).Pairwise fun earlier later =>
      earlier.1 < later.1 := pairwise_placed (w.pairwise_own tid)
  have hnew := firstAppearances_eraseDups hordered
  simp only [mem_newNames_iff] at hnew
  exact ⟨(onePerPlace_shownMarkers tid w store settings).made hrows,
    (MarkerRow.ofMarkers_spec strings (shownMarkers tid w store settings)).1, _,
    toList_markerRows tid w store strings settings, hnew⟩

end ThreadProfile

end TraceProfile
