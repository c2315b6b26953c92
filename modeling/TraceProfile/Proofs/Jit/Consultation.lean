import TraceProfile.Proofs.Jit.Retention
import TraceProfile.Proofs.Table.Distinct

/-!
# Resolvers that change while they are asked

What a resolver says may depend on what it was asked before. `Consultation` is the range in the
making: the addresses of a range are gone through one by one, the resolver is asked for those that
are new, and its answers are entered at once. The resolver is a state `σ` with a way to ask it.

All that is left of a resolver is the transcript of what it was asked and what it said. A resolver
that always answers like the transcript would have led to the same range
(`Coverage.consult_eq_add`), so what is known of a range of a resolver that does not change holds of
every range, with the transcript in the place of the resolver (`Range.Renders`).
-/

namespace TraceProfile.Jit

/-- What a resolver was asked, with its answers, in order. -/
abbrev Transcript := List (UInt64 × List Descriptor)

namespace Transcript

/-- The resolver that answers like the transcript, and knows nothing else. -/
def resolver (t : Transcript) : Resolver := fun address => (t.lookup address).getD []

/-- The frames that were reported, in order. -/
def reported (t : Transcript) : List (CodeFrame × Descriptor) :=
  t.flatMap fun answer => Descriptor.framesOf answer.2

end Transcript

/-- A range in the making, the string table that its rows refer to, and the resolver with what it
was asked so far. -/
structure Consultation (σ : Type) where
  /-- What has become of the resolver. -/
  state : σ
  /-- What it was asked. -/
  transcript : Transcript := []
  /-- The frames at each known address. -/
  addresses : Std.TreeMap UInt64 (List CodeFrame) := ∅
  /-- The row of each of these frames. -/
  rows : Std.TreeMap CodeFrame FrameRow := ∅
  /-- The texts. -/
  strings : StringTable

namespace Consultation

variable {σ : Type} (ask : σ → UInt64 → List Descriptor × σ)

/-- Takes in one address. The resolver is asked for it if it was not before. -/
def consume (c : Consultation σ) (address : UInt64) : Consultation σ :=
  if address ∈ c.transcript.map Prod.fst then c
  else
    let (descriptors, state) := ask c.state address
    let transcript := c.transcript ++ [(address, descriptors)]
    if descriptors.isEmpty then { c with state, transcript }
    else
      let frames := Descriptor.framesOf descriptors
      let (rows, strings) := frames.foldl Range.addRow (c.rows, c.strings)
      { state, transcript, rows, strings
        addresses := c.addresses.insert address (frames.map Prod.fst) }

/-- Takes in addresses one by one. -/
def run (state : σ) (strings : StringTable) (addresses : List UInt64) : Consultation σ :=
  addresses.foldl (consume ask) { state, strings }

end Consultation

/-- Adds what a resolver that may change says about addresses at the positions
`start ≤ p < stop`. -/
def Coverage.consult {σ : Type} (c : Coverage) (start stop : Nat)
    (ask : σ → UInt64 → List Descriptor × σ) (state : σ) (addresses : List UInt64) : Coverage :=
  let made := Consultation.run ask state c.strings addresses
  { timeline := c.timeline.push { start, stop, addresses := made.addresses, rows := made.rows }
    strings := made.strings }

/-! ## The transcript decides -/

namespace Transcript

/-- Where no address is asked for twice, the resolver gives the answer of each address. -/
theorem lookup_of_mem {t : Transcript} (h : (t.map Prod.fst).Nodup) {address : UInt64}
    {descriptors : List Descriptor} (hmem : (address, descriptors) ∈ t) :
    t.lookup address = some descriptors := by
  obtain ⟨before, after, rfl⟩ := List.append_of_mem hmem
  rw [List.map_append, List.map_cons, List.nodup_middle] at h
  refine List.lookup_eq_some_iff.2 ⟨before, after, rfl, fun answer hanswer => ?_⟩
  have hnot := (List.nodup_cons.1 h).1
  rw [bne_iff_ne]
  rintro rfl
  exact hnot (List.mem_append_left _ (List.mem_map.2 ⟨answer, hanswer, rfl⟩))

theorem resolver_of_mem {t : Transcript} (h : (t.map Prod.fst).Nodup)
    {answer : UInt64 × List Descriptor} (hmem : answer ∈ t) : t.resolver answer.1 = answer.2 := by
  rw [resolver, lookup_of_mem h hmem, Option.getD_some]

/-- Asked again for the addresses of the transcript, its resolver gives the transcript. -/
theorem answers_resolver {t : Transcript} {addresses : List UInt64}
    (h : t.map Prod.fst = addresses.eraseDups) :
    Range.answers t.resolver addresses = t.filter (!·.2.isEmpty) := by
  have hqueries : Range.queries addresses = t.map Prod.fst := by
    rw [h]
    exact Interner.toList_ofList addresses
  have hnodup : (t.map Prod.fst).Nodup := h ▸ nodup_eraseDups addresses
  have hself : t.map (fun answer => (answer.1, t.resolver answer.1)) = t.map id :=
    List.map_congr_left fun answer hanswer => by rw [resolver_of_mem hnodup hanswer, id]
  rw [Range.answers, hqueries, List.map_map, Function.comp_def, hself, List.map_id]

/-- Answers that know nothing report nothing. -/
theorem flatMap_filter (t : Transcript) :
    (t.filter (!·.2.isEmpty)).flatMap (fun answer => Descriptor.framesOf answer.2) =
      t.reported := by
  induction t with
  | nil => rfl
  | cons answer t ih =>
    obtain ⟨address, _ | ⟨d, descriptors⟩⟩ := answer
    · simpa [reported, Descriptor.framesOf] using ih
    · simpa [reported] using ih

end Transcript

namespace Consultation

variable {σ : Type} {ask : σ → UInt64 → List Descriptor × σ}

/-- What is kept while the addresses are gone through, starting from a string table: the resolver
was asked once for each of them, and its answers are entered. -/
structure Keeps (c : Consultation σ) (strings : StringTable) (consumed : List UInt64) : Prop where
  asked : c.transcript.map Prod.fst = consumed.eraseDups
  rendered : (c.rows, c.strings) =
    ((c.transcript.filter (!·.2.isEmpty)).flatMap fun answer =>
      Descriptor.framesOf answer.2).foldl Range.addRow (∅, strings)
  addresses_eq : c.addresses = .ofList ((c.transcript.filter (!·.2.isEmpty)).map fun answer =>
    (answer.1, (Descriptor.framesOf answer.2).map Prod.fst))

theorem Keeps.consume {c : Consultation σ} {strings : StringTable} {consumed : List UInt64}
    (h : c.Keeps strings consumed) (address : UInt64) :
    (c.consume ask address).Keeps strings (consumed ++ [address]) := by
  have hknown : address ∈ c.transcript.map Prod.fst ↔ address ∈ consumed := by
    rw [h.asked, List.mem_eraseDups]
  rw [Consultation.consume]
  split
  · next hmem =>
    refine { h with asked := ?_ }
    rw [eraseDups_concat, if_pos (hknown.1 hmem), h.asked]
  · next hnew =>
    -- Whatever the answer is, the address comes last in the transcript.
    have hasked (descriptors : List Descriptor) :
        (c.transcript ++ [(address, descriptors)]).map Prod.fst =
          (consumed ++ [address]).eraseDups := by
      rw [eraseDups_concat, if_neg (mt hknown.2 hnew), List.map_append, h.asked]
      rfl
    generalize ask c.state address = answer
    obtain ⟨descriptors, state⟩ := answer
    dsimp only
    split
    · next hempty =>
      refine ⟨hasked descriptors, ?_, ?_⟩
      · simpa [hempty] using h.rendered
      · simpa [hempty] using h.addresses_eq
    · next hsome =>
      have hfilter : (c.transcript ++ [(address, descriptors)]).filter (!·.2.isEmpty) =
          c.transcript.filter (!·.2.isEmpty) ++ [(address, descriptors)] := by
        simp [hsome]
      refine ⟨hasked descriptors, ?_, ?_⟩
      · dsimp only
        rw [hfilter, List.flatMap_append, List.foldl_append, ← h.rendered]
        simp
      · dsimp only
        rw [hfilter, List.map_append, Std.TreeMap.ofList_eq_insertMany_empty,
          Std.TreeMap.insertMany_append, ← Std.TreeMap.ofList_eq_insertMany_empty,
          ← h.addresses_eq]
        simp [Std.TreeMap.insertMany_list_singleton]

/-- A resolver that does not change answers every question as it always does. -/
theorem eq_of_mem_transcript_pure (resolver : Resolver) (state : σ) (strings : StringTable)
    (addresses : List UInt64) :
    ∀ answer ∈ (run (fun state address => (resolver address, state)) state strings
      addresses).transcript, answer.2 = resolver answer.1 := by
  have hfold (c : Consultation σ) (more : List UInt64)
      (h : ∀ answer ∈ c.transcript, answer.2 = resolver answer.1) :
      ∀ answer ∈ (more.foldl (Consultation.consume fun state address => (resolver address, state))
        c).transcript, answer.2 = resolver answer.1 := by
    induction more generalizing c with
    | nil => exact h
    | cons address more ih =>
      refine ih _ ?_
      have hnew : ∀ answer ∈ c.transcript ++ [(address, resolver address)],
          answer.2 = resolver answer.1 :=
        List.forall_mem_append.2 ⟨h, List.forall_mem_singleton.2 rfl⟩
      rw [Consultation.consume]
      split
      · exact h
      · dsimp only
        split
        · exact hnew
        · exact hnew
  exact hfold { state, strings } addresses (by simp)

variable (ask) in
theorem keeps_run (state : σ) (strings : StringTable) (addresses : List UInt64) :
    (run ask state strings addresses).Keeps strings addresses := by
  have hstart : Keeps { state, strings : Consultation σ } strings [] := ⟨rfl, rfl, rfl⟩
  have hfold (c : Consultation σ) (consumed more : List UInt64) (h : c.Keeps strings consumed) :
      (more.foldl (Consultation.consume ask) c).Keeps strings (consumed ++ more) := by
    induction more generalizing c consumed with
    | nil => simpa using h
    | cons address more ih => simpa using ih _ _ (h.consume address)
  exact hfold _ [] addresses hstart

end Consultation

namespace Coverage

variable {σ : Type}

/-- What comes of a resolver that changes is what would have come of one that always answers like
its transcript. -/
theorem consult_eq_add (c : Coverage) (start stop : Nat)
    (ask : σ → UInt64 → List Descriptor × σ) (state : σ) (addresses : List UInt64) :
    c.consult start stop ask state addresses =
      c.add start stop (Consultation.run ask state c.strings addresses).transcript.resolver
        addresses := by
  obtain ⟨hasked, hrendered, haddresses⟩ :=
    Consultation.keeps_run ask state c.strings addresses
  rw [consult, add, Range.resolve, Transcript.answers_resolver hasked]
  dsimp only
  rw [← hrendered, ← haddresses]

/-- A resolver that does not change is a special case. -/
theorem consult_of_pure (c : Coverage) (start stop : Nat) (resolver : Resolver) (state : σ)
    (addresses : List UInt64) :
    c.consult start stop (fun state address => (resolver address, state)) state addresses =
      c.add start stop resolver addresses := by
  rw [consult_eq_add]
  have hasked := (Consultation.keeps_run (fun state address => (resolver address, state)) state
    c.strings addresses).asked
  have hpure := Consultation.eq_of_mem_transcript_pure resolver state c.strings addresses
  generalize (Consultation.run _ state c.strings addresses).transcript = t at hasked hpure
  have hanswers : Range.answers t.resolver addresses = Range.answers resolver addresses := by
    rw [Transcript.answers_resolver hasked, Range.answers, Range.queries, Interner.toList_ofList,
      ← hasked, List.map_map]
    have hself : t.map ((fun address => (address, resolver address)) ∘ Prod.fst) = t.map id :=
      List.map_congr_left fun answer hanswer => Prod.ext rfl (hpure answer hanswer).symm
    rw [hself, List.map_id]
  rw [add, add, Range.resolve, Range.resolve, hanswers]

end Coverage

/-! ## Where ranges come from -/

/-- What a range was made from: its bounds, and what its resolver was asked and said. -/
structure Source where
  /-- The first position. -/
  start : Nat
  /-- The position after the last. -/
  stop : Nat
  /-- What the resolver was asked. -/
  transcript : Transcript

/-- The coverage comes about by asking resolvers and by dropping what has ended, and its ranges were
made from the sources. A coverage may be gone on with in more than one way, as it is when a copy of
it is made. -/
inductive Coverage.MadeFrom : Coverage → List Source → Prop where
  /-- Nothing is known. -/
  | empty : MadeFrom {} []
  /-- A resolver is asked, in whatever state it is. -/
  | consult {c : Coverage} {sources : List Source} (h : MadeFrom c sources) (start stop : Nat)
      {σ : Type} (ask : σ → UInt64 → List Descriptor × σ) (state : σ) (addresses : List UInt64) :
      MadeFrom (c.consult start stop ask state addresses) (sources ++
        [⟨start, stop, (Consultation.run ask state c.strings addresses).transcript⟩])
  /-- Ranges that have ended at a position are dropped. -/
  | discard {c : Coverage} {sources : List Source} (h : MadeFrom c sources) (position : Nat) :
      MadeFrom (c.discard position) (sources.filter fun source => position < source.stop)

/-- The range renders its source, in which no address was asked for twice: it knows the addresses
that were answered, each with the frames of the answer, and each frame that was reported has a row,
which shows the descriptor reported first. No other frame has one. -/
structure Range.Renders (range : Range) (strings : List String) (source : Source) : Prop where
  start_eq : range.start = source.start
  stop_eq : range.stop = source.stop
  asked_once : (source.transcript.map Prod.fst).Nodup
  frames?_eq_some_iff : ∀ address frames, range.frames? address = some frames ↔
    ∃ descriptors, (address, descriptors) ∈ source.transcript ∧ descriptors ≠ [] ∧
      frames = descriptors.mapIdx fun depth d => ⟨d.canonical, depth⟩
  rows_show : RowsShow range.rows strings source.transcript.reported

theorem Range.Renders.mono {range : Range} {strings strings' : List String} {source : Source}
    (h : range.Renders strings source) (hs : strings <+: strings') :
    range.Renders strings' source :=
  { h with rows_show := h.rows_show.mono hs }

theorem Range.Renders.isSome_frames?_iff {range : Range} {strings : List String} {source : Source}
    (h : range.Renders strings source) (address : UInt64) :
    (range.frames? address).isSome = true ↔
      ∃ descriptors, (address, descriptors) ∈ source.transcript ∧ descriptors ≠ [] := by
  rw [Option.isSome_iff_exists]
  constructor
  · rintro ⟨frames, hframes⟩
    obtain ⟨descriptors, hmem, hne, -⟩ := (h.frames?_eq_some_iff address frames).1 hframes
    exact ⟨descriptors, hmem, hne⟩
  · rintro ⟨descriptors, hmem, hne⟩
    exact ⟨_, (h.frames?_eq_some_iff address _).2 ⟨descriptors, hmem, hne, rfl⟩⟩

theorem Descriptor.map_fst_framesOf (descriptors : List Descriptor) :
    (framesOf descriptors).map Prod.fst =
      descriptors.mapIdx fun depth d => ⟨d.canonical, depth⟩ := by
  apply List.ext_getElem?
  intro index
  simp [framesOf, Function.comp_def]

/-- The range that is made from a transcript renders it. -/
theorem Range.renders_resolve (start stop : Nat) {t : Transcript} {addresses : List UInt64}
    (h : t.map Prod.fst = addresses.eraseDups) (strings : StringTable) :
    (resolve start stop t.resolver addresses strings).1.Renders
      (resolve start stop t.resolver addresses strings).2.toList ⟨start, stop, t⟩ := by
  obtain ⟨-, hframes, hrows⟩ := holds_resolve start stop t.resolver addresses strings
  have hnodup : (t.map Prod.fst).Nodup := h ▸ nodup_eraseDups addresses
  refine ⟨rfl, rfl, hnodup, fun address frames => ?_, ?_⟩
  · have hasked : address ∈ addresses ↔ ∃ descriptors, (address, descriptors) ∈ t := by
      rw [← List.mem_eraseDups, ← h]
      simp
    rw [hframes]
    constructor
    · intro hsome
      split at hsome
      · next hknown =>
        obtain ⟨descriptors, hmem⟩ := hasked.1 hknown.1
        rw [Transcript.resolver_of_mem hnodup hmem] at hknown hsome
        obtain rfl := Option.some.inj hsome
        exact ⟨descriptors, hmem, hknown.2, Descriptor.map_fst_framesOf _⟩
      · exact absurd hsome (by simp)
    · rintro ⟨descriptors, hmem, hne, rfl⟩
      rw [Transcript.resolver_of_mem hnodup hmem, if_pos ⟨hasked.2 ⟨descriptors, hmem⟩, hne⟩]
      exact congrArg some (Descriptor.map_fst_framesOf descriptors)
  · rw [reported, Transcript.answers_resolver h, Transcript.flatMap_filter] at hrows
    exact hrows

namespace Coverage

/-- Every coverage was made from something. -/
theorem Reached.exists_madeFrom {c : Coverage} (h : c.Reached) : ∃ sources, c.MadeFrom sources := by
  induction h with
  | empty => exact ⟨[], .empty⟩
  | add _ start stop resolver addresses ih =>
    obtain ⟨sources, hsources⟩ := ih
    rw [← consult_of_pure _ start stop resolver () addresses]
    exact ⟨_, hsources.consult start stop _ () addresses⟩
  | discard _ position ih =>
    obtain ⟨sources, hsources⟩ := ih
    exact ⟨_, hsources.discard position⟩

theorem MadeFrom.reached {c : Coverage} {sources : List Source} (h : c.MadeFrom sources) :
    c.Reached := by
  induction h with
  | empty => exact .empty
  | consult _ start stop ask state addresses ih =>
    rw [consult_eq_add]
    exact ih.add start stop _ addresses
  | discard _ position ih => exact ih.discard position

/-- Each range renders the source that it was made from. -/
theorem MadeFrom.renders {c : Coverage} {sources : List Source} (h : c.MadeFrom sources) :
    List.Forall₂ (fun source range => range.Renders c.strings.toList source) sources
      c.timeline.ranges.toList := by
  induction h with
  | empty => exact .nil
  | @consult c sources _ start stop σ ask state addresses ih =>
    have hasked := (Consultation.keeps_run ask state c.strings addresses).asked
    have hnew := Range.renders_resolve start stop hasked c.strings
    obtain ⟨hgrows, -⟩ := Range.holds_resolve start stop
      (Consultation.run ask state c.strings addresses).transcript.resolver addresses c.strings
    rw [consult_eq_add, ranges_add]
    refine List.rel_append (ih.imp fun _ _ hold => hold.mono hgrows) ?_
    exact .cons hnew .nil
  | @discard c sources _ position ih =>
    exact Timeline.forall₂_discard (fun _ _ hrange => hrange.stop_eq) ih position

end Coverage

end TraceProfile.Jit
