import OffloadFabric.Fabric.Listing
import OffloadFabric.Properties.LifeCycle

/-!
# Paging

A client reads the assignments a page at a time (`src/fabric.cpp:4149-4188`) while other requests
are served. Identifiers are issued in ascending order (`src/fabric.cpp:103-110`), so what is placed
meanwhile is listed behind what was there, and what was there keeps its place.
-/

namespace OffloadFabric

open Lib FabricState

/-! ## Spelled identifiers -/

/-- The identifier was issued for the ordinal. -/
def AssignmentRecord.Spells (r : AssignmentRecord) (n : UInt64) : Prop :=
  r.id.value = ascii "as-" ++ hex64 n

theorem AssignmentRecord.Spells.ordinal {r : AssignmentRecord} {n : UInt64} (h : r.Spells n) :
    parseOrdinal r.id.value (ascii "as-") = n := by
  rw [h]
  exact parseOrdinal_hex64 _ n

/-- Identifiers are ordered as the ordinals they spell. -/
theorem AssignmentRecord.Spells.compare {r r' : AssignmentRecord} {n n' : UInt64}
    (h : r.Spells n) (h' : r'.Spells n') (hlt : n < n') : compare r.id r'.id = .lt := by
  show Ord.compare r.id.value r'.id.value = .lt
  rw [h, h', compare_append_left]
  exact compare_hex64 hlt

theorem FabricState.Issue.value {s t : FabricState} {id : AssignmentId}
    (h : s.Issue (.assignment id) t) :
    id.value = ascii "as-" ++ hex64 t.nextAssignmentOrdinal := by
  cases h with
  | assignment ordinal _ _ hid =>
    unfold Token.parse at hid
    split at hid
    · cases hid
      rfl
    · cases hid

/-- A new identifier spells the ordinal that its issue passed. -/
theorem FabricState.Issues.spelled {s t : FabricState} {i : Identity} (h : s.Issues i t) :
    ∃ n, i.id.value = ascii "as-" ++ hex64 n ∧ s.nextAssignmentOrdinal < n ∧
      n ≤ t.nextAssignmentOrdinal := by
  obtain ⟨s₁, s₂, s₃, h₁, h₂, h₃, h₄⟩ := h
  refine ⟨s₁.nextAssignmentOrdinal, h₁.value, h₁.ordinal.2, ?_⟩
  exact (h₂.raises.trans (h₃.raises.trans h₄.raises)).ordinal

theorem AssignmentRecord.id_of_placement {r r' : AssignmentRecord}
    (h : r'.placement = r.placement) : r'.id = r.id := by
  have hid := congrArg AssignmentRecord.id h
  exact hid

/-- **Every stored identifier was issued**: in every state of every run it spells an ordinal. -/
theorem run_spelled (c : FabricConfig) (steps : List Step) :
    (run c steps).state.Every fun r ↦ ∃ n, r.Spells n := by
  have hevery : (run c steps).Every c fun r ↦ ∃ n, r.Spells n := by
    refine run_every (E := fun _ r ↦ ∃ n, r.Spells n) (fun _ _ _ h ↦ h) ?_ ?_ steps
    · intro steps st s v _ _ hs hv
      rcases hv.stores.placement with ⟨r, hfind, hplacement⟩ | ⟨_, _, _, _, i, _, -, hi, -, hnew⟩
      · obtain ⟨n, hn⟩ := hs.find? hfind
        refine ⟨n, ?_⟩
        unfold AssignmentRecord.Spells
        rw [AssignmentRecord.id_of_placement hplacement]
        exact hn
      · obtain ⟨n, hn, -, -⟩ := hi.spelled
        refine ⟨n, ?_⟩
        rw [hnew]
        exact hn
    · intro _ _ _ _ _ hr _ _
      exact hr
  exact hevery.memory

/-! ## Placements grow at their end -/

namespace FabricState

variable {s t : FabricState}

/-- No stored identifier is above the counter that identifiers are issued from. -/
def OrdinalsPassed (s : FabricState) : Prop :=
  s.Every fun r ↦ parseOrdinal r.id.value (ascii "as-") ≤ s.nextAssignmentOrdinal

/-- Every stored identifier was issued and is not above the counter. -/
def Numbered (s : FabricState) : Prop :=
  s.Every fun r ↦ ∃ n, r.Spells n ∧ n ≤ s.nextAssignmentOrdinal

/-- The assignments in the order of their identifiers, as they were placed. -/
def placements (s : FabricState) : List AssignmentRecord :=
  s.assignments.values.map AssignmentRecord.placement

theorem OrdinalsPassed.numbered (h : s.OrdinalsPassed) (hs : s.Every fun r ↦ ∃ n, r.Spells n) :
    s.Numbered := by
  intro r hr
  obtain ⟨n, hn⟩ := hs r hr
  have hle : parseOrdinal r.id.value (ascii "as-") ≤ s.nextAssignmentOrdinal := h r hr
  rw [hn.ordinal] at hle
  exact ⟨n, hn, hle⟩

/-- A higher counter leaves what is stored numbered. -/
theorem Numbered.of_eq (h : s.Numbered) (hassignments : t.assignments = s.assignments)
    (hle : s.nextAssignmentOrdinal ≤ t.nextAssignmentOrdinal) : t.Numbered := by
  intro r hr
  rw [hassignments] at hr
  obtain ⟨n, hn, hpassed⟩ := h r hr
  exact ⟨n, hn, hpassed.trans hle⟩

/-- Superseding a holder leaves the identifiers that are stored. -/
theorem ids_superseding (s : FabricState) (b : Bounds) (replacing : AssignmentId)
    (k : ExclusivityKey) (now : Micros) :
    ∀ r ∈ (s.superseding b replacing k now).assignments.values,
      ∃ r₀ ∈ s.assignments.values, r.id = r₀.id := by
  intro r hr
  unfold superseding at hr
  split at hr
  · exact ⟨r, hr, rfl⟩
  · split at hr
    · exact ⟨r, hr, rfl⟩
    · next previous hfind =>
      have hr' := Table.mem_values.mp hr
      have hinsert : (s.insertAssignment
          (previous.enter b .superseded .superseded now)).assignments.find? r.id = some r := hr'
      rw [insertAssignment_assignments, Table.find?_insert] at hinsert
      split at hinsert
      · cases hinsert
        exact ⟨previous, Table.mem_values_of_find? hfind, rfl⟩
      · exact ⟨r, Table.mem_values_of_find? hinsert, rfl⟩

end FabricState

/-- A change that is no crash leaves the counters of assignments or raises them. -/
theorem Change.raises {c : FabricConfig} {st : Step} {m₀ m m' : Impl} (h : Change c st m₀ m m')
    (hcrash : st.op ≠ .crash) : Raises m.state m'.state := by
  cases h with
  | delivered _ hd _ _ => exact .of_sameCounters (sameCounters_delivery hd)
  | stored _ _ _ _ _ =>
    exact .of_sameCounters ((sameCounters_insertAssignment _ _).trans
      (sameCounters_recordIdempotency _ _ _ _))
  | refused _ _ _ _ _ _ => exact .of_sameCounters (sameCounters_recordIdempotency _ _ _ _)
  | issued _ hi => exact hi.raises
  | stamped => exact .of_sameCounters (sameCounters_pushReassignment _ _ _ _)
  | crashed hop => exact absurd hop hcrash
  | _ => exact .refl _

/-- A new assignment is placed behind all others, any other change leaves the placements. -/
theorem Change.placements {c : FabricConfig} {st : Step} {m₀ m m' : Impl}
    (h : Change c st m₀ m m') (hcrash : st.op ≠ .crash) (h₀ : m₀.state.Numbered)
    (hm : m.state.Numbered) :
    m.state.placements <+: m'.state.placements ∧ m'.state.Numbered := by
  have hraises := (h.raises hcrash).ordinal
  rcases h.assignments hcrash with hsame | ⟨v, -, -, -, hv, -, -, hinsert⟩
  · refine ⟨?_, hm.of_eq hsame hraises⟩
    unfold FabricState.placements
    rw [hsame]
  · -- what is stored spells an ordinal that the counter has passed
    have hstored : ∀ n, v.record.Spells n → n ≤ m'.state.nextAssignmentOrdinal →
        m'.state.Numbered := by
      intro n hn hle r hr
      have hfind := Table.mem_values.mp hr
      rw [hinsert, Table.find?_insert] at hfind
      split at hfind
      · cases hfind
        exact ⟨n, hn, hle⟩
      · obtain ⟨n', hn', hle'⟩ := hm r (Table.mem_values.mpr hfind)
        exact ⟨n', hn', hle'.trans hraises⟩
    rcases hv.placement with
      ⟨r, hfind, hplacement⟩ | ⟨p, _, auth, t, i, issued, -, hi, hs, hnew⟩
    · obtain ⟨n, hn, hle⟩ := hm r (Table.mem_values_of_find? hfind)
      have hid := AssignmentRecord.id_of_placement hplacement
      refine ⟨?_, hstored n ?_ (hle.trans hraises)⟩
      · unfold FabricState.placements
        rw [hinsert, Table.map_values_insert_old hfind hplacement]
      · unfold AssignmentRecord.Spells
        rw [hid]
        exact hn
    · obtain ⟨n, hn, hlt, hle⟩ := hi.spelled
      have hspells : v.record.Spells n := by
        rw [hnew]
        exact hn
      have hlast : ∀ r ∈ m.state.assignments.values,
          compare (key r) (key v.record) = .lt := by
        intro r hr
        rw [hs] at hr
        obtain ⟨r₀, hr₀, hid⟩ := ids_superseding _ _ _ _ _ r hr
        have hissued : issued.assignments = m₀.state.assignments := hi.assignments
        rw [hissued] at hr₀
        obtain ⟨n₀, hn₀, hle₀⟩ := h₀ r₀ hr₀
        have hcompare := hn₀.compare hspells (hle₀.trans_lt hlt)
        rw [← hid] at hcompare
        exact hcompare
      refine ⟨?_, hstored n hspells ?_⟩
      · unfold FabricState.placements
        rw [hinsert, Table.values_insert_last hlast, List.map_append]
        exact List.prefix_append _ _
      · have hcounters := sameCounters_superseding issued c.bounds auth.replacing
          ⟨auth.scope, p.cls⟩ t
        rw [← hs] at hcounters
        exact hle.trans ((Raises.of_sameCounters hcounters).ordinal.trans hraises)

/-- A step of a runtime that goes on: neither a start nor a crash. -/
def Step.GoesOn (st : Step) : Prop := (∀ boot, st.op ≠ .start boot) ∧ st.op ≠ .crash

theorem Step.placements {c : FabricConfig} {m : Impl} {st : Step} (hst : st.GoesOn)
    (hm : m.state.Numbered) :
    m.state.placements <+: (st.next c m).state.placements ∧ (st.next c m).state.Numbered := by
  refine st.active (P := fun m' ↦ m.state.placements <+: m'.state.placements ∧ m'.state.Numbered)
    hst.1 hst.2 ⟨List.prefix_rfl, hm⟩ ?_
  intro m₁ m₂ hchange _ h
  obtain ⟨hgrown, hnumbered⟩ := hchange.placements hst.2 hm h.2
  exact ⟨h.1.trans hgrown, hnumbered⟩

/-- Over a run that goes on, what is placed meanwhile joins at the end. -/
theorem runFrom_placements {c : FabricConfig} {m : Impl} {steps : List Step}
    (hsteps : ∀ st ∈ steps, st.GoesOn) (hm : m.state.Numbered) :
    m.state.placements <+: (runFrom c m steps).state.placements ∧
      (runFrom c m steps).state.Numbered := by
  induction steps generalizing m with
  | nil => exact ⟨List.prefix_rfl, hm⟩
  | cons st rest ih =>
    obtain ⟨hst, hrest⟩ := List.forall_mem_cons.mp hsteps
    obtain ⟨hgrown, hnumbered⟩ := Step.placements (c := c) hst hm
    obtain ⟨hlater, hend⟩ := ih hrest hnumbered
    exact ⟨hgrown.trans hlater, hend⟩

/-! ## Pages -/

/-- A filter by what does not change: neither the state nor its being terminal. -/
structure AssignmentFilter.Steady (filter : AssignmentFilter) : Prop where
  filterByState : filter.filterByState = false
  includeTerminal : filter.includeTerminal = true

theorem AssignmentFilter.Steady.admits_placement {filter : AssignmentFilter}
    (h : filter.Steady) (r : AssignmentRecord) :
    filter.admits r.placement = filter.admits r := by
  unfold admits
  rw [h.filterByState, h.includeTerminal]
  rfl

/-- What a steady filter admits shows in the placements. -/
theorem FabricState.matching_placements (s : FabricState) {filter : AssignmentFilter}
    (h : filter.Steady) :
    (s.matching filter).map AssignmentRecord.placement = s.placements.filter filter.admits := by
  unfold matching placements
  rw [List.filter_map]
  congr 1
  refine List.filter_congr fun r _ ↦ ?_
  exact (h.admits_placement r).symm

/-- What a client reads with a filter: each page at the offset behind what it has read, after the
steps that are made meanwhile. The flag tells whether the last page was cut. -/
def readPages (c : FabricConfig) (filter : AssignmentFilter) :
    List (List Step × Nat) → Impl → Nat → List AssignmentRecord × Bool
  | [], _, _ => ([], true)
  | (steps, limit) :: rest, m, offset =>
    let m' := runFrom c m steps
    let page := m'.state.listAssignments filter offset limit
    let later := readPages c filter rest m' (offset + page.1.length)
    (page.1 ++ later.1, if rest.isEmpty then page.2 else later.2)

/-- The runtime behind the reads. -/
def afterReads (c : FabricConfig) (m : Impl) (reads : List (List Step × Nat)) : Impl :=
  runFrom c m (reads.flatMap Prod.fst)

variable {c : FabricConfig} {m : Impl} {filter : AssignmentFilter}

theorem afterReads_cons (steps : List Step) (limit : Nat) (rest : List (List Step × Nat)) :
    afterReads c m ((steps, limit) :: rest) = afterReads c (runFrom c m steps) rest := by
  unfold afterReads runFrom
  rw [List.flatMap_cons, List.foldl_append]

/-- Pages read from an offset on are the first of what is listed from there at the end. -/
theorem readPages_prefix (hfilter : filter.Steady) {reads : List (List Step × Nat)}
    (hreads : ∀ read ∈ reads, ∀ st ∈ read.1, st.GoesOn) (hm : m.state.Numbered) (offset : Nat) :
    (readPages c filter reads m offset).1.map AssignmentRecord.placement <+:
        ((afterReads c m reads).state.placements.filter filter.admits).drop offset ∧
      ((readPages c filter reads m offset).2 = false →
        (readPages c filter reads m offset).1.map AssignmentRecord.placement =
          ((afterReads c m reads).state.placements.filter filter.admits).drop offset) := by
  induction reads generalizing m offset with
  | nil => exact ⟨List.nil_prefix, fun h ↦ by cases h⟩
  | cons read rest ih =>
    obtain ⟨steps, limit⟩ := read
    obtain ⟨hsteps, hrest⟩ := List.forall_mem_cons.mp hreads
    obtain ⟨-, hnumbered⟩ := runFrom_placements (c := c) hsteps hm
    have hlater : (runFrom c m steps).state.placements <+:
        (afterReads c (runFrom c m steps) rest).state.placements := by
      refine (runFrom_placements (fun st hst ↦ ?_) hnumbered).1
      obtain ⟨read, hread, hst⟩ := List.mem_flatMap.mp hst
      exact hrest read hread st hst
    obtain ⟨hfront, hwhole⟩ := ih hrest hnumbered
      (offset + ((runFrom c m steps).state.listAssignments filter offset limit).1.length)
    rw [afterReads_cons]
    simp only [readPages]
    generalize hpage : (runFrom c m steps).state.listAssignments filter offset limit = page at *
    generalize hlast : (afterReads c (runFrom c m steps) rest).state.placements.filter
      filter.admits = last at *
    -- the page is the first of what is listed from its offset on
    have hlisted : ((runFrom c m steps).state.matching filter).map AssignmentRecord.placement <+:
        last := by
      rw [matching_placements _ hfilter, ← hlast]
      exact hlater.filter _
    have hfirst : page.1.map AssignmentRecord.placement <+: last.drop offset := by
      rw [← hpage, listAssignments_page, List.map_take, List.map_drop]
      exact (List.take_prefix _ _).trans (hlisted.drop offset)
    have hsplit : page.1.map AssignmentRecord.placement ++ last.drop (offset + page.1.length) =
        last.drop offset := by
      have htake := List.prefix_iff_eq_take.mp hfirst
      rw [List.length_map] at htake
      rw [htake, ← List.drop_drop]
      exact List.take_append_drop _ _
    refine ⟨?_, fun hcut ↦ ?_⟩
    · rw [List.map_append, ← hsplit, List.prefix_append_right_inj]
      exact hfront
    · cases rest with
      | nil =>
        have hcut : page.2 = false := hcut
        have hend := listAssignments_last (runFrom c m steps).state filter offset limit
        rw [hpage] at hend
        have hnil : afterReads c (runFrom c m steps) [] = runFrom c m steps := rfl
        rw [hnil, ← matching_placements _ hfilter] at hlast
        show (page.1 ++ []).map AssignmentRecord.placement = _
        rw [List.append_nil, hend hcut, List.map_drop, hlast]
      | cons read' rest' =>
        rw [List.map_append, hwhole hcut]
        exact hsplit

/-- **Paging is exact while the runtime moves**: whatever is done between the reads, the pages are
the first of what the last state lists, each assignment once and as it was placed, and all of it
when the last page was not cut. -/
theorem paging_exact (c : FabricConfig) (steps : List Step) (filter : AssignmentFilter)
    (reads : List (List Step × Nat)) (hpassed : (run c steps).state.OrdinalsPassed)
    (hfilter : filter.Steady) (hreads : ∀ read ∈ reads, ∀ st ∈ read.1, st.GoesOn) :
    let pages := readPages c filter reads (run c steps) 0
    let listed := (afterReads c (run c steps) reads).state.matching filter
    pages.1.map AssignmentRecord.placement <+: listed.map AssignmentRecord.placement ∧
      (pages.1.map AssignmentRecord.id).Nodup ∧
      (pages.2 = false →
        pages.1.map AssignmentRecord.placement = listed.map AssignmentRecord.placement) := by
  have hnumbered := hpassed.numbered (run_spelled c steps)
  obtain ⟨hfront, hwhole⟩ := readPages_prefix (c := c) hfilter hreads hnumbered 0
  rw [List.drop_zero, ← matching_placements _ hfilter] at hfront hwhole
  refine ⟨hfront, ?_, hwhole⟩
  have hids := hfront.map AssignmentRecord.id
  rw [List.map_map, List.map_map] at hids
  have hnodup := (afterReads c (run c steps) reads).state.assignments.nodup_keys
  exact hids.sublist.nodup ((List.filter_sublist.map _).nodup hnodup)

/-- The ordinal of the first placement is passed. -/
private theorem Sample.ordinalsPassed_placed : (run {} Sample.placed).state.OrdinalsPassed := by
  show ∀ r ∈ (run {} Sample.placed).state.assignments.values,
    parseOrdinal r.id.value (ascii "as-") ≤ (run {} Sample.placed).state.nextAssignmentOrdinal
  decide +kernel

/-- Two reads of one assignment each, with a report between them. -/
theorem paging_exact_placed :
    let reads := [([], 1), ([Sample.step (.reportEffect Sample.report)], 1)]
    let pages := readPages {} { includeTerminal := true } reads (run {} Sample.placed) 0
    let listed := (afterReads {} (run {} Sample.placed) reads).state.matching
      { includeTerminal := true }
    pages.1.map AssignmentRecord.placement <+: listed.map AssignmentRecord.placement ∧
      (pages.1.map AssignmentRecord.id).Nodup ∧
      (pages.2 = false →
        pages.1.map AssignmentRecord.placement = listed.map AssignmentRecord.placement) := by
  refine paging_exact {} Sample.placed { includeTerminal := true } _
    Sample.ordinalsPassed_placed ⟨rfl, rfl⟩ ?_
  intro read hread st hst
  simp only [List.mem_cons, List.not_mem_nil, or_false] at hread
  rcases hread with rfl | rfl
  · exact absurd hst List.not_mem_nil
  · rw [List.mem_singleton.mp hst]
    exact ⟨fun _ ↦ nofun, nofun⟩

end OffloadFabric
