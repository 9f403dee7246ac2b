import OffloadFabric.Fabric.Indexes
import OffloadFabric.Properties.Replacement

/-!
# Recovered indexes are the live ones

The indexes kept at every store (`src/fabric.cpp:1628-1727`) against those that a start derives
from the live assignments (`src/fabric.cpp:922-989`). They are the same along every run that lets
no two holders contend for a claim, leaves no scope without a live assignment, and grants no use
counter of its own making.
-/

namespace OffloadFabric

open Lib Lib.Fallible Lib.Index AssignmentRecord FabricState

/-- The scope of an assignment is the one that the naming has for its identity. -/
def AssignmentRecord.NamedBy (naming : ScopeId → ScopeSpec) (r : AssignmentRecord) : Prop :=
  r.scopeId ≠ .empty → r.scope = naming r.scopeId

namespace FabricState

/-- The scope has a live assignment. -/
def LiveOn (s : FabricState) (scope : ScopeId) : Prop :=
  ∃ r ∈ s.assignments.values, r.state.isLive = true ∧ r.scopeId = scope

/-- The indexes of a state between two stores of one step: they have the claims and the uses of
its assignments, the scopes of the live ones, and no scope beyond those of an origin. -/
structure Kept (naming : ScopeId → ScopeSpec) (origin : ScopeId → Prop) (s : FabricState) :
    Prop where
  byClass : Of classEntry s.assignments.values s.exclusiveByClass
  byScope : Of scopeEntry s.assignments.values s.exclusiveByScope
  used : ∀ g ∈ s.authority.values, g.used = grantUses s.assignments g.id
  named : s.Every (NamedBy naming)
  covered : ∀ r ∈ s.assignments.values, r.state.isLive = true → r.scopeId ≠ .empty →
    s.scopeSpecs[r.scopeId]? = some (naming r.scopeId)
  known : ∀ scope spec, s.scopeSpecs[scope]? = some spec →
    scope ≠ .empty ∧ spec = naming scope ∧ origin scope

namespace Kept

variable {naming : ScopeId → ScopeSpec} {origin origin' : ScopeId → Prop} {s t : FabricState}

/-- When every scope of the origin has a live assignment, the state is indexed. -/
theorem indexed (h : Kept naming origin s)
    (horigin : ∀ scope, scope ≠ .empty → origin scope → s.LiveOn scope) : s.Indexed := by
  refine ⟨h.byClass, h.byScope, fun scope spec ↦ ?_, h.used⟩
  constructor
  · intro hspec
    obtain ⟨hne, rfl, hfrom⟩ := h.known scope spec hspec
    obtain ⟨r, hr, hlive, rfl⟩ := horigin scope hne hfrom
    exact ⟨r, hr, specEntry_eq_some.mpr ⟨hlive, hne, rfl, h.named r hr hne⟩⟩
  · rintro ⟨r, hr, hentry⟩
    obtain ⟨hlive, hne, rfl, rfl⟩ := specEntry_eq_some.mp hentry
    rw [h.covered r hr hlive hne, h.named r hr hne]

theorem of_indexed (h : s.Indexed) (hnamed : s.Every (NamedBy naming)) :
    Kept naming s.LiveOn s := by
  refine ⟨h.byClass, h.byScope, h.used, hnamed, fun r hr hlive hne ↦ ?_, fun scope spec hspec ↦ ?_⟩
  · rw [← hnamed r hr hne]
    exact (h.specs _ _).mpr ⟨r, hr, specEntry_eq_some.mpr ⟨hlive, hne, rfl, rfl⟩⟩
  · obtain ⟨r, hr, hentry⟩ := (h.specs scope spec).mp hspec
    obtain ⟨hlive, hne, rfl, rfl⟩ := specEntry_eq_some.mp hentry
    exact ⟨hne, hnamed r hr hne, r, hr, hlive, rfl⟩

theorem mono (h : Kept naming origin s) (ho : ∀ scope, origin scope → origin' scope) :
    Kept naming origin' s :=
  ⟨h.byClass, h.byScope, h.used, h.named, h.covered, fun scope spec hspec ↦
    let ⟨hne, heq, hfrom⟩ := h.known scope spec hspec
    ⟨hne, heq, ho scope hfrom⟩⟩

/-- What changes neither the assignments nor their indexes nor the uses of grants. -/
theorem of_eq (h : Kept naming origin s) (hassignments : t.assignments = s.assignments)
    (hclass : t.exclusiveByClass = s.exclusiveByClass)
    (hscope : t.exclusiveByScope = s.exclusiveByScope) (hspecs : t.scopeSpecs = s.scopeSpecs)
    (hused : ∀ g ∈ t.authority.values, g.used = grantUses s.assignments g.id) :
    Kept naming origin t := by
  constructor
  · rw [hassignments, hclass]
    exact h.byClass
  · rw [hassignments, hscope]
    exact h.byScope
  · rw [hassignments]
    exact hused
  · exact h.named.of_eq hassignments
  · rw [hassignments, hspecs]
    exact h.covered
  · rw [hspecs]
    exact h.known

theorem empty (naming : ScopeId → ScopeSpec) (origin : ScopeId → Prop) :
    Kept naming origin {} := by
  refine ⟨?_, ?_, ?_, ?_, ?_, ?_⟩
  · intro k id
    simp
  · intro scope id
    simp
  · intro g hg
    simp at hg
  · intro r hr
    simp at hr
  · intro r hr
    simp at hr
  · intro scope spec hspec
    simp at hspec

/-- The uses of grants after a store are counted afresh. -/
theorem used_insertAssignment (s : FabricState) (r : AssignmentRecord) :
    ∀ g ∈ (s.insertAssignment r).authority.values,
      g.used = grantUses (s.insertAssignment r).assignments g.id := by
  intro g hg
  have hfind := Table.mem_values.mp hg
  rw [insertAssignment_eq] at hfind
  simp only [Table.find?_mapValues] at hfind
  obtain ⟨g', -, rfl⟩ := Option.map_eq_some_iff.mp hfind
  rw [insertAssignment_assignments]

/-- **A store keeps the indexes** when no other holder contends for the claim of its record. -/
theorem insertAssignment (h : Kept naming origin s) {r : AssignmentRecord}
    (hclass : Free classEntry s.assignments r) (hscope : Free scopeEntry s.assignments r)
    (hnamed : r.NamedBy naming) (horigin : r.scopeId ≠ .empty → origin r.scopeId) :
    Kept naming origin (s.insertAssignment r) := by
  refine ⟨?_, ?_, used_insertAssignment s r,
    h.named.insert hnamed (insertAssignment_assignments s r), ?_, ?_⟩
  · rw [insertAssignment_assignments, insertAssignment_exclusiveByClass]
    exact h.byClass.insert slotted_classEntry hclass
  · rw [insertAssignment_assignments, insertAssignment_exclusiveByScope]
    exact h.byScope.insert slotted_scopeEntry hscope
  · intro x hx hlive hne
    rw [insertAssignment_assignments] at hx
    rw [insertAssignment_scopeSpecs]
    have hold : x ≠ r → s.scopeSpecs[x.scopeId]? = some (naming x.scopeId) := by
      intro hxr
      rcases mem_values_insert.mp hx with hxr' | ⟨-, hx⟩
      · exact absurd hxr' hxr
      · exact h.covered x hx hlive hne
    by_cases hr : r.scopeId ≠ .empty
    · rw [if_pos hr, Std.ExtTreeMap.getElem?_insert]
      simp only [Std.LawfulEqCmp.compare_eq_iff_eq]
      split
      · next heq => rw [hnamed hr, heq]
      · next heq => exact hold fun hxr ↦ heq (congrArg scopeId hxr).symm
    · rw [if_neg hr]
      exact hold fun hxr ↦ hr (hxr ▸ hne)
  · intro scope spec hspec
    rw [insertAssignment_scopeSpecs] at hspec
    split at hspec
    · next hr =>
      rw [Std.ExtTreeMap.getElem?_insert] at hspec
      simp only [Std.LawfulEqCmp.compare_eq_iff_eq] at hspec
      split at hspec
      · next heq =>
        subst heq
        rw [← Option.some.inj hspec]
        exact ⟨hr, hnamed hr, horigin hr⟩
      · exact h.known scope spec hspec
    · exact h.known scope spec hspec

end Kept

end FabricState

/-! ## Steps -/

/-- The step stores no assignment that contends with another for a claim or names its scope
differently, leaves a live assignment on every scope that had one or that it stores one on, and
grants no use counter but the number of uses. -/
structure Step.Orderly (c : FabricConfig) (naming : ScopeId → ScopeSpec) (m : Impl) (st : Step) :
    Prop where
  uncontended : ∀ s v, st.Storing c m s v →
    Free classEntry s.assignments v.record ∧ Free scopeEntry s.assignments v.record
  named : ∀ s v, st.Storing c m s v → v.record.NamedBy naming
  inhabited : ∀ scope, scope ≠ .empty →
    (m.state.LiveOn scope ∨ ∃ s v, st.Storing c m s v ∧ v.record.scopeId = scope) →
    (st.next c m).state.LiveOn scope
  counted : ∀ g d, st.op = .grantAuthority g → st.op.delivery c st.now m.state = .ok (some d) →
    g.used = grantUses m.state.assignments g.id

/-- The use counters of grants that a delivery leaves behind. -/
theorem Op.used_delivery {c : FabricConfig} {now : ClockReadings} {s : FabricState} {op : Op}
    {d : Delivery} (hd : op.delivery c now s = .ok (some d))
    (hused : ∀ g ∈ s.authority.values, g.used = grantUses s.assignments g.id)
    (hgrant : ∀ g, op = .grantAuthority g → g.used = grantUses s.assignments g.id) :
    ∀ g ∈ d.next.authority.values, g.used = grantUses s.assignments g.id := by
  cases Op.delivery_accepts hd with
  | grant _ _ _ _ =>
    intro g hg
    rcases mem_values_insert.mp hg with rfl | ⟨-, hg⟩
    · exact hgrant _ rfl
    · exact hused g hg
  | @withdrawal _ _ g₀ hfind _ =>
    intro g hg
    rcases mem_values_insert.mp hg with rfl | ⟨-, hg⟩
    · exact hused g₀ (Table.mem_values_of_find? hfind)
    · exact hused g hg
  | _ => exact hused

/-- A change of an orderly step keeps the indexes. -/
theorem Change.kept {c : FabricConfig} {st : Step} {m₀ m m' : Impl}
    {naming : ScopeId → ScopeSpec} {origin : ScopeId → Prop} (h : Change c st m₀ m m')
    (hcrash : st.op ≠ .crash) (hm : Kept naming origin m.state)
    (hstores : ∀ v, Stores c st.now m₀.state m.state st.op v →
      m'.state.assignments = m.state.assignments.insert v.record →
      Free classEntry m.state.assignments v.record ∧
        Free scopeEntry m.state.assignments v.record ∧ v.record.NamedBy naming ∧
        (v.record.scopeId ≠ .empty → origin v.record.scopeId))
    (hgrant : ∀ g d, st.op = .grantAuthority g → st.op.delivery c st.now m₀.state = .ok (some d) →
      g.used = grantUses m₀.state.assignments g.id) :
    Kept naming origin m'.state := by
  cases h with
  | delivered hstate hd _ _ =>
    have hnext := Op.delivery_next hd
    refine hm.of_eq ?_ ?_ ?_ ?_ (Op.used_delivery hd hm.used fun g hop ↦ ?_)
    · rw [hnext]
    · rw [hnext]
    · rw [hnext]
    · rw [hnext]
    · rw [hstate] at hd ⊢
      exact hgrant g _ hop hd
  | stored _ hv _ _ _ =>
    obtain ⟨hclass, hscope, hnamed, horigin⟩ :=
      hstores _ hv (storing_assignments _ _ _ _ _)
    unfold FabricState.storing
    rw [recordIdempotency_eq]
    have hinsert := hm.insertAssignment hclass hscope hnamed horigin
    exact hinsert.of_eq rfl rfl rfl rfl hinsert.used
  | refused _ _ _ _ _ _ =>
    rw [recordIdempotency_eq]
    exact hm.of_eq rfl rfl rfl rfl hm.used
  | issued _ hi => cases hi <;> exact hm.of_eq rfl rfl rfl rfl hm.used
  | stamped => exact hm.of_eq rfl rfl rfl rfl hm.used
  | crashed hop => exact absurd hop hcrash
  | _ => exact hm

/-- **An orderly step of a running runtime keeps its state indexed.** -/
theorem Step.Orderly.indexed {c : FabricConfig} {naming : ScopeId → ScopeSpec} {m : Impl}
    {st : Step} (h : st.Orderly c naming m) (hstart : ∀ boot, st.op ≠ .start boot)
    (hcrash : st.op ≠ .crash) (hm : m.state.Indexed) (hnamed : m.state.Every (NamedBy naming)) :
    (st.next c m).state.Indexed := by
  suffices hkept : ∀ m', Relation.ReflTransGen (Change c st (m.facing st.faults))
      (m.facing st.faults) m' →
      Relation.ReflTransGen (Change c st (m.facing st.faults)) m' (st.next c m) →
      Kept naming (fun scope ↦ m.state.LiveOn scope ∨
        ∃ s v, st.Storing c m s v ∧ v.record.scopeId = scope) m'.state from
    (hkept _ (st.course c m hstart) .refl).indexed h.inhabited
  intro m' hbefore
  induction hbefore with
  | refl => exact fun _ ↦ (Kept.of_indexed hm hnamed).mono fun _ ↦ .inl
  | @tail m₁ m₂ hbefore hc ih =>
    intro hafter
    refine hc.kept hcrash (ih (.head hc hafter)) (fun v hv heq ↦ ?_) h.counted
    have hstoring : st.Storing c m m₁.state v := ⟨hv, m₁, m₂, rfl, heq, hbefore, hafter⟩
    obtain ⟨hclass, hscope⟩ := h.uncontended _ v hstoring
    exact ⟨hclass, hscope, h.named _ v hstoring, fun _ ↦ .inr ⟨_, v, hstoring, rfl⟩⟩

/-- A step that stores no assignment and grants nothing is orderly. -/
theorem Step.orderly_of_unstored {c : FabricConfig} {m : Impl} {st : Step}
    (naming : ScopeId → ScopeSpec) (hstart : ∀ boot, st.op ≠ .start boot) (hcrash : st.op ≠ .crash)
    (hstores : ∀ s v, ¬ Stores c st.now m.state s st.op v)
    (hgrant : ∀ g, st.op ≠ .grantAuthority g) : st.Orderly c naming m := by
  have hassignments : (st.next c m).state.assignments = m.state.assignments := by
    apply Step.active (P := fun m' ↦ m'.state.assignments = m.state.assignments) hstart hcrash rfl
    intro m₁ m₂ hc _ hm₁
    rcases hc.assignments hcrash with h | ⟨v, _, _, _, hv, _⟩
    · rw [h, hm₁]
    · exact absurd hv (hstores _ v)
  constructor
  · intro s v hv
    exact absurd hv.stores (hstores s v)
  · intro s v hv
    exact absurd hv.stores (hstores s v)
  · rintro scope - (⟨r, hr, hlive⟩ | ⟨s, v, hv, -⟩)
    · rw [← hassignments] at hr
      exact ⟨r, hr, hlive⟩
    · exact absurd hv.stores (hstores s v)
  · intro g d hop
    exact absurd hop (hgrant g)

/-- A step other than a start, a crash and a shutdown leaves the runtime up or down. -/
theorem Step.next_running {c : FabricConfig} {m : Impl} (st : Step)
    (hstart : ∀ boot, st.op ≠ .start boot) (hcrash : st.op ≠ .crash)
    (hshutdown : st.op ≠ .shutdown) : (st.next c m).running = m.running := by
  apply Step.active (P := fun m' ↦ m'.running = m.running) hstart hcrash rfl
  intro m₁ m₂ hc _ hm₁
  rw [(hc.flags hcrash hshutdown).1, hm₁]

/-! ## Starts -/

/-- The scopes of a rebuilt state are those of its live assignments. -/
theorem FabricState.of_specEntry_rebuildIndexes {naming : ScopeId → ScopeSpec} {s : FabricState}
    (hnamed : s.Every (NamedBy naming)) :
    Of specEntry s.assignments.values s.rebuildIndexes.scopeSpecs := by
  rw [rebuildIndexes_scopeSpecs]
  refine of_build fun x hx y hy scope v w hv hw ↦ ?_
  obtain ⟨-, hne, hxs, rfl⟩ := specEntry_eq_some.mp hv
  obtain ⟨-, -, hys, rfl⟩ := specEntry_eq_some.mp hw
  rw [hnamed x hx (hxs ▸ hne), hnamed y hy (hys ▸ hne), hxs, hys]

/-- What a start has of the indexes while it suspends: the claims are held, and the scopes and
uses are those of the live assignments. -/
private structure Restarting (naming : ScopeId → ScopeSpec) (s : FabricState) : Prop where
  held : s.Held
  specs : Of specEntry s.assignments.values s.scopeSpecs
  used : ∀ g ∈ s.authority.values, g.used = grantUses s.assignments g.id
  named : s.Every (NamedBy naming)

private theorem restarting_suspends {c : FabricConfig} {now : Micros} {m m' : Impl}
    {naming : ScopeId → ScopeSpec} (h : Suspends c now m m') (hm : Restarting naming m.state) :
    Restarting naming m'.state := by
  cases h with
  | settled _ => exact hm
  | @stored l r r' type payload hfind hlive _ hr _ _ =>
    have hscope : r'.scopeId = r.scopeId ∧ r'.scope = r.scope ∧ r'.id = r.id := by
      rw [hr]
      exact ⟨rfl, rfl, rfl⟩
    have hlive' : r'.state.isLive = true := by
      rw [hr]
      rfl
    have hmem := Table.mem_values_of_find? hfind
    have hentry : r'.specEntry = r.specEntry := by
      unfold specEntry
      rw [hlive, hlive', hscope.1, hscope.2.1]
    refine ⟨ClaimedIn.insertAssignment hm.held r', ?_, Kept.used_insertAssignment _ r',
      hm.named.insert ?_ (insertAssignment_assignments _ r')⟩
    · -- the suspended assignment stands for its scope as it did
      have hspecs : (m.state.insertAssignment r').scopeSpecs = m.state.scopeSpecs := by
        rw [insertAssignment_scopeSpecs]
        by_cases hne : r'.scopeId ≠ .empty
        · have hcurrent : m.state.scopeSpecs[r'.scopeId]? = some r'.scope := by
            rw [hm.specs, hscope.1, hscope.2.1]
            exact ⟨r, hmem, specEntry_eq_some.mpr ⟨hlive, hscope.1 ▸ hne, rfl, rfl⟩⟩
          rw [if_pos hne]
          apply Std.ExtTreeMap.ext_getElem?
          intro k
          rw [Std.ExtTreeMap.getElem?_insert]
          simp only [Std.LawfulEqCmp.compare_eq_iff_eq]
          split
          · next heq => rw [← heq, hcurrent]
          · rfl
        · rw [if_neg hne]
      rw [hspecs, insertAssignment_assignments]
      intro scope spec
      rw [hm.specs scope spec]
      constructor
      · rintro ⟨x, hx, he⟩
        by_cases hxr : x.id = r'.id
        · have hsame : x = r := by
            have hx' := Table.mem_values.mp hx
            rw [key_assignment, hxr, hscope.2.2, hfind] at hx'
            exact (Option.some.inj hx').symm
          exact ⟨r', mem_values_insert.mpr (.inl rfl), by rw [hentry, ← hsame, he]⟩
        · exact ⟨x, mem_values_insert.mpr (.inr ⟨hxr, hx⟩), he⟩
      · rintro ⟨x, hx, he⟩
        rcases mem_values_insert.mp hx with rfl | ⟨-, hx⟩
        · exact ⟨r, hmem, hentry ▸ he⟩
        · exact ⟨x, hx, he⟩
    · intro hne
      rw [hscope.2.1, hscope.1]
      exact hm.named r hmem (hscope.1 ▸ hne)

/-- A state whose live assignments are suspended has no claims. -/
private theorem indexed_of_suspended {naming : ScopeId → ScopeSpec} {s : FabricState}
    (h : Restarting naming s)
    (hall : ∀ r ∈ s.assignments.values, r.state.isLive = true → r.state = .suspended) :
    s.Indexed := by
  have hnone : ∀ r ∈ s.assignments.values, ¬ r.holdsExclusive = true := by
    intro r hr hholds
    have hstate := hall r hr (isLive_of_holdsExclusive hholds)
    unfold holdsExclusive at hholds
    rw [hstate] at hholds
    simp [AssignmentState.holdsAuthority] at hholds
  refine ⟨fun k id ↦ ?_, fun scope id ↦ ?_, h.specs, h.used⟩
  · constructor
    · intro hk
      obtain ⟨r, hr, hclaims⟩ := h.held.byClass k id hk
      exact absurd hclaims.1 (hnone r (Table.mem_values_of_find? hr))
    · rintro ⟨r, hr, he⟩
      unfold classEntry at he
      rw [if_neg fun hclaims ↦ hnone r hr hclaims.1] at he
      cases he
  · constructor
    · intro hk
      obtain ⟨r, hr, hclaims⟩ := h.held.byScope scope id hk
      exact absurd hclaims.1 (hnone r (Table.mem_values_of_find? hr))
    · rintro ⟨r, hr, he⟩
      unfold scopeEntry at he
      rw [if_neg fun hclaims ↦ hnone r hr hclaims.1] at he
      cases he

/-- A start that leaves the runtime running leaves it indexed. -/
theorem Start.indexed {c : FabricConfig} {now : Micros} {boot : BootId} {m m' : Impl}
    {naming : ScopeId → ScopeSpec} (h : Start c now boot m m')
    (hnamed : m.Every c (NamedBy naming))
    (hm : m.running = true ∨ c.hasStore = false → m.state.Indexed)
    (hrun : m'.running = true ∨ c.hasStore = false) : m'.state.Indexed := by
  have hidle : ∀ {P : Prop} {x : Impl}, c.hasStore = true → x.running = false →
      (x.running = true ∨ c.hasStore = false) → P := by
    intro P x hstore hstop hx
    rw [hstore, hstop] at hx
    simp at hx
  cases h with
  | refused _ => exact hm hrun
  | bare hbare _ =>
    have hbefore := hm (.inr hbare)
    exact ⟨hbefore.byClass, hbefore.byScope, hbefore.specs, hbefore.used⟩
  | unreadable hstore hstop _ _ => exact hidle (x := { m with }) hstore hstop hrun
  | exhausted hstore hstop _ _ => exact hidle (x := { m with }) hstore hstop hrun
  | unrecorded hstore hstop _ _ _ _ => exact hidle (x := { m with }) hstore hstop hrun
  | suspending hstore hr hs =>
    have hstop : m'.running = false := by
      obtain ⟨l, s, counter, payload, l', -, -, -, -, -, rfl⟩ := hr.exists_recovery
      have hstop := hr.stopped
      clear hrun hr
      induction hs with
      | refl => exact hstop
      | tail _ hc ih => cases hc <;> exact ih
    exact hidle hstore hstop hrun
  | @launched m₁ m₂ accepted hstore hr hs hall =>
    obtain ⟨l, s, counter, payload, l', hl, hrecover, -, -, -, rfl⟩ := hr.exists_recovery
    have hrecovered : s.Every (NamedBy naming) := by
      have hevery := (hnamed.log.same hl).recover hnamed.memory
      rw [hrecover] at hevery
      exact hevery
    have hfirst : Restarting naming (s.restarting counter boot).applyRecoveryInvariants := by
      refine ⟨(held_rebuildIndexes s).of_eq rfl rfl rfl, ?_, ?_, ?_⟩
      · have hspecs := of_specEntry_rebuildIndexes hrecovered
        rw [← rebuildIndexes_assignments] at hspecs
        exact hspecs
      · intro g hg
        have hfind : s.rebuildIndexes.authority.find? g.id = some g := Table.mem_values.mp hg
        rw [rebuildIndexes_eq] at hfind
        simp only [Table.find?_mapValues] at hfind
        obtain ⟨g', -, rfl⟩ := Option.map_eq_some_iff.mp hfind
        change _ = grantUses s.rebuildIndexes.assignments _
        rw [rebuildIndexes_assignments]
      · exact hrecovered.of_eq (rebuildIndexes_assignments s)
    have hlast : Restarting naming m₂.state := by
      clear hall hrun
      induction hs with
      | refl => exact hfirst
      | tail _ hc ih => exact restarting_suspends hc ih
    exact indexed_of_suspended hlast hall

/-! ## Runs -/

/-- Every step of the run that a running runtime takes is orderly, but for crashes. -/
def OrderlyRun (c : FabricConfig) (naming : ScopeId → ScopeSpec) (steps : List Step) : Prop :=
  ∀ before st, before ++ [st] <+: steps → (run c before).running = true → st.op ≠ .crash →
    st.Orderly c naming (run c before)

theorem OrderlyRun.init {c : FabricConfig} {naming : ScopeId → ScopeSpec} {steps : List Step}
    {st : Step} (h : OrderlyRun c naming (steps ++ [st])) : OrderlyRun c naming steps :=
  fun before x hfront ↦ h before x (hfront.trans (List.prefix_append _ _))

theorem OrderlyRun.nil (c : FabricConfig) (naming : ScopeId → ScopeSpec) :
    OrderlyRun c naming [] := by
  intro before st hfront
  simp at hfront

theorem OrderlyRun.snoc {c : FabricConfig} {naming : ScopeId → ScopeSpec} {steps : List Step}
    {st : Step} (h : OrderlyRun c naming steps)
    (hst : (run c steps).running = true → st.Orderly c naming (run c steps)) :
    OrderlyRun c naming (steps ++ [st]) := by
  intro before x hfront hrun hcrash
  rcases List.prefix_concat_iff.mp hfront with heq | hfront
  · obtain ⟨rfl, hx⟩ := List.append_inj' heq rfl
    cases hx
    exact hst hrun
  · exact h before x hfront hrun hcrash

/-- Every assignment of an orderly run is on the scope that its identity names. -/
theorem OrderlyRun.named {c : FabricConfig} {naming : ScopeId → ScopeSpec} {steps : List Step}
    (h : OrderlyRun c naming steps) : (run c steps).Every c (NamedBy naming) := by
  have hevery := run_every (c := c) (E := fun steps r ↦ OrderlyRun c naming steps →
    r.NamedBy naming) ?_ ?_ ?_ steps
  · exact hevery.mono fun r hr ↦ hr h
  · intro steps st r hr hnext
    exact hr hnext.init
  · intro steps st s v hrun _ _ hv hnext
    have hcrash : st.op ≠ .crash := by
      intro hop
      have hstores := hv.stores
      rw [hop] at hstores
      cases hstores with
      | revalidated hop => cases hop
      | superseded ha => cases ha.asked
      | created ha => cases ha.asked
    exact (hnext steps st List.prefix_rfl hrun hcrash).named s v hv
  · intro steps st boot r _ hr _ _ hnext
    exact hr hnext

/-- Every running state of an orderly run is indexed. -/
theorem OrderlyRun.indexed {c : FabricConfig} {naming : ScopeId → ScopeSpec} {steps : List Step}
    (h : OrderlyRun c naming steps) (hrun : (run c steps).running = true ∨ c.hasStore = false) :
    (run c steps).state.Indexed := by
  have hempty : FabricState.Indexed {} :=
    (Kept.empty naming fun _ ↦ False).indexed fun _ _ hfalse ↦ hfalse.elim
  refine run_induction (P := fun steps m ↦ OrderlyRun c naming steps →
    (m.running = true ∨ c.hasStore = false) → m.state.Indexed) ?_ ?_ steps h hrun
  · intro _ _
    exact hempty
  · intro steps st ih hnext hup
    have hbefore := ih hnext.init
    by_cases hstart : ∃ boot, st.op = .start boot
    · obtain ⟨boot, hop⟩ := hstart
      exact (st.start_next c _ hop).indexed (hnext.init.named.facing _) hbefore hup
    have hstart : ∀ boot, st.op ≠ .start boot := fun boot hop ↦ hstart ⟨boot, hop⟩
    by_cases hcrash : st.op = .crash
    · rw [st.next_crash c _ hcrash]
      exact hempty
    · cases hrunning : (run c steps).running with
      | true =>
        exact (hnext steps st List.prefix_rfl hrunning hcrash).indexed hstart hcrash
          (hbefore (.inl hrunning)) hnext.init.named.memory
      | false =>
        rcases st.next_idle c _ hstart hrunning with ⟨b, heq⟩ | ⟨hop, -⟩
        · rw [heq] at hup ⊢
          refine hbefore (hup.imp_left fun hb ↦ ?_)
          exact hb
        · exact absurd hop hcrash

/-- **Recovered indexes are the live ones** along every orderly run: a rebuilding of the indexes
of a running runtime leaves them, and what is answered from them. -/
theorem indexes_rebuild_alike (c : FabricConfig) (naming : ScopeId → ScopeSpec)
    (steps : List Step) (h : OrderlyRun c naming steps)
    (hrun : (run c steps).running = true) : (run c steps).state.RebuildsAlike :=
  (h.indexed (.inl hrun)).rebuildsAlike

namespace Sample

/-- The scope of the placement on one host. -/
def hostScope : ScopeSpec := { kind := .host, domain := host }

/-- The placement on one host. -/
def hostStep : Step := step (.apply { request with scope := hostScope } {})

/-- A run whose placement on one host was revoked. -/
def hostRevoked : List Step := hostPlaced ++ [step (.revoke { assignment := first })]

/-- Whether the placement on one host is the first of the runtime and is stored on its scope. -/
def placesFirst (m : Impl) : Bool :=
  m.running && m.state.assignments.values.isEmpty &&
    match hostStep.op.authorization {} hostStep.now m.state with
    | none => true
    | some (p, options, t) =>
      decide (p.scope = hostScope) &&
        match m.state.authorizeChecks ({} : FabricConfig).bounds p options.allowReplacement t with
        | .error _ => true
        | .ok auth => (hostStep.next {} m).state.assignments.values.any fun r ↦
            r.state.isLive && decide (r.scopeId = auth.scope)

/-- What the first placement stores, it stores alone, on its scope. -/
private theorem hostStep_stores {m : Impl} (h : placesFirst m = true) {s : FabricState}
    {v : RecordedAssignment} (hv : Stores {} hostStep.now m.state s hostStep.op v) :
    s.assignments.values = [] ∧ v.record.scope = hostScope ∧
      (hostStep.next {} m).state.LiveOn v.record.scopeId := by
  unfold placesFirst at h
  simp only [Bool.and_eq_true, List.isEmpty_iff] at h
  obtain ⟨⟨-, hnone⟩, h⟩ := h
  have hfind : ∀ id, m.state.assignments.find? id = none := by
    intro id
    cases hr : m.state.assignments.find? id with
    | none => rfl
    | some r =>
      have hmem := Table.mem_values_of_find? hr
      rw [hnone] at hmem
      cases hmem
  generalize hop : hostStep.op = op at hv
  cases hv with
  | revalidated hop' =>
    rw [← hop] at hop'
    cases hop'
  | revoked _ _ _ _ => cases hop
  | reauthorized _ _ _ => cases hop
  | reported _ _ _ _ => cases hop
  | superseded _ hs _ hprevious =>
    rw [hs.assignments, hfind] at hprevious
    cases hprevious
  | @created _ p options auth t i issued ha hi hs =>
    obtain ⟨hasked, hchecked⟩ := ha
    rw [hop, hasked] at h
    simp only [hchecked, Bool.and_eq_true, decide_eq_true_eq] at h
    have hsame : s = issued := by
      rw [hs]
      unfold superseding
      rw [hi.assignments, hfind]
      exact ite_self _
    obtain ⟨r, hr, hlive⟩ := List.any_eq_true.mp h.2
    simp only [Bool.and_eq_true, decide_eq_true_eq] at hlive
    refine ⟨?_, h.1, r, hr, hlive⟩
    rw [hsame, hi.assignments]
    exact hnone

private theorem hostStep_orderly {m : Impl} (h : placesFirst m = true) :
    hostStep.Orderly {} (fun _ ↦ hostScope) m := by
  constructor
  · intro s v hv
    have hnone := (hostStep_stores h hv.stores).1
    constructor <;> intro x hx <;> rw [hnone] at hx <;> cases hx
  · intro s v hv _
    exact (hostStep_stores h hv.stores).2.1
  · rintro scope - (⟨r, hr, -⟩ | ⟨s, v, hv, rfl⟩)
    · unfold placesFirst at h
      simp only [Bool.and_eq_true, List.isEmpty_iff] at h
      rw [h.1.2] at hr
      cases hr
    · exact (hostStep_stores h hv.stores).2.2
  · intro g d hop
    cases hop

/-- An ingestion finds nothing to revalidate before the first placement. -/
private theorem ingest_orderly {op : Op} {m : Impl}
    (hop : op = .ingestTopology topology ∨ op = .ingestPolicy policy)
    (hnone : m.state.assignments.values = []) :
    (step op).Orderly {} (fun _ ↦ hostScope) m := by
  apply Step.orderly_of_unstored
  · intro boot hstart
    change op = _ at hstart
    rw [hstart] at hop
    simp at hop
  · intro hcrash
    change op = _ at hcrash
    rw [hcrash] at hop
    simp at hop
  · intro s v hv
    change Stores _ _ _ _ op v at hv
    have hauthorization : op.authorization {} (fun _ ↦ 2) m.state = none := by
      rcases hop with rfl | rfl <;> rfl
    have hbase : ∀ base t, op.revalidation {} (fun _ ↦ 2) m.state = some (base, t) →
        base.assignments = m.state.assignments := by
      intro base t h
      unfold Op.revalidation at h
      rcases hop with rfl | rfl
      all_goals
        simp only at h
        split at h
        · next d hd =>
          cases h
          rw [(Op.delivery_frame hd).2]
        · cases h
    cases hv with
    | revalidated hr _ _ hfind =>
      have hmem := Table.mem_values_of_find? hfind
      rw [hbase _ _ hr, hnone] at hmem
      cases hmem
    | superseded ha => cases hauthorization.symm.trans ha.asked
    | created ha => cases hauthorization.symm.trans ha.asked
    | _ => simp at hop
  · intro g hgrant
    change op = _ at hgrant
    rw [hgrant] at hop
    simp at hop

private theorem unplaced :
    (run {} [step (.start boot)]).state.assignments.values = [] ∧
      (run {} [step (.start boot), step (.ingestTopology topology)]).state.assignments.values =
        [] := by decide +kernel

private theorem placesFirst_ready : placesFirst (run {} ready) = true := by decide +kernel

/-- The scopes that a revocation leaves behind are dropped by a rebuilding. -/
private theorem scopes_hostRevoked :
    let m := run {} hostRevoked
    m.running = true ∧ m.state.scopeSpecs.isEmpty = false ∧
      m.state.rebuildIndexes.scopeSpecs.isEmpty = true := by decide +kernel

end Sample

/-- The indexes of the placement on one host are those that a rebuilding derives. -/
theorem indexes_rebuild_alike_placed : (run {} Sample.hostPlaced).state.RebuildsAlike := by
  have hplaces := Sample.placesFirst_ready
  have hstart : OrderlyRun {} (fun _ ↦ Sample.hostScope)
      ([] ++ [Sample.step (.start Sample.boot)]) :=
    (OrderlyRun.nil _ _).snoc fun hrun ↦ absurd hrun Bool.false_ne_true
  have htopology : OrderlyRun {} (fun _ ↦ Sample.hostScope)
      ([Sample.step (.start Sample.boot)] ++ [Sample.step (.ingestTopology Sample.topology)]) :=
    OrderlyRun.snoc hstart fun _ ↦ Sample.ingest_orderly (.inl rfl) Sample.unplaced.1
  have hready : OrderlyRun {} (fun _ ↦ Sample.hostScope)
      ([Sample.step (.start Sample.boot), Sample.step (.ingestTopology Sample.topology)] ++
        [Sample.step (.ingestPolicy Sample.policy)]) :=
    OrderlyRun.snoc htopology fun _ ↦ Sample.ingest_orderly (.inr rfl) Sample.unplaced.2
  have hrun : (run {} Sample.hostPlaced).running = true := by
    unfold Sample.placesFirst at hplaces
    simp only [Bool.and_eq_true] at hplaces
    have hready := hplaces.1.1
    change (run {} (Sample.ready ++ [Sample.hostStep])).running = true
    rw [run_append]
    rw [Step.next_running Sample.hostStep (by rintro _ ⟨⟩) (by rintro ⟨⟩) (by rintro ⟨⟩)]
    exact hready
  exact indexes_rebuild_alike {} _ Sample.hostPlaced
    (OrderlyRun.snoc hready fun _ ↦ Sample.hostStep_orderly hplaces) hrun

/-- **A rebuilding drops the scope of a revoked assignment**, which the running runtime still
answers for. -/
theorem indexes_not_rebuilt_alike : ¬ ∀ (c : FabricConfig) (steps : List Step),
    (run c steps).running = true → (run c steps).state.RebuildsAlike := by
  intro h
  obtain ⟨hrun, hkept, hdropped⟩ := Sample.scopes_hostRevoked
  have halike := (h _ _ hrun).specs
  rw [halike, hkept] at hdropped
  cases hdropped

end OffloadFabric
