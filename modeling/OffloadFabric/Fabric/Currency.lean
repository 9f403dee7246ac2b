import OffloadFabric.Fabric.Mirror

/-!
# Currency of evidence

Evidence is current when its source has delivered in its domain since the last start what is
above the floor that start set (`src/fabric.cpp:1001-1005,2265-2273`). A start sets the floor of
every source to its mark, and marks only rise, so what a mark covers at a start is not current
again.
-/

namespace OffloadFabric

open Lib Lib.Fallible FabricState

/-- A piece of evidence. -/
inductive Evidence where
  | topology (t : TopologySnapshot)
  | policy (p : PolicySnapshot)
  | capability (r : CapabilityRecord)
  | observation (o : DeviceObservation)
  | grant (g : AuthorityGrant)

namespace Evidence

/-- The provenance the evidence carries itself. -/
def provenance : Evidence → Provenance
  | topology t => t.provenance
  | policy p => p.provenance
  | capability r => r.provenance
  | observation o => o.provenance
  | grant g => g.provenance

def domain : Evidence → EvidenceDomain
  | topology _ => .topology
  | policy _ => .policy
  | capability _ => .capability
  | observation _ => .observation
  | grant _ => .authority

/-- The source whose mark decides whether the evidence is current. -/
def source (e : Evidence) : SourceKey := ⟨e.provenance.source, e.domain⟩

/-- Evidence that is a delivery of its own; the others are records of a report that carries a
provenance of its own. -/
def Whole : Evidence → Prop
  | topology _ | policy _ | grant _ => True
  | capability _ | observation _ => False

end Evidence

namespace FabricState

/-- The evidence a state holds. -/
def Holds (s : FabricState) : Evidence → Prop
  | .topology t => s.topology = some t
  | .policy p => s.policy = some p
  | .capability r => s.lookupCapability r.device r.cls = some r
  | .observation o => s.observations.find? o.device = some o
  | .grant g => s.authority.find? g.id = some g

/-- Evidence is current, `src/fabric.cpp:1001-1005`. -/
def Current (s : FabricState) (e : Evidence) : Prop :=
  s.evidenceCurrent e.provenance.source e.domain e.provenance.sequence = true

/-- The mark of its source covers the evidence. -/
def Covered (s : FabricState) (e : Evidence) : Prop :=
  ∃ entry, s.sources[e.source]? = some entry ∧ entry.seen = true ∧
    e.provenance.sequence ≤ entry.lastSequence

/-- The floor of its source is not below the evidence. -/
def Floored (s : FabricState) (e : Evidence) : Prop :=
  ∃ entry, s.sources[e.source]? = some entry ∧ e.provenance.sequence ≤ entry.restartFloor

theorem current_iff {s : FabricState} {e : Evidence} : s.Current e ↔
    ∃ entry, s.sources[e.source]? = some entry ∧ entry.seen = true ∧
      entry.restartFloor < e.provenance.sequence := by
  unfold Current evidenceCurrent Evidence.source
  cases s.sources[SourceKey.mk e.provenance.source e.domain]? with
  | none => simp
  | some entry => simp [SourceState.isCurrent]

theorem Floored.not_current {s : FabricState} {e : Evidence} (h : s.Floored e) :
    ¬ s.Current e := by
  intro hcurrent
  obtain ⟨entry, hentry, hle⟩ := h
  obtain ⟨entry', hentry', -, hlt⟩ := current_iff.mp hcurrent
  rw [hentry, Option.some.injEq] at hentry'
  rw [hentry'] at hle
  exact absurd hlt (not_lt.mpr hle)

/-- The sources and the observations as a start leaves them: every floor at its mark, nothing
observed. -/
structure Refloored (s : FabricState) : Prop where
  observations : ∀ d, s.observations.find? d = none
  floor : ∀ (k : SourceKey) (entry : SourceState), s.sources[k]? = some entry →
    entry.restartFloor = entry.lastSequence

theorem refloored_applyRecoveryInvariants (s : FabricState) :
    s.applyRecoveryInvariants.Refloored := by
  refine ⟨fun d ↦ Table.find?_empty d, fun k entry hentry ↦ ?_⟩
  have hentry : (s.sources.map _)[k]? = some entry := hentry
  rw [Std.ExtTreeMap.getElem?_map, Option.map_eq_some_iff] at hentry
  obtain ⟨entry', -, rfl⟩ := hentry
  rfl

theorem Refloored.of_sameEvidence {s t : FabricState} (h : s.Refloored) (hs : SameEvidence s t) :
    t.Refloored :=
  ⟨fun d ↦ hs.observations ▸ h.observations d, fun k entry hentry ↦
    h.floor k entry (hs.sources ▸ hentry)⟩

/-- A start puts the floors at the marks. -/
theorem Covered.floored {s : FabricState} {e : Evidence} (h : s.Covered e) (hs : s.Refloored) :
    s.Floored e := by
  obtain ⟨entry, hentry, -, hle⟩ := h
  exact ⟨entry, hentry, (hs.floor _ _ hentry).symm ▸ hle⟩

/-- The mark of its source is behind the evidence. -/
def Ahead (s : FabricState) (e : Evidence) : Prop :=
  ∃ entry, s.sources[e.source]? = some entry ∧ entry.seen = true ∧
    entry.lastSequence < e.provenance.sequence

/-- After a start the evidence is current that is ahead of the mark of its source. -/
theorem Refloored.current_iff {s : FabricState} (h : s.Refloored) (e : Evidence) :
    s.Current e ↔ s.Ahead e := by
  rw [FabricState.current_iff]
  refine exists_congr fun entry ↦ and_congr_right fun hentry ↦ and_congr_right fun _ ↦ ?_
  rw [h.floor _ _ hentry]

/-- What a mark covers is durable. -/
theorem durableProperty_covered (e : Evidence) : DurableProperty (·.Covered e) := by
  rintro s t hst ⟨entry, hentry, hseen, hle⟩
  have hmark : (t.sources[e.source]?).map SourceState.unfloored =
      (s.sources[e.source]?).map SourceState.unfloored := hst (.mark e.source)
  rw [hentry, Option.map_some, Option.map_eq_some_iff] at hmark
  obtain ⟨entry', hentry', heq⟩ := hmark
  have hlast : entry'.unfloored.lastSequence = entry.lastSequence := by rw [heq]; rfl
  have hseen' : entry'.unfloored.seen = entry.seen := by rw [heq]; rfl
  exact ⟨entry', hentry', hseen'.trans hseen, hlast ▸ hle⟩

/-! ## Deliveries -/

/-- Accepted evidence is above the mark of its source. -/
theorem acceptEvidence_ok {s : FabricState} {source : SourceId} {domain : EvidenceDomain}
    {sequence : UInt64} {digest : Digest}
    (h : s.acceptEvidence source domain sequence digest = .ok false) {entry : SourceState}
    (hentry : s.sources[SourceKey.mk source domain]? = some entry) (hseen : entry.seen = true) :
    entry.lastSequence ≤ sequence := by
  unfold acceptEvidence at h
  obtain ⟨-, h⟩ := require_bind_eq_ok.mp h
  rw [hentry] at h
  simp only [hseen, if_true] at h
  obtain ⟨hle, -⟩ := require_bind_eq_ok.mp h
  exact not_lt.mp hle

/-- A mark that rises keeps what it covers and every floor. -/
theorem markSource_source (s : FabricState) (source : SourceId) (domain : EvidenceDomain)
    (sequence : UInt64) (digest : Digest) (k : SourceKey) :
    (s.markSource source domain sequence digest).sources[k]? =
      if SourceKey.mk source domain = k then
        some { (s.sources[k]?).getD {} with
          lastSequence := sequence, lastDigest := digest, seen := true }
      else s.sources[k]? := by
  change (s.sources.insert _ _)[k]? = _
  rw [Std.ExtTreeMap.getElem?_insert]
  simp only [Std.LawfulEqCmp.compare_eq_iff_eq]
  split
  · next hk => rw [hk]
  · rfl

/-- What a delivery does to the sources and to the evidence: it accepts one delivery of one
source, or no source is concerned. -/
structure Delivers (s t : FabricState) : Prop where
  sources : t.sources = s.sources ∨ ∃ source domain sequence digest,
    s.acceptEvidence source domain sequence digest = .ok false ∧
      t.sources = (s.markSource source domain sequence digest).sources
  holds : ∀ e : Evidence, e.Whole → t.Holds e →
    t.Covered e ∨ ∃ e' : Evidence, e'.Whole ∧ s.Holds e' ∧ e'.source = e.source ∧
      e'.provenance = e.provenance

theorem Delivers.of_sources {s t : FabricState} (hsources : t.sources = s.sources)
    (holds : ∀ e : Evidence, e.Whole → t.Holds e → ∃ e' : Evidence, e'.Whole ∧ s.Holds e' ∧
      e'.source = e.source ∧ e'.provenance = e.provenance) : Delivers s t :=
  ⟨.inl hsources, fun e he h ↦ .inr (holds e he h)⟩

/-- The delivery of a source: the mark covers what it brings. -/
theorem Delivers.of_mark {s t : FabricState} {source : SourceId} {domain : EvidenceDomain}
    {sequence : UInt64} {digest : Digest}
    (haccept : s.acceptEvidence source domain sequence digest = .ok false)
    (hsources : t.sources = (s.markSource source domain sequence digest).sources)
    (holds : ∀ e : Evidence, e.Whole → t.Holds e → s.Holds e ∨
      e.source = ⟨source, domain⟩ ∧ e.provenance.sequence = sequence) : Delivers s t := by
  refine ⟨.inr ⟨source, domain, sequence, digest, haccept, hsources⟩, fun e he h ↦ ?_⟩
  rcases holds e he h with hold | ⟨hsource, hsequence⟩
  · exact .inr ⟨e, he, hold, rfl, rfl⟩
  · left
    unfold Covered
    rw [hsources, hsource, markSource_source, if_pos rfl]
    exact ⟨_, rfl, rfl, hsequence.le⟩

namespace Delivers

variable {s t : FabricState} {e : Evidence}

/-- What was covered stays covered. -/
theorem covered (h : Delivers s t) (hs : s.Covered e) : t.Covered e := by
  obtain ⟨entry, hentry, hseen, hle⟩ := hs
  rcases h.sources with heq | ⟨source, domain, sequence, digest, haccept, heq⟩
  · exact ⟨entry, heq ▸ hentry, hseen, hle⟩
  · unfold Covered
    rw [heq, markSource_source]
    by_cases hk : SourceKey.mk source domain = e.source
    · rw [if_pos hk]
      refine ⟨_, rfl, rfl, hle.trans ?_⟩
      rw [← hk] at hentry
      exact acceptEvidence_ok haccept hentry hseen
    · rw [if_neg hk]
      exact ⟨entry, hentry, hseen, hle⟩

/-- Floors stay where they are. -/
theorem floored (h : Delivers s t) (hs : s.Floored e) : t.Floored e := by
  obtain ⟨entry, hentry, hle⟩ := hs
  rcases h.sources with heq | ⟨source, domain, sequence, digest, haccept, heq⟩
  · exact ⟨entry, heq ▸ hentry, hle⟩
  · unfold Floored
    rw [heq, markSource_source]
    by_cases hk : SourceKey.mk source domain = e.source
    · rw [if_pos hk, hentry]
      exact ⟨_, rfl, hle⟩
    · rw [if_neg hk]
      exact ⟨entry, hentry, hle⟩

end Delivers

end FabricState

/-- Every operation that delivers evidence delivers it under the mark of one source. -/
theorem Op.delivers {c : FabricConfig} {now : ClockReadings} {s : FabricState} {op : Op}
    {d : Delivery} (h : op.delivery c now s = .ok (some d)) : Delivers s d.next := by
  cases Op.delivery_accepts h with
  | function => exact .of_sources rfl fun e he hheld ↦ ⟨e, he, by cases e <;> exact hheld, rfl, rfl⟩
  | @topology t _ _ _ haccept =>
      refine .of_mark haccept rfl fun e he hheld ↦ ?_
      cases e with
      | topology t' =>
          obtain rfl : t = t' := Option.some.inj hheld
          exact .inr ⟨rfl, rfl⟩
      | _ => exact .inl hheld
  | capabilities _ _ haccept =>
      refine .of_mark haccept rfl fun e he hheld ↦ ?_
      cases e with
      | capability r => exact absurd he id
      | _ => exact .inl hheld
  | @policy p _ _ _ haccept =>
      refine .of_mark haccept rfl fun e he hheld ↦ ?_
      cases e with
      | policy p' =>
          obtain rfl : p = p' := Option.some.inj hheld
          exact .inr ⟨rfl, rfl⟩
      | _ => exact .inl hheld
  | observations _ _ haccept =>
      refine .of_mark haccept rfl fun e he hheld ↦ ?_
      cases e with
      | observation o => exact absurd he id
      | _ => exact .inl hheld
  | @grant grant _ _ _ haccept _ =>
      refine .of_mark haccept rfl fun e he hheld ↦ ?_
      cases e with
      | grant g =>
          change (s.authority.insert grant).find? g.id = some g at hheld
          rw [Table.find?_insert] at hheld
          split at hheld
          · obtain rfl : grant = g := Option.some.inj hheld
            exact .inr ⟨rfl, rfl⟩
          · exact .inl hheld
      | _ => exact .inl hheld
  | @withdrawal id _ grant hfind _ =>
      refine .of_sources rfl fun e he hheld ↦ ?_
      cases e with
      | grant g =>
          change (s.authority.insert { grant with revoked := true }).find? g.id = some g at hheld
          rw [Table.find?_insert] at hheld
          split at hheld
          · have hid : grant.id = id := Table.key_of_find? hfind
            obtain rfl := Option.some.inj hheld
            rw [← hid] at hfind
            exact ⟨.grant grant, trivial, hfind, rfl, rfl⟩
          · exact ⟨_, he, hheld, rfl, rfl⟩
      | _ => exact ⟨_, he, hheld, rfl, rfl⟩

/-! ## Runs -/

/-- Every whole piece of evidence a state holds is covered by the mark of its source. -/
def FabricState.Marked (s : FabricState) : Prop :=
  ∀ e : Evidence, e.Whole → s.Holds e → s.Covered e

theorem FabricState.Covered.of_provenance {s : FabricState} {e e' : Evidence} (h : s.Covered e')
    (hsource : e'.source = e.source) (hprovenance : e'.provenance = e.provenance) :
    s.Covered e := by
  unfold FabricState.Covered at h ⊢
  rwa [← hsource, ← hprovenance]

theorem durableProperty_marked : DurableProperty FabricState.Marked := by
  intro s t hst hs e he hheld
  refine durableProperty_covered e s t hst ?_
  cases e with
  | topology x => exact hs (.topology x) he ((hst .topology).symm.trans hheld)
  | policy x => exact hs (.policy x) he ((hst .policy).symm.trans hheld)
  | grant g =>
      have hgrant : (t.authority.find? g.id).map AuthorityGrant.unused =
          (s.authority.find? g.id).map AuthorityGrant.unused := hst (.grant g.id)
      have hheld : t.authority.find? g.id = some g := hheld
      rw [hheld, Option.map_some, eq_comm, Option.map_eq_some_iff] at hgrant
      obtain ⟨g', hg', heq⟩ := hgrant
      have hid : g'.id = g.id := Table.key_of_find? hg'
      rw [← hid] at hg'
      have hprovenance : g'.unused.provenance = g.provenance := by rw [heq]; rfl
      have hprovenance : (Evidence.grant g').provenance = (Evidence.grant g).provenance :=
        hprovenance
      refine (hs (.grant g') trivial hg').of_provenance ?_ hprovenance
      unfold Evidence.source
      rw [hprovenance]
      rfl
  | _ => exact absurd he id

/-- Storing an assignment touches no evidence. -/
private theorem FabricState.Marked.storing {s : FabricState} (h : s.Marked)
    (assignments : Table AssignmentRecord) : ({ s with assignments } : FabricState).Marked :=
  fun e he hheld ↦ h e he (by cases e <;> exact hheld)

variable {c : FabricConfig}

/-- While a runtime runs, its sources cover the whole evidence it holds; so does every recovery
of its log. -/
theorem keeps_marked (hstore : c.hasStore = true) (steps : List Step) :
    (run c steps).Keeps c FabricState.Marked := by
  refine run_induction (P := fun _ m ↦ m.Keeps c FabricState.Marked) ?_ (fun steps st h ↦ ?_)
    steps
  · refine .nil fun e he hheld ↦ ?_
    cases e with
    | topology _ => cases hheld
    | policy _ => cases hheld
    | grant g => exact absurd hheld (by simp [FabricState.Holds])
    | _ => exact absurd he id
  · refine h.next hstore (Impl.Durable.run hstore steps) durableProperty_marked st ?_ ?_ ?_
    · intro _ d hd hs e he hheld
      have hdelivers := Op.delivers hd
      rcases hdelivers.holds e he hheld with hcovered | ⟨e', he', hheld', hsource, hprov⟩
      · exact hcovered
      · exact (hdelivers.covered (hs e' he' hheld')).of_provenance hsource hprov
    · exact fun _ s v _ _ hs ↦ hs.storing _
    · exact fun _ _ s r _ _ _ hs ↦ hs.storing _

/-! ## Floors -/

/-- A change accepts a delivery or leaves the sources. -/
theorem Change.sources {st : Step} {m₀ m m' : Impl} (h : Change c st m₀ m m')
    (hcrash : st.op ≠ .crash) :
    m'.state.sources = m.state.sources ∨ Delivers m.state m'.state := by
  cases h with
  | delivered hm hd hp hl => exact .inr (Op.delivers hd)
  | stored hmiss hv hp hr hl => exact .inl (sameEvidence_storing _ _ _ _ _).sources
  | refused hmiss hid hk hr hp hl =>
      exact .inl (sameEvidence_recordIdempotency _ _ _ _).sources
  | issued hop hi => exact .inl (by cases hi <;> rfl)
  | crashed hop => exact absurd hop hcrash
  | _ => exact .inl rfl

/-- A start that leaves the runtime running puts the floors at the marks. -/
theorem Start.refloored {now : Micros} {boot : BootId} {m m' : Impl}
    (hstore : c.hasStore = true) (h : Start c now boot m m') (hstop : m.running = false)
    (hrun : m'.running = true) : m'.state.Refloored := by
  have hsuspends : ∀ {m₁ m₂ : Impl}, Restarted c boot m m₁ →
      Relation.ReflTransGen (Suspends c now) m₁ m₂ →
      m₂.running = false ∧ m₂.state.Refloored := by
    intro m₁ m₂ hr hs
    induction hs with
    | refl =>
        obtain ⟨l, s, counter, payload, l', -, -, -, -, -, rfl⟩ := hr.exists_recovery
        exact ⟨hstop, refloored_applyRecoveryInvariants _⟩
    | tail _ hc ih =>
        cases hc with
        | settled _ => exact ih
        | stored _ _ _ _ _ _ =>
            exact ⟨ih.1, ih.2.of_sameEvidence (sameEvidence_insertAssignment _ _)⟩
  have hidle : m'.running ≠ false := by rw [hrun]; decide
  cases h with
  | launched _ hr hs _ => exact (hsuspends hr hs).2
  | suspending _ hr hs => exact absurd (hsuspends hr hs).1 hidle
  | bare hbare _ => exact absurd (hstore.symm.trans hbare) (by decide)
  | _ => exact absurd hstop hidle

variable {m : Impl} {e : Evidence}

/-- What the marks cover, every step keeps covered. -/
theorem Impl.Keeps.covered (hstore : c.hasStore = true) (hd : m.Durable c)
    (h : m.Keeps c (·.Covered e)) (st : Step) : (st.next c m).Keeps c (·.Covered e) :=
  h.next hstore hd (durableProperty_covered e) st
    (fun _ _ hdelivery hs ↦ (Op.delivers hdelivery).covered hs) (fun _ _ _ _ _ hs ↦ hs)
    (fun _ _ _ _ _ _ _ hs ↦ hs)

/-- What is below the floors while a runtime runs, every step keeps there. -/
theorem Step.floored (hstore : c.hasStore = true) (hd : m.Durable c)
    (h : m.Keeps c (·.Covered e)) (hfloored : m.running = true → m.state.Floored e) (st : Step)
    (hrun' : (st.next c m).running = true) : (st.next c m).state.Floored e := by
  by_cases hstart : ∃ boot, st.op = .start boot
  · obtain ⟨boot, hop⟩ := hstart
    have hnext := st.start_next c m hop
    cases hrun : m.running with
    | true =>
        obtain ⟨l, shuttingDown, -, heq⟩ := hnext.of_running hrun
        rw [heq]
        exact hfloored hrun
    | false =>
        exact ((h.covered hstore hd st).held hrun').floored (hnext.refloored hstore hrun hrun')
  have hstart : ∀ boot, st.op ≠ .start boot := fun boot hop ↦ hstart ⟨boot, hop⟩
  by_cases hcrash : st.op = .crash
  · rw [st.next_crash c m hcrash] at hrun'
    cases hrun'
  cases hrun : m.running with
  | false =>
      rcases st.next_idle c m hstart hrun with ⟨b, heq⟩ | ⟨hop, -⟩
      · rw [heq] at hrun'
        exact absurd (hrun'.symm.trans hrun) (by decide)
      · exact absurd hop hcrash
  | true =>
      refine st.active (P := fun m' ↦ m'.state.Floored e) hstart hcrash (hfloored hrun)
        fun m₁ m₂ hc _ hs ↦ ?_
      rcases hc.sources hcrash with hsame | hdelivers
      · unfold FabricState.Floored
        rwa [hsame]
      · exact hdelivers.floored hs

/-- **Floors outlast runs.** What the marks cover at a start is below the floors in every state
that a runtime after it runs in. -/
theorem floored_run (hstore : c.hasStore = true) (before after : List Step)
    (h : (run c before).Keeps c (·.Covered e))
    (hfloored : (run c before).running = true → (run c before).state.Floored e) :
    (run c (before ++ after)).running = true → (run c (before ++ after)).state.Floored e := by
  suffices hall : (run c (before ++ after)).Keeps c (·.Covered e) ∧
      ((run c (before ++ after)).running = true → (run c (before ++ after)).state.Floored e) from
    hall.2
  induction after using List.reverseRecOn with
  | nil =>
      rw [List.append_nil]
      exact ⟨h, hfloored⟩
  | append_singleton steps st ih =>
      have hd := Impl.Durable.run hstore (before ++ steps)
      rw [← List.append_assoc, run_append]
      exact ⟨ih.1.covered hstore hd st, st.floored hstore hd ih.1 ih.2⟩

/-! ## Capability records -/

/-- A capability report whose records are evidence of its own source, no newer than the
report. -/
def Op.Attributed : Op → Prop
  | .ingestCapabilities report => ∀ r ∈ report.records,
      r.provenance.source = report.provenance.source ∧
        r.provenance.sequence ≤ report.provenance.sequence
  | _ => True

/-- The marks cover every capability record a state holds. -/
def FabricState.CapabilitiesMarked (s : FabricState) : Prop :=
  ∀ r, s.Holds (.capability r) → s.Covered (.capability r)

theorem durableProperty_capabilitiesMarked : DurableProperty FabricState.CapabilitiesMarked := by
  intro s t hst hs r hheld
  refine durableProperty_covered _ s t hst (hs r ?_)
  exact (hst (.capability ⟨r.device, r.cls⟩)).symm.trans hheld

/-- An attributed delivery covers the capability records it brings. -/
private theorem FabricState.CapabilitiesMarked.delivered {now : ClockReadings} {s : FabricState}
    {op : Op} {d : Delivery} (hs : s.CapabilitiesMarked) (ha : op.Attributed)
    (h : op.delivery c now s = .ok (some d)) : d.next.CapabilitiesMarked := by
  intro r hheld
  have hold : s.Holds (.capability r) → d.next.Covered (.capability r) := fun hold ↦
    (Op.delivers h).covered (hs r hold)
  cases Op.delivery_accepts h with
  | @capabilities report digest _ _ haccept =>
      change (report.records.foldl Table.insert s.capabilities).find? _ = some r at hheld
      rw [Table.find?_foldl_insert, Option.or_eq_some_iff] at hheld
      rcases hheld with hnew | ⟨-, hheld⟩
      · obtain ⟨hsource, hle⟩ := ha r (List.mem_reverse.mp (List.mem_of_find?_eq_some hnew))
        have hkey : (Evidence.capability r).source =
            ⟨report.provenance.source, .capability⟩ := by
          unfold Evidence.source
          rw [← hsource]
          rfl
        unfold FabricState.Covered
        rw [hkey, markSource_source, if_pos rfl]
        exact ⟨_, rfl, rfl, hle⟩
      · exact hold hheld
  | _ => exact hold hheld

/-- While every capability report is attributed, the marks cover every capability record that a
runtime holds; so do the marks of every recovery of its log. -/
theorem keeps_capabilitiesMarked (hstore : c.hasStore = true) (steps : List Step)
    (hsteps : ∀ st ∈ steps, st.op.Attributed) :
    (run c steps).Keeps c FabricState.CapabilitiesMarked := by
  revert hsteps
  refine run_induction (P := fun steps m ↦ (∀ st ∈ steps, st.op.Attributed) →
    m.Keeps c FabricState.CapabilitiesMarked) ?_ (fun steps st h hsteps ↦ ?_) steps
  · exact fun _ ↦ .nil fun r hheld ↦ absurd hheld (by
      simp [FabricState.Holds, FabricState.lookupCapability])
  · have hkeeps := h fun x hx ↦ hsteps x (List.mem_append_left _ hx)
    have hattributed : st.op.Attributed := hsteps st (by simp)
    exact hkeeps.next hstore (Impl.Durable.run hstore steps) durableProperty_capabilitiesMarked st
      (fun _ _ hdelivery hs ↦ hs.delivered hattributed hdelivery) (fun _ _ _ _ _ hs ↦ hs)
      (fun _ _ _ _ _ _ _ hs ↦ hs)

end OffloadFabric
