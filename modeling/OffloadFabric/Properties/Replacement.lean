import OffloadFabric.Fabric.Answers
import OffloadFabric.Fabric.Claims

/-!
# Replacements

Which assignment a replacement replaces: `src/fabric.cpp:3828-3864` names one, and
`src/fabric.cpp:3402-3423,3543-3565` supersede the one that a search for the exclusive claims on
the scope of the placement finds.
-/

namespace OffloadFabric

open Lib Lib.Fallible FabricM FabricState

/-- The named assignment is superseded by a new one, which is the only holder over its scope and
class, and every other assignment is as it was. -/
structure Replaced (before after : Table AssignmentRecord) (current r : AssignmentRecord) :
    Prop where
  new : before.find? r.id = none
  superseded : ∃ x, after.find? current.id = some x ∧ x.state = .superseded
  stored : after.find? r.id = some r
  holds : r.state.holdsAuthority = true
  scope : r.scopeId = current.scopeId
  cls : r.cls = current.cls
  only : ∀ x ∈ after.values, x.state.holdsAuthority = true → x.scopeId = current.scopeId →
    x.cls = current.cls → x = r
  others : ∀ id, id ≠ current.id → id ≠ r.id → after.find? id = before.find? id

namespace FabricState

/-- The holder that a placement on the given scope replaces, `src/fabric.cpp:3402-3415`. -/
def replacedHolder (s : FabricState) (placement : PlacementRequest) (scope : ScopeId) :
    Option AssignmentId :=
  if placement.exclusivity = .exclusive then
    (s.ruleFor placement.cls).bind fun rule ↦
      s.exclusiveConflict scope placement.cls rule.exclusiveKey .empty
  else none

/-- The placement of a replacement reaches the assignment that it names and no other: it is for
its scope and class, finds it as the holder there, or finds none as it is superseded already, and
no other assignment holds them. -/
structure Reaches (s : FabricState) (placement : PlacementRequest) (current : AssignmentRecord) :
    Prop where
  scope : scopeIdentity placement.scope = .ok current.scopeId
  cls : placement.cls = current.cls
  fresh : ∀ id t, s.issueAssignmentId = .ok (id, t) → s.assignments.find? id = none
  found : s.replacedHolder placement current.scopeId = some current.id ∨
    current.state = .superseded ∧ s.replacedHolder placement current.scopeId = none
  alone : ∀ x ∈ s.assignments.values, x.state.holdsAuthority = true →
    x.scopeId = current.scopeId → x.cls = current.cls → x.id = current.id

end FabricState

section

/-! ## What a replacement does -/

variable {c : FabricConfig} {m : Impl} {st : Step} {request : ReplaceRequest}
  {r current : AssignmentRecord}

/-- The assignments after a replacement of a holder, if there is one, by a new assignment. -/
private inductive Replaces (s : FabricState) (holder : Option AssignmentId)
    (r : AssignmentRecord) : Table AssignmentRecord → Prop
  | unheld (h : holder = none) : Replaces s holder r (s.assignments.insert r)
  | held {id : AssignmentId} {previous superseded : AssignmentRecord} (h : holder = some id)
      (hfind : s.assignments.find? id = some previous)
      (hholds : previous.state.holdsAuthority = true) (hid : superseded.id = previous.id)
      (hstate : superseded.state = .superseded) :
      Replaces s holder r ((s.assignments.insert superseded).insert r)

/-- The record of a placement. -/
private structure Created (s : FabricState) (placement : PlacementRequest)
    (r : AssignmentRecord) : Prop where
  id : ∃ t, s.issueAssignmentId = .ok (r.id, t)
  scope : scopeIdentity placement.scope = .ok r.scopeId
  cls : r.cls = placement.cls
  holds : r.state.holdsAuthority = true

/-- What a state is left with when a new assignment is stored behind its predecessor. -/
private theorem replaces_of_superseding {s issued : FabricState} {b : Bounds}
    {holder : Option AssignmentId} {replacing : AssignmentId} {k : ExclusivityKey} {now : Micros}
    (hissued : issued.assignments = s.assignments)
    (hholder : holder = some replacing ∧ replacing ≠ .empty ∧ (∃ x,
        s.assignments.find? replacing = some x ∧ x.state.holdsAuthority = true) ∨
      holder = none ∧ replacing = .empty) :
    Replaces s holder r ((issued.superseding b replacing k now).assignments.insert r) := by
  unfold FabricState.superseding
  rcases hholder with ⟨hsome, hne, x, hfind, hholds⟩ | ⟨hnone, rfl⟩
  · rw [if_neg hne, hissued, hfind]
    change Replaces s holder r
      ((issued.insertAssignment (x.enter b .superseded .superseded now)).assignments.insert r)
    rw [insertAssignment_assignments, hissued]
    exact .held hsome hfind hholds rfl rfl
  · rw [if_pos rfl, hissued]
    exact .unheld hnone

/-- A replacement that is answered for the first time placed what it asks for and superseded the
holder that its search found. -/
private theorem Step.replaces (hop : st.op = .replace request)
    (hanswer : (st.exec c m).1 = .ok (some r)) (hmiss : st.op.Missed c m.state)
    (hcurrent : m.state.assignments.find? request.current = some current)
    (hheld : m.running = true → m.state.Held)
    (hnamed : m.state.Every fun x ↦ x.id ≠ .empty) :
    Created m.state (Fabric.replacementPlacement request current) r ∧
      Replaces m.state
        (m.state.replacedHolder (Fabric.replacementPlacement request current) r.scopeId) r
        (st.next c m).state.assignments := by
  obtain ⟨m', hexec⟩ : ∃ m', st.exec c m = (.ok (some r), m') := ⟨_, Prod.ext hanswer rfl⟩
  have hnext : st.next c m = m' := congrArg Prod.snd hexec
  rw [hnext]
  unfold Step.exec at hexec
  rw [hop] at hexec
  have hreplace := exec_map_ok hexec
  unfold Fabric.replace at hreplace
  obtain ⟨_, _, haccept, h₁⟩ := exec_bind_ok hreplace
  obtain ⟨rfl, hrun, -⟩ := Fabric.checkAccepting_ok haccept
  obtain ⟨s, _, hs, h₂⟩ := exec_bind_ok h₁
  cases hs
  obtain ⟨named, _, hnamed', h₃⟩ := exec_bind_ok h₂
  obtain ⟨hfind, rfl⟩ := exec_found_ok hnamed'
  obtain rfl : current = named := Option.some.inj (hcurrent.symm.trans hfind)
  have hk : st.op.lookup c m.state =
      some ((Fabric.replacementPlacement request current).requestId,
        fingerprintOf c.bounds (Fabric.replacementPlacement request current)) := by
    rw [hop]
    simp only [Op.lookup, hcurrent, Option.map_some]
  generalize Fabric.replacementPlacement request current = placement at h₃ hk ⊢
  rcases Fabric.applyLocked_ok h₃ with ⟨cached, hcached, -⟩ | ⟨-, planned, hplanned, hd, h₄⟩
  · unfold Fabric.cachedAnswer at hcached
    rw [Impl.facing_state, hmiss _ hk] at hcached
    cases hcached
  · obtain ⟨auth, i, issued, hauth, hi, rfl, hassignments⟩ := Fabric.authorizeLocked_ok h₄
    obtain ⟨t₁, e, d₁, hplanning, -, -, hp, -, -⟩ := planLocked_ok hplanned hd
    obtain ⟨⟨t, policy, d, rule, ha⟩, heq⟩ := authorizeChecks_eq_ok.mp hauth
    rw [Impl.facing_state] at *
    have hscope : auth.scope = planned.plan.scopeId := congrArg Authorization.scope heq
    have hderived : scopeIdentity placement.scope = .ok planned.plan.scopeId := by
      rw [hp]
      exact hplanning.scope
    have hcls : planned.plan.cls = placement.cls := by
      rw [hp, hplanning.context]
      rfl
    have hexclusivity : planned.plan.exclusivity = placement.exclusivity := by
      rw [hp, hplanning.context]
      rfl
    have hkey : planned.plan.exclusiveKey = rule.exclusiveKey := by
      rw [← hplanning.rule_eq hp ha, hp]
      rfl
    have hrule : m.state.ruleFor placement.cls = some rule := by
      rw [← hcls]
      exact ruleFor_eq_some ha.foundPolicy ha.foundRule
    refine ⟨⟨hi.issueAssignmentId, ?_, hcls, rfl⟩, ?_⟩
    · rw [hderived, ← hscope]
      rfl
    · rw [hassignments]
      refine replaces_of_superseding hi.assignments ?_
      change m.state.replacedHolder placement auth.scope = _ ∧ _ ∨
        m.state.replacedHolder placement auth.scope = _ ∧ _
      unfold FabricState.replacedHolder
      rw [hrule, hscope, Option.bind_some, ← hexclusivity, ← hcls, ← hkey]
      rcases replacementChecks_ok ha.holder with ⟨hexclusive, hconflict⟩ | ⟨hnone, hempty⟩
      · obtain ⟨x, hx, hxexclusive, -⟩ := (hheld hrun).exclusiveConflict hconflict
        have hxid : x.id = auth.replacing := Table.key_of_find? hx
        rw [if_pos hexclusive]
        refine .inl ⟨hconflict, hxid ▸ hnamed x (Table.mem_values_of_find? hx), x, hx, ?_⟩
        exact (Bool.and_eq_true_iff.mp hxexclusive).2
      · refine .inr ⟨?_, hempty⟩
        split
        · next hexclusive => exact hnone hexclusive
        · rfl

/-! ## What it reaches -/

namespace Replaces

variable {s : FabricState} {placement : PlacementRequest} {after : Table AssignmentRecord}

private theorem stored {holder : Option AssignmentId} (h : Replaces s holder r after) :
    after.find? r.id = some r := by
  cases h with
  | unheld _ => exact Table.find?_insert_self _ r
  | held _ _ _ _ _ => exact Table.find?_insert_self _ r

/-- A replacement that does what it is for reached the assignment it names. -/
private theorem reaches (hcurrent : s.assignments.find? current.id = some current)
    (hr : Created s placement r) (h : Replaces s (s.replacedHolder placement r.scopeId) r after)
    (hreplaced : Replaced s.assignments after current r) : s.Reaches placement current := by
  have hne : ∀ {id x}, s.assignments.find? id = some x → id ≠ r.id := by
    rintro id x hx rfl
    rw [hreplaced.new] at hx
    cases hx
  have hscope := hreplaced.scope
  rw [hscope] at h
  refine ⟨hscope ▸ hr.scope, hr.cls.symm.trans hreplaced.cls, ?_, ?_, ?_⟩
  · intro id t hid
    obtain ⟨t', ht'⟩ := hr.id
    rw [hid, Except.ok.injEq, Prod.mk.injEq] at ht'
    rw [ht'.1]
    exact hreplaced.new
  · cases h with
    | unheld hnone =>
        obtain ⟨x, hx, hstate⟩ := hreplaced.superseded
        rw [Table.find?_insert_of_ne (hne hcurrent).symm, hcurrent] at hx
        exact .inr ⟨Option.some.inj hx ▸ hstate, hnone⟩
    | @held id previous superseded hsome hfind hholds hid hstate =>
        by_cases hsame : id = current.id
        · exact .inl (hsame ▸ hsome)
        -- a holder that is not the named assignment changes
        · have hkey : previous.id = id := Table.key_of_find? hfind
          have hkept := hreplaced.others id hsame (hne hfind)
          rw [Table.find?_insert_of_ne (hne hfind).symm, hfind, ← hkey, ← hid] at hkept
          have hself : (s.assignments.insert superseded).find? superseded.id = some superseded :=
            Table.find?_insert_self _ _
          rw [hself, Option.some.injEq] at hkept
          rw [← hkept, hstate] at hholds
          cases hholds
  · intro x hx hholds hxscope hxcls
    by_contra hother
    have hfind : s.assignments.find? x.id = some x := Table.mem_values.mp hx
    have hkept := hreplaced.others x.id hother (hne hfind)
    rw [hfind] at hkept
    have hsame := hreplaced.only x (Table.mem_values_of_find? hkept) hholds hxscope hxcls
    exact hne hfind (congrArg AssignmentRecord.id hsame)

/-- A replacement that reaches the assignment it names does what it is for. -/
private theorem replaced (hcurrent : s.assignments.find? current.id = some current)
    (hr : Created s placement r) (h : Replaces s (s.replacedHolder placement r.scopeId) r after)
    (hreaches : s.Reaches placement current) : Replaced s.assignments after current r := by
  have hscope : r.scopeId = current.scopeId :=
    Except.ok.inj (hr.scope.symm.trans hreaches.scope)
  obtain ⟨t, hissued⟩ := hr.id
  have hnew : s.assignments.find? r.id = none := hreaches.fresh _ _ hissued
  have hne : ∀ {id x}, s.assignments.find? id = some x → r.id ≠ id := by
    rintro id x hx rfl
    rw [hnew] at hx
    cases hx
  have hstored := h.stored
  rw [hscope] at h
  have hfound := hreaches.found
  suffices hafter : (∃ x, after.find? current.id = some x ∧ x.state = .superseded) ∧
      ∀ id, id ≠ current.id → id ≠ r.id → after.find? id = s.assignments.find? id by
    obtain ⟨⟨y, hy, hsuperseded⟩, hothers⟩ := hafter
    refine ⟨hnew, ⟨y, hy, hsuperseded⟩, hstored, hr.holds, hscope, hr.cls.trans hreaches.cls,
      fun x hx hholds hxscope hxcls ↦ ?_, hothers⟩
    have hfind : after.find? x.id = some x := Table.mem_values.mp hx
    by_cases hxr : x.id = r.id
    · rw [hxr, hstored] at hfind
      exact (Option.some.inj hfind).symm
    by_cases hxcurrent : x.id = current.id
    · rw [hxcurrent, hy] at hfind
      rw [← Option.some.inj hfind, hsuperseded] at hholds
      cases hholds
    · rw [hothers _ hxcurrent hxr] at hfind
      exact absurd (hreaches.alone x (Table.mem_values_of_find? hfind) hholds hxscope hxcls)
        hxcurrent
  cases h with
  | unheld hnone =>
      rw [hnone] at hfound
      obtain ⟨hstate, -⟩ := hfound.resolve_left (fun h ↦ by cases h)
      refine ⟨⟨current, ?_, hstate⟩, fun id _ hid ↦ Table.find?_insert_of_ne hid.symm⟩
      rw [Table.find?_insert_of_ne (hne hcurrent)]
      exact hcurrent
  | @held id previous superseded hsome hfind hholds hid hstate =>
      rw [hsome] at hfound
      have hsame : id = current.id :=
        Option.some.inj (hfound.resolve_right fun h ↦ by cases h.2)
      have hkey : superseded.id = current.id := by
        rw [hid, ← hsame]
        exact Table.key_of_find? hfind
      refine ⟨⟨superseded, ?_, hstate⟩, fun x hx hxr ↦ ?_⟩
      · rw [Table.find?_insert_of_ne (hne hcurrent), ← hkey]
        exact Table.find?_insert_self _ _
      · rw [Table.find?_insert_of_ne hxr.symm, Table.find?_insert_of_ne]
        rw [key_assignment, hkey]
        exact hx.symm

end Replaces

end

/-- **A replacement replaces the assignment it names exactly when its placement reaches it.** -/
theorem replace_replaces_iff (c : FabricConfig) (steps : List Step) (st : Step)
    {request : ReplaceRequest} {current r : AssignmentRecord} (hop : st.op = .replace request)
    (hcurrent : (run c steps).state.assignments.find? request.current = some current)
    (hanswer : (st.exec c (run c steps)).1 = .ok (some r))
    (hmiss : st.op.Missed c (run c steps).state) :
    Replaced (run c steps).state.assignments (st.next c (run c steps)).state.assignments current
        r ↔
      (run c steps).state.Reaches (Fabric.replacementPlacement request current) current := by
  obtain ⟨hcreated, hreplaces⟩ := Step.replaces hop hanswer hmiss hcurrent
    (fun hrun ↦ run_held c steps (.inl hrun)) (run_id_ne_empty c steps)
  have hid : current.id = request.current := Table.key_of_find? hcurrent
  rw [← hid] at hcurrent
  exact ⟨hreplaces.reaches hcurrent hcreated, hreplaces.replaced hcurrent hcreated⟩

namespace Sample

/-- A run that has placed the function on one host. -/
def hostPlaced : List Step :=
  ready ++ [step (.apply { request with scope := { kind := .host, domain := host } } {})]

/-- A replacement of the first assignment by another for the same. -/
def replaceRequest : ReplaceRequest where
  current := first
  placement := { request with function := .empty }

/-- A replacement of the first assignment by one for the whole system. -/
def elsewhereRequest : ReplaceRequest where
  current := first
  placement := request

/-- Whether the first replacement reaches an assignment. -/
def reaches (s : FabricState) (current : AssignmentRecord) : Bool :=
  let placement := Fabric.replacementPlacement replaceRequest current
  decide (scopeIdentity placement.scope = .ok current.scopeId ∧ placement.cls = current.cls ∧
      s.replacedHolder placement current.scopeId = some current.id ∧
      ∀ x ∈ s.assignments.values, x.state.holdsAuthority = true → x.scopeId = current.scopeId →
        x.cls = current.cls → x.id = current.id) &&
    match s.issueAssignmentId with
    | .ok (id, _) => (s.assignments.find? id).isNone
    | .error _ => true

private theorem reaches_sound {s : FabricState} {current : AssignmentRecord}
    (h : reaches s current = true) :
    s.Reaches (Fabric.replacementPlacement replaceRequest current) current := by
  obtain ⟨hdecided, hfree⟩ := Bool.and_eq_true_iff.mp h
  obtain ⟨hscope, hcls, hfound, halone⟩ := of_decide_eq_true hdecided
  refine ⟨hscope, hcls, fun id t hid ↦ ?_, .inl hfound, halone⟩
  rw [hid] at hfree
  exact Option.isNone_iff_eq_none.mp hfree

/-- The step is answered and leaves the first assignment dispatched. -/
def leavesFirst (m : Impl) (st : Step) : Bool :=
  match st.exec {} m with
  | (.ok (some _), m') => (m'.state.assignments.find? first).map (·.state) = some .dispatched
  | _ => false

private theorem leavesFirst_sound {m : Impl} {st : Step} (h : leavesFirst m st = true) :
    ∃ r x, (st.exec {} m).1 = .ok (some r) ∧
      (st.next {} m).state.assignments.find? first = some x ∧ x.state = .dispatched := by
  unfold leavesFirst at h
  unfold Step.next
  generalize st.exec {} m = out at h ⊢
  split at h
  · next r m' =>
      obtain ⟨x, hx, hstate⟩ := Option.map_eq_some_iff.mp (of_decide_eq_true h)
      exact ⟨r, x, rfl, hx, hstate⟩
  · cases h

/-- The two replacements are answered, the first reaches the first assignment and the second
leaves it dispatched. -/
def Replacing (m : Impl) : Prop :=
  (step (.replace replaceRequest)).answersWith {} m (fun _ ↦ true) = true ∧
    (m.state.assignments.find? first).any (reaches m.state) = true ∧
    leavesFirst m (step (.replace elsewhereRequest)) = true

private instance (m : Impl) : Decidable (Replacing m) := inferInstanceAs (Decidable (_ ∧ _))

private theorem replacing : Replacing (run {} hostPlaced) := by decide +kernel

end Sample

/-- The replacement of the placement on one host replaces it. -/
theorem replace_replaces_placed : ∃ current r,
    ((Sample.step (.replace Sample.replaceRequest)).exec {} (run {} Sample.hostPlaced)).1 =
        .ok (some r) ∧
      (run {} Sample.hostPlaced).state.assignments.find? Sample.first = some current ∧
      Replaced (run {} Sample.hostPlaced).state.assignments
        ((Sample.step (.replace Sample.replaceRequest)).next {}
          (run {} Sample.hostPlaced)).state.assignments current r := by
  have hreplacing := Sample.replacing
  have hiff := fun current r ↦ @replace_replaces_iff {} Sample.hostPlaced
    (Sample.step (.replace Sample.replaceRequest)) Sample.replaceRequest current r rfl
  generalize run {} Sample.hostPlaced = m at hreplacing hiff ⊢
  obtain ⟨hanswers, hany, -⟩ := hreplacing
  obtain ⟨r, hanswer, -⟩ := Step.exists_answer hanswers
  obtain ⟨current, hcurrent, hreaches⟩ := (Option.any_eq_true _ _).mp hany
  have hmiss : (Op.replace Sample.replaceRequest).Missed {} m.state := by
    intro k hk
    obtain ⟨x, -, rfl⟩ := Option.map_eq_some_iff.mp hk
    rfl
  exact ⟨current, r, hanswer, hcurrent,
    (hiff current r hcurrent hanswer hmiss).mpr (Sample.reaches_sound hreaches)⟩

/-- A replacement by a placement on another scope leaves the assignment it names dispatched. -/
theorem replace_elsewhere : ∃ current r,
    ((Sample.step (.replace Sample.elsewhereRequest)).exec {} (run {} Sample.hostPlaced)).1 =
        .ok (some r) ∧
      (run {} Sample.hostPlaced).state.assignments.find? Sample.first = some current ∧
      ¬ Replaced (run {} Sample.hostPlaced).state.assignments
        ((Sample.step (.replace Sample.elsewhereRequest)).next {}
          (run {} Sample.hostPlaced)).state.assignments current r := by
  have hreplacing := Sample.replacing
  generalize run {} Sample.hostPlaced = m at hreplacing ⊢
  obtain ⟨-, hany, hleaves⟩ := hreplacing
  obtain ⟨current, hcurrent, -⟩ := (Option.any_eq_true _ _).mp hany
  have hid : current.id = Sample.first := Table.key_of_find? hcurrent
  obtain ⟨r, x, hanswer, hx, hdispatched⟩ := Sample.leavesFirst_sound hleaves
  refine ⟨current, r, hanswer, hcurrent, fun hreplaced ↦ ?_⟩
  obtain ⟨y, hy, hsuperseded⟩ := hreplaced.superseded
  rw [hid, hx, Option.some.injEq] at hy
  rw [← hy, hdispatched] at hsuperseded
  cases hsuperseded

end OffloadFabric
