import OffloadFabric.Lib.Table

/-!
# Indexes over the records of a table

A map whose entries come from records, at most one entry from each. It is built from all records at
once, the later ones writing over the earlier, or kept beside a table by dropping what an
overwritten record had put there. Where no two records contend for a key both give the same map.
-/

namespace OffloadFabric.Lib.Index

section

variable {α κ ν : Type} [Ord κ] [Std.TransOrd κ] {entry : α → Option (κ × ν)} {xs : List α}
  {index : Std.ExtTreeMap κ ν}

/-- Write the entry of a record, if it has one. -/
def put (entry : α → Option (κ × ν)) (index : Std.ExtTreeMap κ ν) (x : α) :
    Std.ExtTreeMap κ ν :=
  match entry x with
  | some (k, v) => index.insert k v
  | none => index

/-- The index of a list of records. -/
def build (entry : α → Option (κ × ν)) (xs : List α) : Std.ExtTreeMap κ ν :=
  xs.foldl (put entry) ∅

/-- The entries of an index are those of the records. -/
def Of (entry : α → Option (κ × ν)) (xs : List α) (index : Std.ExtTreeMap κ ν) : Prop :=
  ∀ k v, index[k]? = some v ↔ ∃ x ∈ xs, entry x = some (k, v)

/-- No two records write different values under one key. -/
def Agree (entry : α → Option (κ × ν)) (xs : List α) : Prop :=
  ∀ x ∈ xs, ∀ y ∈ xs, ∀ k v w, entry x = some (k, v) → entry y = some (k, w) → v = w

theorem Of.agree (h : Of entry xs index) : Agree entry xs := by
  intro x hx y hy k v w hv hw
  have hv' := (h k v).mpr ⟨x, hx, hv⟩
  have hw' := (h k w).mpr ⟨y, hy, hw⟩
  exact Option.some.inj (hv'.symm.trans hw')

variable [Std.LawfulEqOrd κ]

theorem getElem?_put (index : Std.ExtTreeMap κ ν) (x : α) (k : κ) (v : ν) :
    (put entry index x)[k]? = some v ↔
      entry x = some (k, v) ∨ (∀ w, entry x ≠ some (k, w)) ∧ index[k]? = some v := by
  unfold put
  cases hx : entry x with
  | none => simp
  | some e =>
    obtain ⟨k', v'⟩ := e
    simp only [Std.ExtTreeMap.getElem?_insert, Std.LawfulEqCmp.compare_eq_iff_eq]
    by_cases hk : k' = k
    · subst hk
      simp
    · simp [hk]

/-- Records that agree leave the entries of all of them, and what stood under other keys. -/
theorem getElem?_foldl_put (h : Agree entry xs) (index : Std.ExtTreeMap κ ν) (k : κ) (v : ν) :
    (xs.foldl (put entry) index)[k]? = some v ↔
      (∃ x ∈ xs, entry x = some (k, v)) ∨
        (∀ x ∈ xs, ∀ w, entry x ≠ some (k, w)) ∧ index[k]? = some v := by
  induction xs generalizing index with
  | nil => simp
  | cons x xs ih =>
    have htail : Agree entry xs := fun y hy z hz ↦
      h y (List.mem_cons_of_mem _ hy) z (List.mem_cons_of_mem _ hz)
    rw [List.foldl_cons, ih htail, getElem?_put]
    constructor
    · rintro (⟨y, hy, he⟩ | ⟨hnone, he | ⟨hx, hk⟩⟩)
      · exact .inl ⟨y, List.mem_cons_of_mem _ hy, he⟩
      · exact .inl ⟨x, List.mem_cons_self, he⟩
      · refine .inr ⟨?_, hk⟩
        simpa using ⟨hx, hnone⟩
    · rintro (⟨y, hy, he⟩ | ⟨hnone, hk⟩)
      · rcases List.mem_cons.mp hy with rfl | hy
        · by_cases hlater : ∃ z ∈ xs, ∃ w, entry z = some (k, w)
          · obtain ⟨z, hz, w, hw⟩ := hlater
            obtain rfl := h y List.mem_cons_self z (List.mem_cons_of_mem _ hz) k v w he hw
            exact .inl ⟨z, hz, hw⟩
          · refine .inr ⟨fun z hz w hw ↦ hlater ⟨z, hz, w, hw⟩, .inl he⟩
        · exact .inl ⟨y, hy, he⟩
      · exact .inr ⟨fun y hy ↦ hnone y (List.mem_cons_of_mem _ hy),
          .inr ⟨hnone x List.mem_cons_self, hk⟩⟩

/-- An index built from records that agree has their entries. -/
theorem of_build (h : Agree entry xs) : Of entry xs (build entry xs) := by
  intro k v
  unfold build
  rw [getElem?_foldl_put h]
  simp

/-- An index that has the entries of the records is the one built from them. -/
theorem Of.build_eq (h : Of entry xs index) : build entry xs = index := by
  apply Std.ExtTreeMap.ext_getElem?
  intro k
  apply Option.ext
  intro v
  rw [of_build h.agree k v, h k v]

end

/-! ## Indexes beside a table -/

section

variable {α ι κ : Type} [Keyed α ι] [Ord ι] [Std.TransOrd ι] [Std.LawfulEqOrd ι] [DecidableEq ι]
  [Ord κ] [Std.TransOrd κ] {entry : α → Option (κ × ι)} {slot : α → κ} {t : Table α}
  {index : Std.ExtTreeMap κ ι} {r : α}

/-- Drop the entry of a record from its slot, if it stands there. -/
def drop (slot : α → κ) (index : Std.ExtTreeMap κ ι) (x : α) : Std.ExtTreeMap κ ι :=
  if index[slot x]? = some (key x) then index.erase (slot x) else index

/-- The index without the entry of the record about to be overwritten. -/
def dropOld (slot : α → κ) (index : Std.ExtTreeMap κ ι) (old : Option α) : Std.ExtTreeMap κ ι :=
  match old with
  | some x => drop slot index x
  | none => index

/-- The record writes its own key, under its slot. -/
def Slotted (entry : α → Option (κ × ι)) (slot : α → κ) : Prop :=
  ∀ x k v, entry x = some (k, v) → k = slot x ∧ v = key x

/-- No record under another key contends with the given one. -/
def Free (entry : α → Option (κ × ι)) (t : Table α) (r : α) : Prop :=
  ∀ x ∈ t.values, key x ≠ key r → ∀ k v w, entry x = some (k, v) → entry r ≠ some (k, w)

theorem mem_values_insert {x : α} :
    x ∈ (t.insert r).values ↔ x = r ∨ key x ≠ key r ∧ x ∈ t.values := by
  rw [Table.mem_values, Table.find?_insert, Table.mem_values]
  constructor
  · intro h
    split at h
    · exact .inl (Option.some.inj h).symm
    · next hne => exact .inr ⟨fun heq ↦ hne heq.symm, h⟩
  · rintro (rfl | ⟨hne, h⟩)
    · rw [if_pos rfl]
    · rw [if_neg (Ne.symm hne)]
      exact h

variable [Std.LawfulEqOrd κ]

/-- Without the entry of the overwritten record, an index has the entries of the others. -/
theorem Of.dropOld (h : Of entry t.values index) (hslot : Slotted entry slot) (k : κ) (v : ι) :
    (Index.dropOld slot index (t.find? (key r)))[k]? = some v ↔
      ∃ x ∈ t.values, key x ≠ key r ∧ entry x = some (k, v) := by
  cases hold : t.find? (key r) with
  | none =>
    have hne : ∀ x ∈ t.values, key x ≠ key r := by
      intro x hx heq
      have hfind := Table.mem_values.mp hx
      rw [heq, hold] at hfind
      cases hfind
    rw [Index.dropOld, h k v]
    constructor
    · rintro ⟨x, hx, he⟩
      exact ⟨x, hx, hne x hx, he⟩
    · rintro ⟨x, hx, -, he⟩
      exact ⟨x, hx, he⟩
  | some old =>
    have hkey : key old = key r := Table.key_of_find? hold
    have hother : ∀ x ∈ t.values, key x = key r → x = old := by
      intro x hx heq
      have hfind := Table.mem_values.mp hx
      rw [heq, hold] at hfind
      exact (Option.some.inj hfind).symm
    -- the overwritten record stands in its slot only
    have hown : index[k]? = some v → k ≠ slot old →
        ∃ x ∈ t.values, key x ≠ key r ∧ entry x = some (k, v) := by
      intro hk hne
      obtain ⟨x, hx, he⟩ := (h k v).mp hk
      refine ⟨x, hx, fun heq ↦ hne ?_, he⟩
      rw [(hslot x k v he).1, hother x hx heq]
    have hback : (∃ x ∈ t.values, key x ≠ key r ∧ entry x = some (k, v)) → index[k]? = some v := by
      rintro ⟨x, hx, -, he⟩
      exact (h k v).mpr ⟨x, hx, he⟩
    simp only [Index.dropOld, drop]
    by_cases hstands : index[slot old]? = some (key old)
    · rw [if_pos hstands]
      by_cases hk : slot old = k
      · rw [hk, Std.ExtTreeMap.getElem?_erase_self]
        constructor
        · intro hv
          cases hv
        · rintro ⟨x, hx, hne, he⟩
          have hstands' := (h k v).mpr ⟨x, hx, he⟩
          rw [← hk, hstands, Option.some.injEq, hkey] at hstands'
          exact absurd ((hslot x k v he).2.symm.trans hstands'.symm) hne
      · rw [Std.ExtTreeMap.getElem?_erase,
          if_neg fun heq ↦ hk (Std.LawfulEqCmp.eq_of_compare heq)]
        exact ⟨fun hv ↦ hown hv (Ne.symm hk), hback⟩
    · rw [if_neg hstands]
      refine ⟨fun hv ↦ ?_, hback⟩
      obtain ⟨x, hx, he⟩ := (h k v).mp hv
      obtain ⟨hslot', hkey'⟩ := hslot x k v he
      refine ⟨x, hx, fun heq ↦ hstands ?_, he⟩
      rw [← hother x hx heq, ← hslot', hv, hkey']

/-- **An index stays that of its table** when a record for which no other contends is stored: the
entry of the overwritten record is dropped and its own put in place. -/
theorem Of.insert (h : Of entry t.values index) (hslot : Slotted entry slot)
    (hfree : Free entry t r) :
    Of entry (t.insert r).values
      (put entry (Index.dropOld slot index (t.find? (key r))) r) := by
  intro k v
  rw [getElem?_put, h.dropOld hslot k v]
  constructor
  · rintro (he | ⟨-, x, hx, hne, he⟩)
    · exact ⟨r, mem_values_insert.mpr (.inl rfl), he⟩
    · exact ⟨x, mem_values_insert.mpr (.inr ⟨hne, hx⟩), he⟩
  · rintro ⟨x, hx, he⟩
    rcases mem_values_insert.mp hx with rfl | ⟨hne, hx⟩
    · exact .inl he
    · exact .inr ⟨fun w ↦ hfree x hx hne k v w he, x, hx, hne, he⟩

end

end OffloadFabric.Lib.Index
