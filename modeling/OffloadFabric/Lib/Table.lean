import Std.Data.ExtTreeMap
import Mathlib.Data.List.Perm.Basic
import Mathlib.Data.List.Nodup
import Mathlib.Algebra.Order.BigOperators.Group.List
import Mathlib.Algebra.GroupWithZero.Nat
import Mathlib.Algebra.Order.Group.Nat

/-!
# Tables of self-keyed values

An ordered map whose values determine their own keys, with that agreement as a field, so a
lookup always gives a value of the key asked for. The rules are the lookup after each update,
the values in key order and the total of a measure over them.
-/

namespace OffloadFabric.Lib

/-- Values that carry their own key. -/
class Keyed (α : Type) (κ : outParam Type) where
  key : α → κ

export Keyed (key)

/-- An ordered map from the key of each value to the value. -/
structure Table (α : Type) {κ : Type} [Keyed α κ] [Ord κ] [Std.TransOrd κ] where
  map : Std.ExtTreeMap κ α
  keyed : ∀ (k : κ) (v : α), map[k]? = some v → key v = k

namespace Table

variable {α κ : Type} [Keyed α κ] [Ord κ] [Std.TransOrd κ]

/-- The value with the given key. -/
def find? (t : Table α) (k : κ) : Option α := t.map[k]?

/-- The table without values. -/
def empty : Table α := ⟨∅, fun k v h ↦ by simp at h⟩

instance : Inhabited (Table α) := ⟨empty⟩

/-- The values in the order of their keys. -/
def values (t : Table α) : List α := t.map.toList.map Prod.snd

/-- The number of values. -/
def size (t : Table α) : Nat := t.map.size

/-- The sum of a measure over the values. -/
def total (t : Table α) (f : α → Nat) : Nat := (t.values.map f).sum

theorem key_of_find? {t : Table α} {k : κ} {v : α} (h : t.find? k = some v) : key v = k :=
  t.keyed k v h

@[simp] theorem find?_empty (k : κ) : (empty : Table α).find? k = none := by
  simp [find?, empty]

@[simp] theorem length_values (t : Table α) : t.values.length = t.size := by
  rw [values, List.length_map, Std.ExtTreeMap.length_toList]
  rfl

@[simp] theorem values_empty : (empty : Table α).values = [] := by
  simp [values, empty]

theorem le_total {t : Table α} {v : α} (f : α → Nat) (h : v ∈ t.values) : f v ≤ t.total f :=
  List.single_le_sum (fun _ _ ↦ Nat.zero_le _) _ (List.mem_map_of_mem h)

theorem total_eq_zero {t : Table α} {f : α → Nat} :
    t.total f = 0 ↔ ∀ v ∈ t.values, f v = 0 := by
  simp only [total, List.sum_eq_zero_iff_forall_eq_nat, List.forall_mem_map]

variable [Std.LawfulEqOrd κ]

/-- Store a value under its key, replacing the one already there. -/
def insert (t : Table α) (v : α) : Table α where
  map := t.map.insert (key v) v
  keyed := by
    intro k w h
    rw [Std.ExtTreeMap.getElem?_insert] at h
    split at h
    · next heq =>
        cases h
        exact Std.LawfulEqCmp.eq_of_compare heq
    · exact t.keyed k w h

/-- Store a value unless its key is taken. -/
def insertNew (t : Table α) (v : α) : Table α :=
  match t.find? (key v) with
  | some _ => t
  | none => t.insert v

/-- Change every value, keeping its key. -/
def mapValues (t : Table α) (f : α → α) (hf : ∀ v, key (f v) = key v) : Table α where
  map := t.map.map fun _ v ↦ f v
  keyed := by
    intro k w h
    rw [Std.ExtTreeMap.getElem?_map] at h
    obtain ⟨v, hv, rfl⟩ := Option.map_eq_some_iff.mp h
    rw [hf]
    exact t.keyed k v hv

/-- The table of a list of values, the first of each key. -/
def ofList (vs : List α) : Table α := vs.foldl insertNew empty

/-! ## Lookups -/

@[ext] theorem ext {t u : Table α} (h : ∀ k : κ, t.find? k = u.find? k) : t = u := by
  cases t
  cases u
  congr
  exact Std.ExtTreeMap.ext_getElem? (fun {k} ↦ h k)

theorem find?_insert [DecidableEq κ] (t : Table α) (v : α) (k : κ) :
    (t.insert v).find? k = if key v = k then some v else t.find? k := by
  unfold find? insert
  rw [Std.ExtTreeMap.getElem?_insert]
  simp only [Std.LawfulEqCmp.compare_eq_iff_eq]

@[simp] theorem find?_insert_self (t : Table α) (v : α) :
    (t.insert v).find? (key v) = some v := by
  unfold find? insert
  exact Std.ExtTreeMap.getElem?_insert_self

theorem find?_insert_of_ne {t : Table α} {v : α} {k : κ} (h : key v ≠ k) :
    (t.insert v).find? k = t.find? k := by
  unfold find? insert
  rw [Std.ExtTreeMap.getElem?_insert]
  rw [if_neg (fun heq ↦ h (Std.LawfulEqCmp.eq_of_compare heq))]

theorem find?_mapValues (t : Table α) (f : α → α) (hf : ∀ v, key (f v) = key v) (k : κ) :
    (t.mapValues f hf).find? k = (t.find? k).map f :=
  Std.ExtTreeMap.getElem?_map

/-! ## Values in key order -/

theorem mem_values {t : Table α} {v : α} : v ∈ t.values ↔ t.find? (key v) = some v := by
  simp only [values, List.mem_map, Prod.exists, exists_eq_right]
  constructor
  · intro ⟨k, h⟩
    have hk := Std.ExtTreeMap.mem_toList_iff_getElem?_eq_some.mp h
    have := t.keyed k v hk
    subst this
    exact hk
  · intro h
    exact ⟨key v, Std.ExtTreeMap.mem_toList_iff_getElem?_eq_some.mpr h⟩

theorem mem_values_of_find? {t : Table α} {k : κ} {v : α} (h : t.find? k = some v) :
    v ∈ t.values := by
  rw [mem_values, key_of_find? h]
  exact h

private theorem map_key_values (t : Table α) : t.values.map key = t.map.toList.map Prod.fst := by
  rw [values, List.map_map]
  refine List.map_congr_left ?_
  rintro ⟨k, v⟩ h
  exact t.keyed k v (Std.ExtTreeMap.mem_toList_iff_getElem?_eq_some.mp h)

/-- The values stand in strictly increasing key order. -/
theorem values_ordered (t : Table α) :
    t.values.Pairwise fun a b ↦ compare (key a) (key b) = .lt := by
  have h : (t.values.map key).Pairwise fun a b ↦ compare a b = .lt := by
    rw [map_key_values, Std.ExtTreeMap.map_fst_toList_eq_keys]
    exact Std.ExtTreeMap.ordered_keys
  exact List.pairwise_map.mp h

theorem nodup_keys (t : Table α) : (t.values.map key).Nodup := by
  refine List.pairwise_map.mpr (t.values_ordered.imp fun {a b} h heq ↦ ?_)
  have hself : compare (key b) (key b) = .eq := Std.ReflCmp.compare_self
  rw [heq, hself] at h
  cases h

theorem nodup_values (t : Table α) : t.values.Nodup := .of_map key t.nodup_keys

/-- A fresh value joins the values. -/
theorem values_insert_new {t : Table α} {v : α} (h : t.find? (key v) = none) :
    (t.insert v).values.Perm (v :: t.values) := by
  refine (List.perm_ext_iff_of_nodup (nodup_values _) ?_).mpr fun w ↦ ?_
  · refine List.nodup_cons.mpr ⟨?_, nodup_values t⟩
    rw [mem_values, h]
    exact fun hv ↦ by cases hv
  · rw [List.mem_cons, mem_values, mem_values]
    by_cases hk : key v = key w
    · rw [← hk, find?_insert_self, h, Option.some.injEq]
      constructor
      · exact fun hw ↦ .inl hw.symm
      · rintro (rfl | hw)
        · rfl
        · cases hw
    · rw [find?_insert_of_ne hk]
      constructor
      · exact .inr
      · rintro (rfl | hw)
        · exact absurd rfl hk
        · exact hw

/-- A replacing value stands for the one it replaces. -/
theorem values_insert_old {t : Table α} {v o : α} (h : t.find? (key v) = some o) :
    (o :: (t.insert v).values).Perm (v :: t.values) := by
  have hko := key_of_find? h
  by_cases hov : o = v
  · subst hov
    have hsame : t.insert o = t := by
      ext k : 1
      by_cases hk : key o = k
      · subst hk
        rw [find?_insert_self, h]
      · exact find?_insert_of_ne hk
    rw [hsame]
  · refine (List.perm_ext_iff_of_nodup ?_ ?_).mpr fun w ↦ ?_
    · refine List.nodup_cons.mpr ⟨?_, nodup_values _⟩
      rw [mem_values, hko, find?_insert_self, Option.some.injEq]
      exact fun hv ↦ hov hv.symm
    · refine List.nodup_cons.mpr ⟨?_, nodup_values t⟩
      rw [mem_values, h, Option.some.injEq]
      exact hov
    · rw [List.mem_cons, List.mem_cons, mem_values, mem_values]
      by_cases hk : key v = key w
      · rw [← hk, find?_insert_self, h]
        simp only [Option.some.injEq]
        rw [eq_comm (a := w), eq_comm (a := w), or_comm]
      · rw [find?_insert_of_ne hk]
        constructor
        · rintro (rfl | hw)
          · exact absurd hko.symm hk
          · exact .inr hw
        · rintro (rfl | hw)
          · exact absurd rfl hk
          · exact .inr hw

/-! ## Order of the values -/

omit [Std.LawfulEqOrd κ] in
/-- Lists in one strict order of a key are equal when they have the same elements. -/
private theorem eq_of_perm_of_ordered {γ : Type} {xs ys : List γ} (k : γ → κ) (h : xs.Perm ys)
    (hx : xs.Pairwise fun a b ↦ compare (k a) (k b) = .lt)
    (hy : ys.Pairwise fun a b ↦ compare (k a) (k b) = .lt) : xs = ys := by
  refine h.eq_of_pairwise (fun a b _ _ hab hba ↦ ?_) hx hy
  have hswap : compare (k a) (k b) = (compare (k b) (k a)).swap := Std.OrientedCmp.eq_swap
  rw [hswap, hba] at hab
  cases hab

/-- A value whose key is above all others stands last. -/
theorem values_insert_last {t : Table α} {v : α}
    (h : ∀ w ∈ t.values, compare (key w) (key v) = .lt) :
    (t.insert v).values = t.values ++ [v] := by
  have hfresh : t.find? (key v) = none := by
    cases hfind : t.find? (key v) with
    | none => rfl
    | some w =>
      have hlt := h w (mem_values_of_find? hfind)
      have hself : compare (key v) (key v) = .eq := Std.ReflCmp.compare_self
      rw [key_of_find? hfind, hself] at hlt
      cases hlt
  have hperm := (values_insert_new hfresh).trans (List.perm_append_singleton v t.values).symm
  apply eq_of_perm_of_ordered key hperm (values_ordered _)
  rw [List.pairwise_append]
  refine ⟨values_ordered t, List.pairwise_singleton _ _, fun w hw u hu ↦ ?_⟩
  rw [List.mem_singleton.mp hu]
  exact h w hw

/-- What a replacing value has in common with the one it replaces stays in its place. -/
theorem map_values_insert_old {β : Type} {t : Table α} {v o : α} {f : α → β}
    (h : t.find? (key v) = some o) (hf : f v = f o) :
    (t.insert v).values.map f = t.values.map f := by
  have hko := key_of_find? h
  have hordered (u : Table α) : (u.values.map fun w ↦ (key w, f w)).Pairwise
      fun a b ↦ compare a.1 b.1 = .lt := List.pairwise_map.mpr u.values_ordered
  have hperm := (values_insert_old h).map fun w ↦ (key w, f w)
  rw [List.map_cons, List.map_cons, hko, hf, List.perm_cons] at hperm
  have heq := eq_of_perm_of_ordered Prod.fst hperm (hordered _) (hordered _)
  have hsnd := congrArg (List.map Prod.snd) heq
  rwa [List.map_map, List.map_map] at hsnd

/-! ## Totals -/

/-- A fresh value adds its measure to the total. -/
theorem total_insert_new {t : Table α} {v : α} (f : α → Nat) (h : t.find? (key v) = none) :
    (t.insert v).total f = f v + t.total f := by
  have hperm := ((values_insert_new h).map f).sum_eq
  rwa [List.map_cons, List.sum_cons] at hperm

/-- A replacing value trades its measure for that of the one it replaces. -/
theorem total_insert_old {t : Table α} {v o : α} (f : α → Nat) (h : t.find? (key v) = some o) :
    f o + (t.insert v).total f = f v + t.total f := by
  have hperm := ((values_insert_old h).map f).sum_eq
  rwa [List.map_cons, List.map_cons, List.sum_cons, List.sum_cons] at hperm

/-- The measure of the value with the given key. -/
def measureAt (t : Table α) (f : α → Nat) (k : κ) : Nat := (t.find? k).elim 0 f

theorem measureAt_le_total (t : Table α) (f : α → Nat) (k : κ) : t.measureAt f k ≤ t.total f := by
  unfold measureAt
  cases h : t.find? k with
  | none => exact Nat.zero_le _
  | some v => exact le_total f (mem_values_of_find? h)

omit [Std.LawfulEqOrd κ] in
theorem measureAt_mono {t : Table α} {f g : α → Nat} (h : ∀ v, f v ≤ g v) (k : κ) :
    t.measureAt f k ≤ t.measureAt g k := by
  unfold measureAt
  cases t.find? k with
  | none => exact Nat.le_refl _
  | some v => exact h v

/-- A value trades its measure for that of the one it replaces, if it replaces one. -/
theorem total_insert (t : Table α) (v : α) (f : α → Nat) :
    (t.insert v).total f + t.measureAt f (key v) = t.total f + f v := by
  unfold measureAt
  cases h : t.find? (key v) with
  | none =>
      rw [total_insert_new f h]
      simp only [Option.elim]
      omega
  | some o =>
      have hold := total_insert_old f h
      simp only [Option.elim]
      omega

/-! ## Tables of lists -/

/-- Storing a list of values leaves the last of each key, or what was there. -/
theorem find?_foldl_insert [DecidableEq κ] (vs : List α) (t : Table α) (k : κ) :
    (vs.foldl insert t).find? k = (vs.reverse.find? fun v ↦ key v = k).or (t.find? k) := by
  induction vs generalizing t with
  | nil => simp
  | cons v vs ih =>
      rw [List.foldl_cons, ih, find?_insert, List.reverse_cons, List.find?_append,
        Option.or_assoc]
      by_cases hk : key v = k <;> simp [hk]

theorem find?_insertNew [DecidableEq κ] (t : Table α) (v : α) (k : κ) :
    (t.insertNew v).find? k = (t.find? k).or (if key v = k then some v else none) := by
  unfold insertNew
  split
  · next o h =>
      by_cases hk : key v = k
      · subst hk
        rw [h]
        rfl
      · rw [if_neg hk, Option.or_none]
  · next h =>
      rw [find?_insert]
      by_cases hk : key v = k
      · subst hk
        rw [if_pos rfl, if_pos rfl, h]
        rfl
      · rw [if_neg hk, if_neg hk, Option.or_none]

private theorem find?_foldl_insertNew [DecidableEq κ] (vs : List α) (t : Table α) (k : κ) :
    (vs.foldl insertNew t).find? k = (t.find? k).or (vs.find? fun v ↦ key v = k) := by
  induction vs generalizing t with
  | nil => simp
  | cons v vs ih =>
      rw [List.foldl_cons, ih, find?_insertNew, List.find?_cons, Option.or_assoc]
      by_cases hk : key v = k <;> simp [hk]

/-- A list's table finds the first value with the key asked for. -/
theorem find?_ofList [DecidableEq κ] (vs : List α) (k : κ) :
    (ofList vs).find? k = vs.find? fun v ↦ key v = k := by
  rw [ofList, find?_foldl_insertNew, find?_empty, Option.none_or]

/-- A table is rebuilt from its values. -/
@[simp] theorem ofList_values [DecidableEq κ] (t : Table α) : ofList t.values = t := by
  ext k : 1
  rw [find?_ofList]
  cases h : t.find? k with
  | none =>
      rw [List.find?_eq_none]
      intro v hv
      simp only [decide_eq_true_eq]
      rintro rfl
      rw [mem_values.mp hv] at h
      cases h
  | some v =>
      have hk := key_of_find? h
      cases hf : t.values.find? (fun w ↦ decide (key w = k)) with
      | none =>
          have := List.find?_eq_none.mp hf v (mem_values_of_find? h)
          simp [hk] at this
      | some w =>
          have hw := List.mem_of_find?_eq_some hf
          have hwk : key w = k := by simpa using List.find?_some hf
          rw [mem_values, hwk, h] at hw
          exact hw.symm

end Table

end OffloadFabric.Lib
