import Mathlib.Data.List.Basic
import Std.Data.ExtTreeMap

/-!
# Bounded maps with an order queue

A map that keeps its keys in a queue beside it, in the order they came, and evicts from the front
of the queue while it holds more than its limit. While the two stand in step the eviction never
meets an empty queue and leaves the latest keys.
-/

namespace OffloadFabric.Lib.Fifo

/-- The latest keys of all that came, as many as the limit allows. -/
def latest {κ : Type} (limit : Nat) (keys : List κ) : List κ := keys.drop (keys.length - limit)

/-- What came before the latest keys no longer matters when more come. -/
theorem latest_append {κ : Type} {limit : Nat} (keys more : List κ) :
    latest limit (latest limit keys ++ more) = latest limit (keys ++ more) := by
  have hdrop : latest limit keys ++ more = (keys ++ more).drop (keys.length - limit) :=
    (List.drop_append_of_le_length (by omega)).symm
  rw [hdrop, latest, List.drop_drop, latest]
  congr 1
  simp only [List.length_drop, List.length_append]
  omega

variable {κ ν : Type} [Ord κ] [Std.TransOrd κ]

/-- The queue holds each key of the map once and nothing else. -/
structure InStep (order : List κ) (entries : Std.ExtTreeMap κ ν) : Prop where
  nodup : order.Nodup
  mem : ∀ k, k ∈ order ↔ k ∈ entries

/-- Evict the oldest keys while the map exceeds the limit; nothing when the queue is empty then. -/
def evict (limit : Nat) :
    List κ → Std.ExtTreeMap κ ν → Option (List κ × Std.ExtTreeMap κ ν)
  | [], entries => if limit < entries.size then none else some ([], entries)
  | oldest :: order, entries =>
      if limit < entries.size then evict limit order (entries.erase oldest)
      else some (oldest :: order, entries)

theorem InStep.empty : InStep [] (∅ : Std.ExtTreeMap κ ν) :=
  ⟨List.nodup_nil, fun k ↦ by simp⟩

variable [Std.LawfulEqOrd κ] {order : List κ} {entries : Std.ExtTreeMap κ ν} {k : κ}

omit [Std.LawfulEqOrd κ] in
/-- What an eviction leaves was there before. -/
theorem getElem?_of_evict {limit : Nat} {order' : List κ} {kept : Std.ExtTreeMap κ ν} {v : ν}
    (h : evict limit order entries = some (order', kept)) (hk : kept[k]? = some v) :
    entries[k]? = some v := by
  induction order generalizing entries with
  | nil =>
    unfold evict at h
    split at h
    · cases h
    · cases h
      exact hk
  | cons oldest order ih =>
    unfold evict at h
    split at h
    · have hfound := ih h
      rw [Std.ExtTreeMap.getElem?_erase] at hfound
      split at hfound
      · cases hfound
      · exact hfound
    · cases h
      exact hk

theorem mem_erase {a : κ} : a ∈ entries.erase k ↔ k ≠ a ∧ a ∈ entries := by
  rw [Std.ExtTreeMap.mem_erase]
  exact and_congr_left' (not_congr Std.LawfulEqCmp.compare_eq_iff_eq)

theorem mem_insert {v : ν} {a : κ} : a ∈ entries.insert k v ↔ k = a ∨ a ∈ entries := by
  rw [Std.ExtTreeMap.mem_insert]
  exact or_congr_left Std.LawfulEqCmp.compare_eq_iff_eq

namespace InStep

theorem keys (entries : Std.ExtTreeMap κ ν) : InStep entries.keys entries := by
  refine ⟨List.Pairwise.imp (fun {a b} hne heq ↦ hne ?_) Std.ExtTreeMap.distinct_keys,
    fun k ↦ Std.ExtTreeMap.mem_keys⟩
  exact Std.LawfulEqCmp.compare_eq_iff_eq.mpr heq

/-- The queue is as long as the map is large. -/
theorem size (h : InStep order entries) : entries.size = order.length := by
  have hperm : entries.keys.Perm order :=
    (List.perm_ext_iff_of_nodup (keys entries).nodup h.nodup).mpr fun k ↦ by
      rw [Std.ExtTreeMap.mem_keys, h.mem]
  rw [← hperm.length_eq, Std.ExtTreeMap.length_keys]

/-- A new key goes to the back of the queue. -/
theorem push (h : InStep order entries) (v : ν) (hk : k ∉ entries) :
    InStep (order ++ [k]) (entries.insert k v) := by
  have hnot : k ∉ order := fun hmem ↦ hk ((h.mem k).mp hmem)
  refine ⟨?_, fun a ↦ ?_⟩
  · rw [List.nodup_append]
    refine ⟨h.nodup, List.pairwise_singleton _ k, fun a ha b hb heq ↦ hnot ?_⟩
    rw [List.mem_singleton] at hb
    rwa [← hb, ← heq]
  · rw [mem_insert, List.mem_append, List.mem_singleton, h.mem, or_comm, eq_comm]

/-- A known key keeps its place. -/
theorem overwrite (h : InStep order entries) (v : ν) (hk : k ∈ entries) :
    InStep order (entries.insert k v) := by
  refine ⟨h.nodup, fun a ↦ ?_⟩
  rw [mem_insert, h.mem]
  constructor
  · exact .inr
  · rintro (rfl | ha)
    · exact hk
    · exact ha

/-- The front of the queue leaves both. -/
theorem pop (h : InStep (k :: order) entries) : InStep order (entries.erase k) := by
  obtain ⟨hk, hnodup⟩ := List.nodup_cons.mp h.nodup
  refine ⟨hnodup, fun a ↦ ?_⟩
  rw [mem_erase, ← h.mem, List.mem_cons]
  constructor
  · intro ha
    exact ⟨fun heq ↦ hk (heq ▸ ha), .inr ha⟩
  · rintro ⟨hne, rfl | ha⟩
    · exact absurd rfl hne
    · exact ha

/-- **The eviction never meets an empty queue.** It leaves the latest keys, as many as the limit
allows, with their values. -/
theorem evict (h : InStep order entries) (limit : Nat) :
    ∃ kept, Fifo.evict limit order entries = some (latest limit order, kept) ∧
      InStep (latest limit order) kept ∧ kept.size ≤ limit ∧
      ∀ k ∈ latest limit order, kept[k]? = entries[k]? := by
  induction order generalizing entries with
  | nil =>
    have hsize : ¬ limit < entries.size := by simp [h.size]
    have hnil : latest limit ([] : List κ) = [] := List.drop_nil
    rw [hnil]
    exact ⟨entries, by rw [Fifo.evict, if_neg hsize], h, by omega, fun _ _ ↦ rfl⟩
  | cons oldest order ih =>
    have hsize := h.size
    rw [List.length_cons] at hsize
    by_cases hover : limit < entries.size
    · obtain ⟨kept, hevict, hstep, hle, hsame⟩ := ih h.pop
      have hlatest : latest limit (oldest :: order) = latest limit order := by
        have hlength : order.length + 1 - limit = order.length - limit + 1 := by omega
        rw [latest, List.length_cons, hlength, List.drop_succ_cons, latest]
      rw [Fifo.evict, if_pos hover, hlatest]
      refine ⟨kept, hevict, hstep, hle, fun k hk ↦ ?_⟩
      have hne : oldest ≠ k := by
        rintro rfl
        exact (List.nodup_cons.mp h.nodup).1 (List.mem_of_mem_drop hk)
      rw [hsame k hk, Std.ExtTreeMap.getElem?_erase,
        if_neg (fun heq ↦ hne (Std.LawfulEqCmp.compare_eq_iff_eq.mp heq))]
    · have hlatest : latest limit (oldest :: order) = oldest :: order := by
        rw [latest, List.length_cons, show order.length + 1 - limit = 0 by omega, List.drop_zero]
      rw [hlatest]
      exact ⟨entries, by rw [Fifo.evict, if_neg hover], h, by omega, fun _ _ ↦ rfl⟩

end InStep

end OffloadFabric.Lib.Fifo
