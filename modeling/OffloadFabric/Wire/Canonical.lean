import OffloadFabric.Lib.Layout
import OffloadFabric.Wire.Domain
import OffloadFabric.Wire.Extends

/-!
# What the wire readers accept

The converse of the round trips: the bytes that a reader took are those that the writer writes
of the value it returned. A function class is the exception. It is stored in two bytes and
read from the low one, so the layouts mark it as padded.
-/

namespace OffloadFabric

open Lib Lib.Coder

/-! ## Enumerations -/

instance : LawfulCoded FunctionClass where
  code_of_ofCode? {n a} h := by
    change FunctionClass.ofCode? n = some a at h
    unfold FunctionClass.ofCode? at h
    split at h <;> cases h <;> rfl

instance : LawfulCoded DeviceKind where
  code_of_ofCode? {n a} h := by
    change DeviceKind.ofCode? n = some a at h
    unfold DeviceKind.ofCode? at h
    split at h <;> cases h <;> rfl

instance : LawfulCoded LinkKind where
  code_of_ofCode? {n a} h := by
    change LinkKind.ofCode? n = some a at h
    unfold LinkKind.ofCode? at h
    split at h <;> cases h <;> rfl

instance : LawfulCoded ScopeKind where
  code_of_ofCode? {n a} h := by
    change ScopeKind.ofCode? n = some a at h
    unfold ScopeKind.ofCode? at h
    split at h <;> cases h <;> rfl

instance : LawfulCoded ExclusiveKeyMode where
  code_of_ofCode? {n a} h := by
    change ExclusiveKeyMode.ofCode? n = some a at h
    unfold ExclusiveKeyMode.ofCode? at h
    split at h <;> cases h <;> rfl

instance : LawfulCoded Exclusivity where
  code_of_ofCode? {n a} h := by
    change Exclusivity.ofCode? n = some a at h
    unfold Exclusivity.ofCode? at h
    split at h <;> cases h <;> rfl

instance : LawfulCoded ExecutionMode where
  code_of_ofCode? {n a} h := by
    change ExecutionMode.ofCode? n = some a at h
    unfold ExecutionMode.ofCode? at h
    split at h <;> cases h <;> rfl

instance : LawfulCoded AssignmentState where
  code_of_ofCode? {n a} h := by
    change AssignmentState.ofCode? n = some a at h
    unfold AssignmentState.ofCode? at h
    split at h <;> cases h <;> rfl

instance : LawfulCoded EffectOutcome where
  code_of_ofCode? {n a} h := by
    change EffectOutcome.ofCode? n = some a at h
    unfold EffectOutcome.ofCode? at h
    split at h <;> cases h <;> rfl

instance : LawfulCoded Liveness where
  code_of_ofCode? {n a} h := by
    change Liveness.ofCode? n = some a at h
    unfold Liveness.ofCode? at h
    split at h <;> cases h <;> rfl

instance : LawfulCoded AuthorityAction where
  code_of_ofCode? {n a} h := by
    change AuthorityAction.ofCode? n = some a at h
    unfold AuthorityAction.ofCode? at h
    split at h <;> cases h <;> rfl

instance : LawfulCoded MatchVerdict where
  code_of_ofCode? {n a} h := by
    change MatchVerdict.ofCode? n = some a at h
    unfold MatchVerdict.ofCode? at h
    split at h <;> cases h <;> rfl

instance : LawfulCoded Decision where
  code_of_ofCode? {n a} h := by
    change Decision.ofCode? n = some a at h
    unfold Decision.ofCode? at h
    split at h <;> cases h <;> rfl

/-! ## Primitives -/

namespace Reader

variable {n : Nat}

theorem take_run_ok {k : Nat} {s t p : Bytes} (h : (take k).run n s = (.ok p, t)) :
    s = p ++ t ∧ p.length = k := by
  unfold take at h
  simp only [run_bind, run_get] at h
  split at h
  · next hle =>
      simp only [run_bind, run_set, run_pure, Prod.mk.injEq, Except.ok.injEq] at h
      obtain ⟨rfl, rfl⟩ := h
      exact ⟨(List.take_append_drop k s).symm, List.length_take_of_le hle⟩
  · cases h

end Reader

/-- An append writes its data wherever it fits. -/
private theorem Writer.run_append_of_le {data s : Bytes} {c : Nat}
    (h : (s ++ data).length ≤ c) : (Writer.append data).run c s = (.ok (), s ++ data) := by
  rw [Writer.run_append, if_pos (by rwa [List.length_append] at h)]

private theorem rewrites_append {k : Nat} {p s t : Bytes} (hs : s = p ++ t)
    (hp : p.length = k) : Rewrites (Layout.fixed k).padding (Writer.append p) s t := by
  subst hs hp
  exact ⟨p, p, [], rfl, rfl, Layout.padding_fixed p t, by simp, Writer.run_append_of_le⟩

variable {n : Nat}

/-- Little-endian digits are written again as they were read. -/
private theorem canonical_le {α : Type} {k : Nat} {f : Bytes → α} {v : α → Nat}
    (hv : ∀ p : Bytes, p.length = k → v (f p) = ofLe p) :
    Canonical (.fixed k) n (Reader.take k >>= fun raw ↦ pure (f raw))
      (fun a ↦ Writer.append (le k (v a))) := by
  constructor
  intro s t a h
  obtain ⟨p, u, hp, h⟩ := run_bind_ok h
  cases h
  obtain ⟨hs, hk⟩ := Reader.take_run_ok hp
  have hw : le k (v (f p)) = p := by rw [hv p hk, ← hk, le_ofLe]
  show Rewrites _ (Writer.append (le k (v (f p)))) s t
  rw [hw]
  exact rewrites_append hs hk

private theorem ofLe_lt_of_length {p : Bytes} {k : Nat} (h : p.length = k) :
    ofLe p < 256 ^ k := h ▸ ofLe_lt p

theorem canonical_u8 : Canonical (.fixed 1) n Reader.u8 Writer.u8 := by
  have h : Canonical (.fixed 1) n Reader.u8 fun a ↦ Writer.append (le 1 a.toNat) :=
    canonical_le fun p hp ↦ by
      have := ofLe_lt_of_length hp
      rw [UInt8.toNat_ofNat', Nat.mod_eq_of_lt (by omega)]
  constructor
  intro s t a hrun
  have hle : le 1 a.toNat = [a] := by
    simp only [le, Nat.toUInt8_eq, Nat.mod_eq_of_lt a.toNat_lt, UInt8.ofNat_toNat]
  have hw : Rewrites _ (Writer.append (le 1 a.toNat)) s t := h.rewrites hrun
  rwa [hle] at hw

theorem canonical_u16 : Canonical (.fixed 2) n Reader.u16 Writer.u16 :=
  canonical_le fun p hp ↦ by
    have := ofLe_lt_of_length hp
    rw [UInt16.toNat_ofNat', Nat.mod_eq_of_lt (by omega)]

theorem canonical_u32 : Canonical (.fixed 4) n Reader.u32 Writer.u32 :=
  canonical_le fun p hp ↦ by
    have := ofLe_lt_of_length hp
    rw [UInt32.toNat_ofNat', Nat.mod_eq_of_lt (by omega)]

theorem canonical_u64 : Canonical (.fixed 8) n Reader.u64 Writer.u64 :=
  canonical_le fun p hp ↦ by
    have := ofLe_lt_of_length hp
    rw [UInt64.toNat_ofNat', Nat.mod_eq_of_lt (by omega)]

theorem canonical_i64 : Canonical (.fixed 8) n Reader.i64 Writer.i64 :=
  canonical_u64.last fun v ↦ UInt64.toUInt64_toInt64 v

theorem canonical_boolean : Canonical (.fixed 1) n Reader.boolean Writer.boolean := by
  refine canonical_u8.checked (π := fun v : Bool ↦ if v then 1 else 0) fun {a s t b} h ↦ ?_
  split at h
  · next hle =>
      cases h
      refine ⟨rfl, ?_⟩
      have hcases : a = 0 ∨ a = 1 := by
        rw [UInt8.le_iff_toNat_le] at hle
        rw [← UInt8.toNat_inj, ← UInt8.toNat_inj]
        change a.toNat ≤ 1 at hle
        change a.toNat = 0 ∨ a.toNat = 1
        omega
      rcases hcases with rfl | rfl
      · rfl
      · rfl
  · cases h

/-- A string that was read stands behind its length. -/
private theorem text_run_ok {s t v : Bytes} (h : Reader.text.run n s = (.ok v, t)) :
    ∃ size : Bytes, s = size ++ v ++ t ∧ size.length = 4 ∧ ofLe size = v.length := by
  obtain ⟨size, s₁, hsize, h₁⟩ := run_bind_ok h
  obtain ⟨limit, s₂, hlimit, h₂⟩ := run_bind_ok h₁
  cases hlimit
  obtain ⟨raw, s₃, hraw, hpure⟩ := run_bind_ok hsize
  cases hpure
  obtain ⟨rfl, hlen⟩ := Reader.take_run_ok hraw
  have hdigits : (UInt32.ofNat (ofLe raw)).toNat = ofLe raw := by
    have := ofLe_lt_of_length hlen
    rw [UInt32.toNat_ofNat', Nat.mod_eq_of_lt (by omega)]
  split at h₂
  · obtain ⟨rfl, hv⟩ := Reader.take_run_ok h₂
    exact ⟨raw, (List.append_assoc ..).symm, hlen, by rw [hv, hdigits]⟩
  · cases h₂

theorem canonical_text : Canonical .sized n Reader.text Writer.text := by
  constructor
  intro s t v h
  obtain ⟨size, rfl, hlen, hv⟩ := text_run_ok h
  have hlt := ofLe_lt_of_length hlen
  have hsize : le 4 (UInt32.ofNat v.length).toNat = size := by
    rw [UInt32.toNat_ofNat', Nat.mod_eq_of_lt (by omega), ← hv, ← hlen, le_ofLe]
  have hw : Writer.text v = (Writer.append size >>= fun _ ↦ Writer.append v) := by
    unfold Writer.text Writer.u32
    rw [if_pos (by omega), hsize]
  refine ⟨size ++ v, size ++ v, [], rfl, rfl, Layout.padding_sized hlen hv, by simp, ?_⟩
  intro c s' hle
  rw [← List.append_assoc] at hle ⊢
  have hfst : (s' ++ size).length ≤ c := by
    rw [List.length_append] at hle
    omega
  rw [hw, run_bind, Writer.run_append_of_le hfst]
  exact Writer.run_append_of_le hle

private theorem canonical_tokenText :
    Canonical .sized n Reader.tokenText (fun v ↦ Writer.text v.1) := by
  refine canonical_text.checked fun {a s t b} h ↦ ?_
  split at h
  · cases h
    exact ⟨rfl, rfl⟩
  · cases h

theorem canonical_token {d : IdDomain} :
    Canonical .sized n (Reader.token (d := d)) Writer.token :=
  canonical_tokenText.last (f := fun v ↦ (⟨v.1, v.2⟩ : Token d)) (π := fun v ↦ ⟨v.value, v.canonical⟩)
    fun _ ↦ rfl

theorem canonical_label : Canonical .sized n Reader.label Writer.text := by
  constructor
  intro s t v h
  obtain ⟨a, u, ha, hv⟩ := run_bind_ok h
  cases hv
  exact canonical_tokenText.rewrites ha

theorem canonical_digest : Canonical (.fixed 32) n Reader.digest Writer.digest := by
  constructor
  intro s t v h
  obtain ⟨raw, u, hraw, hv⟩ := run_bind_ok h
  obtain ⟨rfl, hlen⟩ := Reader.take_run_ok hraw
  rw [dif_pos hlen] at hv
  cases hv
  exact rewrites_append rfl hlen

theorem canonical_semantics : Canonical (.fixed 8) n Reader.semantics Writer.semantics :=
  canonical_u64.last fun _ ↦ rfl

private theorem known_run_ok {α : Type} {value : Option α} {detail : String} {s t : Bytes}
    {a : α} (h : (Reader.known value detail).run n s = (.ok a, t)) : t = s ∧ value = some a := by
  unfold Reader.known at h
  split at h
  · cases h
    exact ⟨rfl, rfl⟩
  · cases h

theorem canonical_enum8 {α : Type} [Coded α UInt8] [LawfulCoded α] :
    Canonical (.fixed 1) n (Reader.enum8 (α := α)) Writer.enum8 :=
  canonical_u8.checked (π := Coded.code) fun h ↦
    ⟨(known_run_ok h).1, LawfulCoded.code_of_ofCode? (known_run_ok h).2⟩

theorem canonical_reasonCode (detail : String) :
    Canonical (.fixed 2) n (Reader.reasonCode detail) Writer.reasonCode := by
  refine canonical_u16.checked (π := ReasonCode.code) fun {a s t b} h ↦ ?_
  obtain ⟨hs, hb⟩ := known_run_ok h
  have hcode := List.find?_some (show ReasonCode.all.find? (fun r ↦ r.code == a) = some b from hb)
  exact ⟨hs, eq_of_beq hcode⟩

/-- The low byte of a word is a class number exactly as the class is written. -/
private theorem code_of_low {low high : UInt8} {v : FunctionClass}
    (h : FunctionClass.ofCode? (UInt16.ofNat (ofLe [low, high]) &&& 0xFF) = some v) :
    v.code.toNat = low.toNat := by
  have hcode : v.code = UInt16.ofNat (ofLe [low, high]) &&& 0xFF :=
    LawfulCoded.code_of_ofCode? (α := FunctionClass) h
  have hlow := low.toNat_lt
  have hhigh := high.toNat_lt
  rw [hcode, UInt16.toNat_and, UInt16.toNat_ofNat']
  simp only [ofLe]
  change _ &&& (2 ^ 8 - 1) = _
  rw [Nat.and_two_pow_sub_one_eq_mod]
  omega

/-- A function class is read from the low of its two bytes and written with a zero high one. -/
theorem canonical_functionClass :
    Canonical .padded n Reader.functionClass Writer.functionClass := by
  constructor
  intro s t v h
  obtain ⟨word, u, hword, hknown⟩ := run_bind_ok h
  obtain ⟨rfl, hv⟩ := known_run_ok hknown
  obtain ⟨raw, s₁, hraw, hpure⟩ := run_bind_ok hword
  cases hpure
  obtain ⟨rfl, hlen⟩ := Reader.take_run_ok hraw
  obtain ⟨low, high, rfl⟩ := List.length_eq_two.mp hlen
  have hlow := low.toNat_lt
  have hw : le 2 v.code.toNat = [low, 0] := by
    have hdigit : low.toNat / 256 = 0 := by omega
    simp only [le, code_of_low hv, Nat.mod_eq_of_lt hlow, hdigit, Nat.toUInt8_eq,
      UInt8.ofNat_toNat]
    rfl
  refine ⟨[low, high], [low, 0], [high], rfl, rfl, rfl, ?_, fun hle ↦ ?_⟩
  · simp only [List.cons.injEq, true_and, and_true, List.mem_singleton, forall_eq]
    exact eq_comm
  · unfold Writer.functionClass Writer.u16
    rw [hw]
    exact Writer.run_append_of_le hle

private theorem count_run_ok {k maxCount : Nat} {s t : Bytes}
    (h : (Reader.count maxCount).run n s = (.ok k, t)) :
    ∃ size : Bytes, s = size ++ t ∧ size.length = 4 ∧ ofLe size = k := by
  obtain ⟨size, s₁, hsize, h₁⟩ := run_bind_ok h
  obtain ⟨raw, s₂, hraw, hpure⟩ := run_bind_ok hsize
  cases hpure
  obtain ⟨rfl, hlen⟩ := Reader.take_run_ok hraw
  have hlt := ofLe_lt_of_length hlen
  split at h₁
  · cases h₁
    refine ⟨raw, rfl, hlen, ?_⟩
    rw [UInt32.toNat_ofNat', Nat.mod_eq_of_lt (by omega)]
  · cases h₁

/-- A counted collection. -/
theorem canonical_list {α : Type} {ℓ : Layout} {e : α → Writer} {d : Reader α} (maxCount : Nat)
    (h : Canonical ℓ n d e) :
    Canonical (.counted ℓ) n (Wire.decList maxCount d) (Wire.encList e) := by
  constructor
  intro s t xs hrun
  obtain ⟨count, s₁, hcount, htimes⟩ := run_bind_ok hrun
  obtain ⟨size, rfl, hlen, rfl⟩ := count_run_ok hcount
  obtain ⟨hxs, hrest⟩ := h.times htimes
  have hlt := ofLe_lt_of_length hlen
  have hsize : le 4 (UInt32.ofNat xs.length).toNat = size := by
    rw [UInt32.toNat_ofNat', hxs, Nat.mod_eq_of_lt (by omega), ← hlen, le_ofLe]
  have hw : Wire.encList e xs = (Writer.append size >>= fun _ ↦ each e xs) := by
    unfold Wire.encList Writer.count Writer.u32
    rw [if_pos (by omega), hsize]
  have hseq := (rewrites_append (t := s₁) rfl hlen).seq hrest
  obtain ⟨p, q, k, hs, hq, hk, hpq, hwrite⟩ := hseq
  refine ⟨p, q, k, hs, hq, ?_, hpq, hw ▸ hwrite⟩
  have htake : (size ++ s₁).take 4 = size := by rw [← hlen, List.take_left]
  have hdrop : (size ++ s₁).drop 4 = s₁ := by rw [← hlen, List.drop_left]
  simp only [Walk.seq, ← hlen, Layout.padding_fixed, Option.bind_eq_bind, Option.bind_some] at hk
  unfold Layout.padding
  rw [if_pos (by simp [hlen]), htake, hdrop]
  simpa using hk

end OffloadFabric
