import OffloadFabric.Model.Scope
import OffloadFabric.Lib.Delimited

/-!
# Scope identity

`ScopeSpec::canonical_text` and `derive_scope_id` (`src/scope.cpp:64-124`): four fields joined by a
bar that no validated field before the last contains, hashed and truncated.
-/

namespace OffloadFabric

open Lib

/-! ## Characters -/

/-- The bar that joins the fields of a scope, `src/scope.cpp:110-111`. -/
def scopeBar : UInt8 := 0x7C

/-- No token contains a bar. -/
theorem Token.bar_not_mem {d : IdDomain} (t : Token d) : scopeBar ∉ t.value := by
  intro hmem
  rcases t.canonical with hnil | hvalid
  · rw [hnil] at hmem
    cases hmem
  · cases hvalue : t.value with
    | nil =>
      rw [hvalue] at hmem
      cases hmem
    | cons head tail =>
      rw [hvalue] at hvalid hmem
      simp only [isValidToken, Bool.and_eq_true, List.all_eq_true] at hvalid
      exact absurd (hvalid.2 scopeBar hmem) (by decide)

/-- The kinds of scopes have different names, without a bar. -/
theorem ScopeKind.token_inj {k k' : ScopeKind} (h : ascii k.token = ascii k'.token) : k = k' := by
  cases k <;> cases k' <;> first | rfl | exact absurd h (by decide)

theorem ScopeKind.bar_not_mem (k : ScopeKind) : scopeBar ∉ ascii k.token := by
  cases k <;> decide

/-- A hexadecimal digit may stand anywhere in a token. -/
theorem isTokenHead_hexDigit (n : UInt64) (h : n.toNat < 16) : isTokenHead (hexDigit n) = true := by
  have hdigit : ∀ i < 16, isTokenHead (hexDigit (UInt64.ofNat i)) = true := by decide
  have := hdigit n.toNat h
  rwa [UInt64.ofNat_toNat] at this

theorem Digest.isTokenHead_hex (d : Digest) : ∀ c ∈ d.hex, isTokenHead c = true := by
  intro c hc
  obtain ⟨b, -, hb⟩ := List.mem_flatMap.mp hc
  simp only [List.mem_cons, List.not_mem_nil, or_false] at hb
  rcases hb with rfl | rfl
  · apply isTokenHead_hexDigit
    have hlt := b.toNat_lt
    rw [UInt8.toNat_toUInt64, UInt8.toNat_shiftRight]
    change b.toNat >>> 4 < 16
    rw [Nat.shiftRight_eq_div_pow]
    omega
  · apply isTokenHead_hexDigit
    rw [UInt8.toNat_toUInt64, UInt8.toNat_and]
    change b.toNat &&& 15 < 2 ^ 4
    exact Nat.and_lt_two_pow _ (by decide)

namespace ScopeSpec

variable {s t : ScopeSpec}

/-! ## The text -/

/-- The text of a specification: its fields joined by bars. -/
def fieldText (s : ScopeSpec) : Bytes :=
  delimited scopeBar [ascii s.kind.token, s.domain.value, s.device.value] s.selector

theorem canonicalText_eq_ok (h : s.validate = .ok ()) : s.canonicalText = .ok s.fieldText := by
  unfold canonicalText fieldText delimited
  rw [h]
  simp only [delimited, List.append_assoc]
  rfl

/-- Only the last field, the selector, is not kept from a bar by the type of its values. -/
theorem bar_not_mem (s : ScopeSpec) :
    ∀ field ∈ [ascii s.kind.token, s.domain.value, s.device.value], scopeBar ∉ field := by
  simp only [List.forall_mem_cons, List.not_mem_nil, false_implies, implies_true, and_true]
  exact ⟨s.kind.bar_not_mem, s.domain.bar_not_mem, s.device.bar_not_mem⟩

/-- The text determines the specification. -/
theorem fieldText_inj : s.fieldText = t.fieldText ↔ s = t := by
  constructor
  · intro htext
    obtain ⟨hfields, hselector⟩ := (delimited_inj (by rfl) s.bar_not_mem t.bar_not_mem).mp htext
    simp only [List.cons.injEq, and_true] at hfields
    obtain ⟨hkind, hdomain, hdevice⟩ := hfields
    cases s
    cases t
    rw [mk.injEq]
    exact ⟨ScopeKind.token_inj hkind, Token.ext hdomain, Token.ext hdevice, hselector⟩
  · rintro rfl
    rfl

/-! ## The identity -/

/-- The truncated hash of a text, `src/scope.cpp:120-122`. -/
def truncatedHash (text : Bytes) : Bytes := (sha256 text).hex.take 16

/-- The identity of a specification is a token made of the truncated hash of its text. -/
theorem deriveScopeId_eq_ok (h : s.validate = .ok ()) :
    ∃ id, s.deriveScopeId = .ok id ∧ id.value = ascii "sc-" ++ truncatedHash s.fieldText := by
  have hvalid : isValidToken (ascii "sc-" ++ truncatedHash s.fieldText) = true := by
    have hlength : (truncatedHash s.fieldText).length ≤ 16 := List.length_take_le _ _
    have htail : ∀ c ∈ ascii "sc-" ++ truncatedHash s.fieldText, isTokenTail c = true := by
      intro c hc
      rcases List.mem_append.mp hc with hc | hc
      · exact (by decide +kernel : ∀ c ∈ ascii "sc-", isTokenTail c = true) c hc
      · have hhead := Digest.isTokenHead_hex _ c ((List.take_sublist _ _).mem hc)
        rw [isTokenTail, hhead]
        rfl
    change (decide (_ ≤ 64) && isTokenHead 0x73 && List.all _ isTokenTail) = true
    rw [List.all_eq_true.mpr htail, Bool.and_true, Bool.and_eq_true, decide_eq_true_eq]
    refine ⟨?_, by decide⟩
    rw [List.length_append]
    change 3 + _ ≤ 64
    omega
  refine ⟨⟨_, .inr hvalid⟩, ?_, rfl⟩
  unfold deriveScopeId
  rw [canonicalText_eq_ok h]
  exact dif_pos hvalid

/-- Different texts with one truncated hash. -/
def Collide (text text' : Bytes) : Prop := text ≠ text' ∧ truncatedHash text = truncatedHash text'

/-- Two valid specifications have one text exactly when they are equal, and one identity exactly
when they are equal or their texts collide in the truncated hash. -/
theorem scope_identity_faithful (s t : ScopeSpec) (hs : s.validate = .ok ())
    (ht : t.validate = .ok ()) :
    (s.canonicalText = t.canonicalText ↔ s = t) ∧
      ((∃ id, s.deriveScopeId = .ok id ∧ t.deriveScopeId = .ok id) ↔
        s = t ∨ ∃ text text', s.canonicalText = .ok text ∧ t.canonicalText = .ok text' ∧
          Collide text text') := by
  obtain ⟨id, hid, hvalue⟩ := deriveScopeId_eq_ok hs
  obtain ⟨id', hid', hvalue'⟩ := deriveScopeId_eq_ok ht
  have htexts : s.canonicalText = t.canonicalText ↔ s = t := by
    rw [canonicalText_eq_ok hs, canonicalText_eq_ok ht, Except.ok.injEq, fieldText_inj]
  refine ⟨htexts, ?_⟩
  constructor
  · rintro ⟨common, hcommon, hcommon'⟩
    by_cases heq : s = t
    · exact .inl heq
    · right
      refine ⟨_, _, canonicalText_eq_ok hs, canonicalText_eq_ok ht, mt fieldText_inj.mp heq, ?_⟩
      have hsame : id = id' := by
        cases hid.symm.trans hcommon
        cases hid'.symm.trans hcommon'
        rfl
      rw [hsame, hvalue'] at hvalue
      exact (List.append_cancel_left hvalue).symm
  · rintro (rfl | ⟨text, text', htext, htext', -, hhash⟩)
    · exact ⟨id, hid, hid⟩
    · cases (canonicalText_eq_ok hs).symm.trans htext
      cases (canonicalText_eq_ok ht).symm.trans htext'
      rw [hhash, ← hvalue'] at hvalue
      exact ⟨id, hid, Token.ext hvalue ▸ hid'⟩

/-- A flow and a host scope have different texts. -/
theorem scope_identity_faithful_flow :
    let flow : ScopeSpec := { selector := ascii "tcp:443" }
    let host : ScopeSpec := { kind := .host, domain := ⟨ascii "h1", .inr (by decide)⟩ }
    (flow.canonicalText = host.canonicalText ↔ flow = host) ∧
      ((∃ id, flow.deriveScopeId = .ok id ∧ host.deriveScopeId = .ok id) ↔
        flow = host ∨ ∃ text text', flow.canonicalText = .ok text ∧
          host.canonicalText = .ok text' ∧ Collide text text') :=
  scope_identity_faithful _ _ (by decide) (by decide)

end ScopeSpec

end OffloadFabric
