import OffloadFabric.Base.Digest
import OffloadFabric.Base.Checked
import OffloadFabric.Base.ReasonCode

/-!
# Identities, generations and tokens

The strongly typed identities of `include/nof/ids.hpp` and their canonical text rules from
`src/ids.cpp`. A token carries the proof that it is empty or canonical: the source builds
one with `parse`, or with `from_validated` after the reader checked the text.
-/

namespace OffloadFabric

/-- The head characters of a token, `src/ids.cpp:14-16`. -/
def isTokenHead (c : UInt8) : Bool := (97 ≤ c && c ≤ 122) || (48 ≤ c && c ≤ 57)

/-- The tail characters of a token, `src/ids.cpp:17-19`. -/
def isTokenTail (c : UInt8) : Bool := isTokenHead c || c == 46 || c == 95 || c == 58 || c == 45

/-- `is_valid_token`, `src/ids.cpp:10-29`. -/
def isValidToken (text : Bytes) : Bool :=
  match text with
  | [] => false
  | head :: _ => text.length ≤ 64 && isTokenHead head && text.all isTokenTail

/-- `is_lower_hex`, `src/ids.cpp:31-43`. -/
def isLowerHex (text : Bytes) (length : Nat) : Bool :=
  text.length == length && text.all fun c ↦ (48 ≤ c && c ≤ 57) || (97 ≤ c && c ≤ 102)

/-- `is_valid_selector`, `src/ids.cpp:45-56`. -/
def isValidSelector (text : Bytes) : Bool :=
  text ≠ [] && text.length ≤ 192 &&
    text.all fun c ↦ isTokenHead c || c == 46 || c == 95 || c == 58 || c == 45 || c == 61 || c == 44

theorem length_le_of_isValidToken {text : Bytes} (h : isValidToken text = true) :
    text.length ≤ 64 := by
  cases text with
  | nil => cases h
  | cons c cs =>
      simp only [isValidToken, Bool.and_eq_true, decide_eq_true_eq] at h
      exact h.1.1

/-- The identity domains of `include/nof/ids.hpp:88-109`. -/
inductive IdDomain where
  | host | device | function | scope | source | authority | assignment | request | boot | store
  deriving DecidableEq, Repr

/-- `Token<Tag>`, `include/nof/ids.hpp:38-69`: the empty text or a canonical token. -/
structure Token (domain : IdDomain) where
  value : Bytes
  canonical : value = [] ∨ isValidToken value = true

namespace Token

variable {d : IdDomain}

@[ext] theorem ext {a b : Token d} (h : a.value = b.value) : a = b := by
  cases a
  cases b
  cases h
  rfl

instance : DecidableEq (Token d) := fun a b ↦
  decidable_of_iff (a.value = b.value) ⟨ext, congrArg value⟩

/-- The default token, `include/nof/ids.hpp:41`. -/
def empty : Token d := ⟨[], .inl rfl⟩

instance : Inhabited (Token d) := ⟨empty⟩

/-- `is_set`, `include/nof/ids.hpp:61`. -/
def isSet (t : Token d) : Prop := t.value ≠ []

instance (t : Token d) : Decidable t.isSet := inferInstanceAs (Decidable (t.value ≠ []))

/-- `Token::parse`, `include/nof/ids.hpp:43-48`. -/
def parse (text : Bytes) : Result (Token d) :=
  if h : isValidToken text = true then .ok ⟨text, .inr h⟩
  else .error ⟨.invalidIdentifier, "invalid token"⟩

/-- The order of tokens is the order of their bytes, `include/nof/ids.hpp:64`. -/
instance : Ord (Token d) := ⟨compareOn value⟩

instance : Std.TransOrd (Token d) := inferInstanceAs (Std.TransCmp (compareOn value))

instance : Std.LawfulEqOrd (Token d) where
  eq_of_compare {a b} h := by
    have hv : compare a.value b.value = .eq := h
    exact ext (Std.LawfulEqCmp.eq_of_compare hv)

instance : LT (Token d) := ⟨fun a b ↦ compare a b = .lt⟩

instance (a b : Token d) : Decidable (a < b) := inferInstanceAs (Decidable (compare a b = .lt))

theorem eq_empty_iff (t : Token d) : t = empty ↔ t.value = [] :=
  ⟨fun h ↦ by rw [h]; rfl, fun h ↦ ext h⟩

theorem isSet_iff_ne_empty (t : Token d) : t.isSet ↔ t ≠ empty :=
  not_congr (eq_empty_iff t).symm

/-- Tokens are at most sixty-four bytes. -/
theorem length_le (t : Token d) : t.value.length ≤ 64 := by
  rcases t.canonical with h | h
  · simp [h]
  · exact length_le_of_isValidToken h

end Token

abbrev HostId := Token .host
abbrev DeviceId := Token .device
abbrev FunctionId := Token .function
abbrev ScopeId := Token .scope
abbrev SourceId := Token .source
abbrev AuthorityId := Token .authority
abbrev AssignmentId := Token .assignment
abbrev RequestId := Token .request
abbrev StoreId := Token .store

/-- `BootId`, `include/nof/ids.hpp:114-139`. Readers only check the token rule,
`src/wire.cpp:157`, so a boot identity may have any token length. -/
abbrev BootId := Token .boot

/-- `BootId::is_set`, `include/nof/ids.hpp:133`: exactly thirty-two characters. -/
def bootIsSet (b : BootId) : Prop := b.value.length = 32

instance (b : BootId) : Decidable (bootIsSet b) :=
  inferInstanceAs (Decidable (b.value.length = 32))

/-- `Gen<Tag>`, `include/nof/ids.hpp:155-186`: zero means unset. -/
abbrev Gen := UInt64

abbrev TopologyGeneration := Gen
abbrev CapabilityGeneration := Gen
abbrev PolicyGeneration := Gen
abbrev AssignmentGeneration := Gen
abbrev SchemaGeneration := Gen
abbrev LeaseId := Gen
abbrev AttemptId := Gen
abbrev IncarnationGeneration := Gen

/-- `Gen::is_set`, `include/nof/ids.hpp:180`. -/
def Gen.isSet (g : Gen) : Prop := g ≠ 0

instance (g : Gen) : Decidable (Gen.isSet g) := inferInstanceAs (Decidable (g ≠ 0))

/-- `CoordinatorEpoch`, `include/nof/ids.hpp:211-219`. -/
structure CoordinatorEpoch where
  counter : UInt64
  boot : BootId
  deriving DecidableEq

/-- `FencingToken`, `include/nof/ids.hpp:224-232`. -/
structure FencingToken where
  epoch : UInt64
  sequence : UInt64
  deriving DecidableEq

/-- `FencingToken::is_set`, `include/nof/ids.hpp:218`. -/
def FencingToken.isSet (t : FencingToken) : Prop := t.epoch ≠ 0 ∧ t.sequence ≠ 0

instance (t : FencingToken) : Decidable t.isSet :=
  inferInstanceAs (Decidable (t.epoch ≠ 0 ∧ t.sequence ≠ 0))

/-- The defaulted three-way order of fencing tokens, `include/nof/ids.hpp:221`. -/
instance : LT FencingToken :=
  ⟨fun a b ↦ a.epoch < b.epoch ∨ (a.epoch = b.epoch ∧ a.sequence < b.sequence)⟩

theorem FencingToken.lt_def (a b : FencingToken) :
    a < b ↔ a.epoch < b.epoch ∨ (a.epoch = b.epoch ∧ a.sequence < b.sequence) := Iff.rfl

namespace FencingToken

instance : Ord FencingToken := ⟨compareLex (compareOn epoch) (compareOn sequence)⟩

instance : Std.TransOrd FencingToken :=
  inferInstanceAs (Std.TransCmp (compareLex (compareOn epoch) (compareOn sequence)))

instance : Std.LawfulEqOrd FencingToken where
  eq_of_compare {a b} h := by
    have hkey : compareLex (compareOn epoch) (compareOn sequence) a b = .eq := h
    obtain ⟨he, hs⟩ := compareLex_eq_eq.mp hkey
    have hepoch : compare a.epoch b.epoch = .eq := he
    have hsequence : compare a.sequence b.sequence = .eq := hs
    cases a
    cases b
    rw [mk.injEq]
    exact ⟨Std.LawfulEqCmp.eq_of_compare hepoch, Std.LawfulEqCmp.eq_of_compare hsequence⟩

end FencingToken

/-- `IncarnationId`, `include/nof/ids.hpp:238-246`. -/
structure IncarnationId where
  generation : IncarnationGeneration
  boot : BootId
  deriving DecidableEq

/-- `IncarnationId::is_set`, `include/nof/ids.hpp:242`. -/
def IncarnationId.isSet (i : IncarnationId) : Prop := Gen.isSet i.generation ∧ bootIsSet i.boot

instance (i : IncarnationId) : Decidable i.isSet :=
  inferInstanceAs (Decidable (Gen.isSet i.generation ∧ bootIsSet i.boot))

/-- `Provenance`, `include/nof/ids.hpp:251-259`. -/
structure Provenance where
  source : SourceId
  sequence : UInt64
  deriving DecidableEq

/-- `Provenance::is_set`, `include/nof/ids.hpp:245`. -/
def Provenance.isSet (p : Provenance) : Prop := p.source.isSet ∧ p.sequence ≠ 0

instance (p : Provenance) : Decidable p.isSet :=
  inferInstanceAs (Decidable (p.source.isSet ∧ p.sequence ≠ 0))

end OffloadFabric
