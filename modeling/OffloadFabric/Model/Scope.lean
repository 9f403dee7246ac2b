import OffloadFabric.Model.Function

/-!
# Governed scopes

`include/nof/scope.hpp` and `src/scope.cpp`: scope specifications, their validation and
canonical text, the derived scope identity and the exclusivity keys.
-/

namespace OffloadFabric

open Lib

/-- `ScopeKind`, `include/nof/scope.hpp:17-23`. -/
inductive ScopeKind where
  | flow | interface | host | queue | global
  deriving DecidableEq, Repr

namespace ScopeKind

/-- The durable number of a scope kind, `include/nof/scope.hpp:18-22`. -/
def code : ScopeKind → UInt8
  | .flow => 1
  | .interface => 2
  | .host => 3
  | .queue => 4
  | .global => 5

/-- The kind a raw number names, `src/scope.cpp:10-24`. -/
def ofCode? : UInt8 → Option ScopeKind
  | 1 => some .flow
  | 2 => some .interface
  | 3 => some .host
  | 4 => some .queue
  | 5 => some .global
  | _ => none

instance : Coded ScopeKind UInt8 where
  code := code
  ofCode? := ofCode?
  ofCode?_code c := by cases c <;> rfl

/-- `to_string(ScopeKind)`, `src/scope.cpp:10-24`. -/
def token : ScopeKind → String
  | .flow => "flow"
  | .interface => "interface"
  | .host => "host"
  | .queue => "queue"
  | .global => "global"

end ScopeKind

/-- `ExclusiveKeyMode`, `include/nof/scope.hpp:31-34`. -/
inductive ExclusiveKeyMode where
  | perClass | perScope
  deriving DecidableEq, Repr

namespace ExclusiveKeyMode

/-- The durable number of a key mode, `include/nof/scope.hpp:32-33`. -/
def code : ExclusiveKeyMode → UInt8
  | .perClass => 1
  | .perScope => 2

/-- The key mode a raw number names, `src/scope.cpp:43-51`. -/
def ofCode? : UInt8 → Option ExclusiveKeyMode
  | 1 => some .perClass
  | 2 => some .perScope
  | _ => none

instance : Coded ExclusiveKeyMode UInt8 where
  code := code
  ofCode? := ofCode?
  ofCode?_code c := by cases c <;> rfl

end ExclusiveKeyMode

/-- `ScopeSpec`, `include/nof/scope.hpp:39-53`. -/
structure ScopeSpec where
  kind : ScopeKind := .flow
  domain : HostId := .empty
  device : DeviceId := .empty
  selector : Bytes := []
  deriving DecidableEq

namespace ScopeSpec

/-- `ScopeSpec::validate`, `src/scope.cpp:64-99`. -/
def validate (s : ScopeSpec) : Result Unit := do
  match s.kind with
  | .global =>
      require (s.domain = .empty ∧ s.device = .empty ∧ s.selector = [])
        ⟨.malformedInput, "global scope must not carry a domain, device, or selector"⟩
  | .host =>
      require (s.domain ≠ .empty) ⟨.malformedInput, "host scope requires a domain host"⟩
      require (s.device = .empty ∧ s.selector = [])
        ⟨.malformedInput, "host scope must not carry a device or selector"⟩
  | .interface | .queue =>
      require (s.device ≠ .empty) ⟨.malformedInput, "device-anchored scope requires a device"⟩
      require (s.selector ≠ []) ⟨.malformedInput, "device-anchored scope requires a selector"⟩
  | .flow => require (s.selector ≠ []) ⟨.malformedInput, "flow scope requires a selector"⟩
  require (s.selector = [] ∨ isValidSelector s.selector = true)
    ⟨.invalidIdentifier, "scope selector is not canonical"⟩

/-- `ScopeSpec::canonical_text`, `src/scope.cpp:101-109`. -/
def canonicalText (s : ScopeSpec) : Result Bytes := do
  s.validate
  return ascii s.kind.token ++ ascii "|" ++ s.domain.value ++ ascii "|" ++ s.device.value ++
    ascii "|" ++ s.selector

/-- `derive_scope_id`, `src/scope.cpp:111-120`. -/
def deriveScopeId (s : ScopeSpec) : Result ScopeId := do
  let text ← s.canonicalText
  Token.parse (ascii "sc-" ++ (sha256 text).hex.take 16)

end ScopeSpec

/-- `ExclusivityKey`, `include/nof/scope.hpp:62-68`. -/
structure ExclusivityKey where
  scope : ScopeId
  cls : FunctionClass
  deriving DecidableEq

namespace ExclusivityKey

/-- `ExclusivityKeyLess`, `src/detail/fabric_state.hpp:69-76`. -/
instance : Ord ExclusivityKey := ⟨compareLex (compareOn scope) (compareOn cls)⟩

instance : Std.TransOrd ExclusivityKey :=
  inferInstanceAs (Std.TransCmp (compareLex (compareOn scope) (compareOn cls)))

instance : Std.LawfulEqOrd ExclusivityKey where
  eq_of_compare {a b} h := by
    have hkey : compareLex (compareOn scope) (compareOn cls) a b = .eq := h
    obtain ⟨hs, hc⟩ := compareLex_eq_eq.mp hkey
    have hscope : compare a.scope b.scope = .eq := hs
    have hcls : compare a.cls b.cls = .eq := hc
    cases a
    cases b
    rw [mk.injEq]
    exact ⟨Std.LawfulEqCmp.eq_of_compare hscope, Std.LawfulEqCmp.eq_of_compare hcls⟩

end ExclusivityKey

end OffloadFabric
