import OffloadFabric.Journal.Mirrored

/-!
# The store refines the log

The bytes of a journal and its snapshot (`src/journal.cpp:349-823`) answer every durable call as
the log answers it, across torn appends, interrupted compactions and restarts. Where they would
not, the log does not speak for the store.
-/

namespace OffloadFabric

open Lib Lib.Fallible Journal JournalStore

variable {b : Bounds} {recovery : RecoveryPolicy} {expected : StoreId} {session : StoreSession}
  {log : Log} {s : JournalStore} {now : UInt64} {generated : StoreId} {report : RecoveryReport}
  {o : Opening}

/-- **Every call** that is made where the log speaks for the store is answered as the log answers
it, and leaves the store behind the log. -/
theorem StoreCall.agree (hb : b.Encodable) (session : StoreSession) (log : Log) (call : StoreCall)
    (h : Mirrored b recovery expected session log) (hregular : call.Regular session) :
    Agree (Mirrored b recovery expected) call.onStore (call.onLog b) session log := by
  obtain ⟨contents, h⟩ := h
  cases call with
  | append short type payload => exact h.append hb hregular
  | compact stop payload => exact h.compact hb hregular
  | reopen now generated => exact h.reopen hb hregular

/-- A store that an opening has created stands behind the empty log. -/
theorem mirrors_created
    (hcreate : (openStore (storeOptions b recovery expected) now generated).exec ⟨{}, report⟩ =
      (.ok s, o)) : Mirrors b recovery expected ⟨[], [], 0, 0⟩ { store := s } {} := by
  have hbare := bare_of_create rfl hcreate
  unfold openStore at hcreate
  obtain ⟨husable, hcreate⟩ := exec_check_bind_ok hcreate
  simp only [exec_bind, exec_modify, exec_get] at hcreate
  unfold demand createStore at hcreate
  rw [if_pos (.inr rfl)] at hcreate
  simp only [exec_pure, Option.getD_none, if_true] at hcreate
  obtain ⟨hheader, hcreate⟩ := exec_check_bind_ok hcreate
  cases hcreate
  exact
    { sound := hbare.toSound
      options := rfl
      opened := rfl
      journal := by
        show some _ = some (_ ++ ([] ++ []))
        rw [List.append_nil, List.append_nil]
        rfl
      tail := .inl rfl
      bytes := rfl
      room := by
        have hfile := hbare.length_file
        have hrecord := UInt64.le_iff_toNat_le.mp husable.1
        have hjournal := UInt64.le_iff_toNat_le.mp husable.2.1
        change 256 ≤ b.maxRecordBytes.toNat at hrecord
        change b.maxRecordBytes.toNat ≤ b.maxJournalBytes.toNat at hjournal
        refine hfile.trans_le ?_
        simp only [headerSize]
        omega
      ascending := ⟨by simp, by simp, by simp⟩
      last := rfl
      snapshot := rfl
      bounded := fun _ hp ↦ by cases hp
      uncovered := fun _ ↦ rfl
      covers := le_rfl
      installed := le_rfl
      records := rfl
      counted := rfl
      writable := rfl }

/-- **The store refines the log**: a new store answers every run of calls as the empty log does,
openings with what they recover included. -/
theorem store_refines_log (hb : b.Encodable)
    (hcreate : (openStore (storeOptions b recovery expected) now generated).exec ⟨{}, report⟩ =
      (.ok s, o)) {calls : List StoreCall}
    (hregular : Guarded StoreCall.Regular StoreCall.onStore calls { store := s }) :
    (answers StoreCall.onStore calls { store := s }).1 =
      (answers (StoreCall.onLog b) calls {}).1 :=
  (answers_agree (StoreCall.agree hb) ⟨_, mirrors_created hcreate⟩ hregular).1

/-- A run over a torn append, a compaction that ends behind its snapshot, and two restarts. -/
def storeCalls : List StoreCall :=
  [.append none .functionRegistered [1], .append (some 9) .topologyIngested [2, 3],
    .reopen 5 .empty, .append none .policyIngested [4], .compact (some (.journal 12)) [5],
    .reopen 6 .empty, .append none .functionRegistered [6], .compact none [7, 8],
    .append none .authorityGranted [9], .reopen 7 .empty]

/-- A store that has just been created. -/
def createdStore : JournalStore :=
  { newStore ⟨_, canonical_hex⟩ with options := storeOptions {} .truncateTornTail .empty }

theorem store_refines_log_restarts :
    (answers StoreCall.onStore storeCalls { store := createdStore }).1 =
      (answers (StoreCall.onLog {}) storeCalls {}).1 := by
  have hcreate : (openStore (storeOptions {} .truncateTornTail .empty) 0
      ⟨_, canonical_hex⟩).exec ⟨{}, {}⟩ = (.ok createdStore, ⟨createdStore.files,
        { classification := .freshStore }⟩) := rfl
  exact store_refines_log ⟨by decide, by decide, by decide⟩ hcreate (by decide +kernel)

end OffloadFabric
