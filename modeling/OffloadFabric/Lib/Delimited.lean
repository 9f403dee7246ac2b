import Mathlib.Data.List.Basic

/-!
# Fields joined by a separator

Fields that do not contain a separator, each followed by it, before a last field that may be
anything: the joined list determines the fields.
-/

namespace OffloadFabric.Lib

variable {α : Type} {sep : α}

/-- Fields, each followed by the separator, and a last one. -/
def delimited (sep : α) : List (List α) → List α → List α
  | [], last => last
  | field :: fields, last => field ++ sep :: delimited sep fields last

/-- The first separator ends the first field. -/
theorem append_sep_inj {field field' rest rest' : List α} (h : sep ∉ field) (h' : sep ∉ field') :
    field ++ sep :: rest = field' ++ sep :: rest' ↔ field = field' ∧ rest = rest' := by
  constructor
  · intro heq
    induction field generalizing field' with
    | nil =>
      cases field' with
      | nil => exact ⟨rfl, (List.cons.inj heq).2⟩
      | cons x field' =>
        obtain ⟨rfl, -⟩ := List.cons.inj heq
        exact absurd List.mem_cons_self h'
    | cons x field ih =>
      cases field' with
      | nil =>
        obtain ⟨rfl, -⟩ := List.cons.inj heq
        exact absurd List.mem_cons_self h
      | cons y field' =>
        obtain ⟨rfl, htail⟩ := List.cons.inj heq
        obtain ⟨rfl, hrest⟩ := ih (mt (List.mem_cons_of_mem x) h) (mt (List.mem_cons_of_mem x) h')
          htail
        exact ⟨rfl, hrest⟩
  · rintro ⟨rfl, rfl⟩
    rfl

/-- As many fields without the separator are determined by the joined list, and so is the last. -/
theorem delimited_inj {fields fields' : List (List α)} {last last' : List α}
    (hlength : fields.length = fields'.length) (h : ∀ field ∈ fields, sep ∉ field)
    (h' : ∀ field ∈ fields', sep ∉ field) :
    delimited sep fields last = delimited sep fields' last' ↔ fields = fields' ∧ last = last' := by
  induction fields generalizing fields' with
  | nil =>
    obtain rfl : fields' = [] := List.length_eq_zero_iff.mp hlength.symm
    simp [delimited]
  | cons field fields ih =>
    cases fields' with
    | nil => cases hlength
    | cons field' fields' =>
      obtain ⟨hfield, hfields⟩ := List.forall_mem_cons.mp h
      obtain ⟨hfield', hfields'⟩ := List.forall_mem_cons.mp h'
      rw [delimited, delimited, append_sep_inj hfield hfield',
        ih (Nat.succ.inj hlength) hfields hfields', List.cons.injEq, and_assoc]

end OffloadFabric.Lib
