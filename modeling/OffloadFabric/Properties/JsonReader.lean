import OffloadFabric.Json.Accepts
import OffloadFabric.Json.Scan

/-!
# The reader and the strict grammar

`JsonReader::parse` (`src/canonical.cpp:442-714`) against the strict grammar. The reader has no
rule on leading zeros and refuses the byte `7F` in a string, and differs from the grammar in the
documents where that matters and in no other text.
-/

namespace OffloadFabric.JsonReader

open Json

/-! ## Leading zeros -/

/-- Where a scan for leading zeros is: outside of strings and numbers, in a string, behind a
backslash, behind a zero that begins a number, in another number, or behind a digit that follows
such a zero. -/
inductive ZeroMode where
  | outside | string | escape | zero | digits | found
  deriving DecidableEq

/-- A byte outside of strings and numbers. -/
def ZeroMode.enter (c : UInt8) : ZeroMode :=
  if c = 0x22 then .string else if c = 0x30 then .zero else if isDigit c then .digits else .outside

def ZeroMode.step : ZeroMode → UInt8 → ZeroMode
  | .outside, c => enter c
  | .string, c => if c = 0x22 then .outside else if c = 0x5C then .escape else .string
  | .escape, _ => .string
  | .zero, c => if isDigit c then .found else enter c
  | .digits, c => if isDigit c then .digits else enter c
  | .found, _ => .found

def zeroScan : Scan ZeroMode where
  step := ZeroMode.step
  outside := .outside
  found := .found
  Resting m := m = .outside ∨ m = .zero ∨ m = .digits

/-- Outside of strings a digit follows a zero that begins a number. -/
def superfluousZero (text : Bytes) : Bool := zeroScan.run .outside text = .found

theorem hexDigit_plain {d : UInt8} {n : Nat} (h : HexDigit d n) : d ≠ 0x22 ∧ d ≠ 0x5C := by
  constructor
  all_goals
    rintro rfl
    exact absurd (nibble_eq_some.mpr h) (by simp [nibble])

theorem run_chars {r : Rules} {text out : Bytes} (h : Chars r text out) :
    zeroScan.run .string text = .string := by
  have hplain : ∀ {c : UInt8}, c ≠ 0x22 → c ≠ 0x5C → zeroScan.step .string c = .string := by
    intro c hquote hslash
    change ZeroMode.step .string c = .string
    rw [ZeroMode.step, if_neg hquote, if_neg hslash]
  induction h with
  | nil => rfl
  | plain _ _ hquote hslash _ _ ih => rw [Scan.run_cons, hplain hquote hslash, ih]
  | escape _ _ ih => exact ih
  | unicode h0 h1 h2 h3 _ _ ih =>
    have hslash : zeroScan.run .string [0x5C, 0x75] = .string := rfl
    rw [Scan.run_cons, Scan.run_cons]
    change zeroScan.run (zeroScan.run .string [0x5C, 0x75]) _ = .string
    rw [hslash, Scan.run_cons, hplain (hexDigit_plain h0).1 (hexDigit_plain h0).2, Scan.run_cons,
      hplain (hexDigit_plain h1).1 (hexDigit_plain h1).2, Scan.run_cons,
      hplain (hexDigit_plain h2).1 (hexDigit_plain h2).2, Scan.run_cons,
      hplain (hexDigit_plain h3).1 (hexDigit_plain h3).2, ih]

theorem run_digits {digits : Bytes} (h : ∀ d ∈ digits, 0x30 ≤ d ∧ d ≤ 0x39) :
    zeroScan.run .digits digits = .digits := by
  induction digits with
  | nil => rfl
  | cons d digits ih =>
    obtain ⟨hd, hdigits⟩ := List.forall_mem_cons.mp h
    rw [Scan.run_cons]
    change zeroScan.run (if isDigit d then .digits else _) digits = _
    rw [if_pos (isDigit_iff.mpr hd), ih hdigits]

theorem run_found_mode (text : Bytes) : zeroScan.run .found text = .found := by
  induction text with
  | nil => rfl
  | cons c text ih => exact ih

/-- The scan of a number ends behind it, or has found a zero that it does not need. -/
theorem run_number {r : Rules} {digits : Bytes} (h : Digits r digits) :
    (zeroScan.run .outside digits = .found ∧ r.leadingZeros = true) ∨
      ((digits.head? = some 0x30 → digits = [0x30]) ∧
        zeroScan.Resting (zeroScan.run .outside digits)) := by
  obtain ⟨hne, hdigit, hzero⟩ := h
  cases digits with
  | nil => exact absurd rfl hne
  | cons d digits =>
    obtain ⟨hd, hdigits⟩ := List.forall_mem_cons.mp hdigit
    by_cases hlead : d = 0x30
    · subst hlead
      cases digits with
      | nil => exact .inr ⟨fun _ ↦ rfl, .inr (.inl rfl)⟩
      | cons d' digits =>
        obtain ⟨hd', -⟩ := List.forall_mem_cons.mp hdigits
        refine .inl ⟨?_, ?_⟩
        · change zeroScan.run (if isDigit d' then .found else _) digits = _
          rw [if_pos (isDigit_iff.mpr hd'), run_found_mode]
        · rcases hzero rfl with hleading | hone
          · exact hleading
          · cases hone
    · refine .inr ⟨?_, ?_⟩
      · intro hhead
        exact absurd (Option.some.inj hhead) hlead
      · have hquote : d ≠ 0x22 := by
          rintro rfl
          exact absurd hd.1 (by decide)
        change zeroScan.Resting (zeroScan.run (ZeroMode.enter d) digits)
        rw [ZeroMode.enter, if_neg hquote, if_neg hlead, if_pos (isDigit_iff.mpr hd),
          run_digits hdigits]
        exact .inr (.inr rfl)

/-- The scan for leading zeros separates the documents without them. -/
theorem separates_zero (z d : Bool) : zeroScan.Separates (z = false) ⟨z, d⟩ ⟨false, d⟩ where
  step_found _ := rfl
  resting_outside := .inl rfl
  not_resting_found := by
    rintro (h | h | h) <;> cases h
  step_punctuation := by
    intro m c hm hc
    have henter : ∀ c ∈ Scan.punctuation, ZeroMode.enter c = .outside ∧ isDigit c = false := by
      decide +kernel
    obtain ⟨hout, hdigit⟩ := henter c hc
    rcases hm with rfl | rfl | rfl
    · exact hout
    · change (if isDigit c then _ else ZeroMode.enter c) = _
      rw [if_neg (by rw [hdigit]; decide)]
      exact hout
    · change (if isDigit c then _ else ZeroMode.enter c) = _
      rw [if_neg (by rw [hdigit]; decide)]
      exact hout
  literal := by
    intro text htext
    left
    revert text
    decide
  string := by
    intro text out hchars _
    refine ⟨Chars.mono ?_ hchars, ?_⟩
    · exact id
    rw [Scan.run_append]
    change zeroScan.run (zeroScan.run .string text) [0x22] = _
    rw [run_chars hchars]
    rfl
  number := by
    intro text v hnumber hpassed
    have hdigits : ∀ {digits : Bytes}, Digits ⟨z, d⟩ digits →
        zeroScan.Passed (z = false) digits → Digits ⟨false, d⟩ digits ∧
          zeroScan.Resting (zeroScan.run .outside digits) := by
      intro digits h hpassed
      rcases run_number h with ⟨hfound, hleading⟩ | ⟨hzero, hrest⟩
      · rcases hpassed with hruled | hrun
        · rw [hruled] at hleading
          cases hleading
        · exact absurd hfound hrun
      · exact ⟨⟨h.ne_nil, h.digit, fun hhead ↦ .inr (hzero hhead)⟩, hrest⟩
    cases hnumber with
    | unsigned h hfits =>
      obtain ⟨h, hrest⟩ := hdigits h hpassed
      exact ⟨.unsigned h hfits, hrest⟩
    | negative h hfits =>
      obtain ⟨h, hrest⟩ := hdigits h hpassed
      exact ⟨.negative h hfits, hrest⟩

/-! ## The byte `7F` -/

/-- The scan for the byte `7F`. -/
def deleteScan : Scan Bool where
  step m c := m || decide (c = 0x7F)
  outside := false
  found := true
  Resting m := m = false

theorem run_delete (m : Bool) (text : Bytes) :
    deleteScan.run m text = (m || decide (0x7F ∈ text)) := by
  induction text generalizing m with
  | nil => simp
  | cons c text ih =>
    rw [Scan.run_cons, ih]
    change ((m || decide (c = 0x7F)) || _) = _
    simp only [List.mem_cons, Bool.decide_or, Bool.or_assoc]
    congr 2
    simp [eq_comm]

theorem passed_delete {ruled : Prop} {text : Bytes} :
    deleteScan.Passed ruled text ↔ ruled ∨ 0x7F ∉ text := by
  unfold Scan.Passed
  rw [run_delete]
  simp [deleteScan]

theorem resting_delete {text : Bytes} :
    deleteScan.Resting (deleteScan.run deleteScan.outside text) ↔ 0x7F ∉ text := by
  rw [run_delete]
  simp [deleteScan]

theorem delete_not_mem_digits {r : Rules} {digits : Bytes} (h : Digits r digits) :
    0x7F ∉ digits := fun hmem ↦ absurd (h.digit _ hmem).2 (by decide)

theorem chars_delete {z d : Bool} {text out : Bytes} (h : Chars ⟨z, d⟩ text out)
    (hpassed : d = false ∨ 0x7F ∉ text) : Chars ⟨z, false⟩ text out ∧ 0x7F ∉ text := by
  induction h with
  | nil => exact ⟨.nil, by simp⟩
  | @plain c text out hlow hhigh hquote hslash hdelete _ ih =>
    have hc : c ≠ 0x7F := by
      rintro rfl
      rcases hpassed with hruled | hnot
      · exact absurd (hdelete rfl) (by simp [hruled])
      · exact hnot (List.mem_cons_self ..)
    obtain ⟨hchars, hnot⟩ := ih (hpassed.imp_right List.not_mem_of_not_mem_cons)
    exact ⟨.plain hlow hhigh hquote hslash (fun h ↦ absurd h hc) hchars,
      List.not_mem_cons_of_ne_of_not_mem hc.symm hnot⟩
  | @escape e c text out hescape _ ih =>
    have he : e ≠ 0x7F := by
      rintro rfl
      exact absurd hescape (by simp [escapes])
    obtain ⟨hchars, hnot⟩ := ih (hpassed.imp_right fun h hmem ↦ h (by simp [hmem]))
    refine ⟨.escape hescape hchars, ?_⟩
    simp [he.symm, hnot]
  | @unicode d0 d1 d2 d3 n0 n1 n2 n3 text out h0 h1 h2 h3 hle _ ih =>
    have hhex : ∀ {d : UInt8} {n : Nat}, HexDigit d n → d ≠ 0x7F := by
      rintro d n h rfl
      exact absurd (nibble_eq_some.mpr h) (by simp [nibble])
    obtain ⟨hchars, hnot⟩ := ih (hpassed.imp_right fun h hmem ↦ h (by simp [hmem]))
    refine ⟨.unicode h0 h1 h2 h3 hle hchars, ?_⟩
    simp [(hhex h0).symm, (hhex h1).symm, (hhex h2).symm, (hhex h3).symm, hnot]

/-- The scan for the byte `7F` separates the documents without it. -/
theorem separates_delete (z d : Bool) : deleteScan.Separates (d = false) ⟨z, d⟩ ⟨z, false⟩ where
  step_found _ := rfl
  resting_outside := rfl
  not_resting_found := by
    intro h
    cases h
  step_punctuation := by
    intro m c hm hc
    have hne : ∀ c ∈ Scan.punctuation, (false || decide (c = 0x7F)) = false := by
      decide +kernel
    rw [show m = false from hm]
    exact hne c hc
  literal := by
    intro text htext
    apply resting_delete.mpr
    revert text
    decide
  string := by
    intro text out hchars hpassed
    rw [passed_delete] at hpassed
    obtain ⟨hkept, hnot⟩ := chars_delete hchars
      (hpassed.imp_right fun h hmem ↦ h (by simp [hmem]))
    refine ⟨hkept, resting_delete.mpr ?_⟩
    simp [hnot]
  number := by
    intro text v hnumber _
    cases hnumber with
    | unsigned h hfits =>
      exact ⟨.unsigned ⟨h.ne_nil, h.digit, h.zero⟩ hfits,
        resting_delete.mpr (delete_not_mem_digits h)⟩
    | negative h hfits =>
      refine ⟨.negative ⟨h.ne_nil, h.digit, h.zero⟩ hfits, resting_delete.mpr ?_⟩
      exact List.not_mem_cons_of_ne_of_not_mem (by decide) (delete_not_mem_digits h)

/-! ## Rules that allow more -/

/-- A scan that finds nothing. -/
def idleScan : Scan Bool where
  step m _ := m
  outside := false
  found := true
  Resting m := m = false

theorem run_idle (m : Bool) (text : Bytes) : idleScan.run m text = m := by
  induction text with
  | nil => rfl
  | cons c text ih => exact ih

theorem separates_idle {r r' : Rules} (hz : r.leadingZeros = true → r'.leadingZeros = true)
    (hd : r.rawDelete = true → r'.rawDelete = true) : idleScan.Separates True r r' where
  step_found _ := rfl
  resting_outside := rfl
  not_resting_found := by
    intro h
    cases h
  step_punctuation hm _ := hm
  literal _ _ := run_idle _ _
  string hchars _ := ⟨hchars.mono hd, run_idle _ _⟩
  number := by
    intro text v hnumber _
    have hdigits : ∀ {digits : Bytes}, Digits r digits → Digits r' digits :=
      fun h ↦ ⟨h.ne_nil, h.digit, fun hhead ↦ (h.zero hhead).imp_left hz⟩
    cases hnumber with
    | unsigned h hfits => exact ⟨.unsigned (hdigits h) hfits, run_idle _ _⟩
    | negative h hfits => exact ⟨.negative (hdigits h) hfits, run_idle _ _⟩

/-! ## The difference -/

/-- The reader accepts the strict documents and no others, except that it refuses those with a byte
`7F` and accepts those that are documents but for a zero that begins a longer number. -/
theorem parse_strict_iff (text : Bytes) (maxDepth : Nat) :
    ((∃ v, parse text maxDepth = .ok v) ↔ ∃ v, Document strict maxDepth text v) ↔
      ¬ ((∃ v, Document strict maxDepth text v) ∧ 0x7F ∈ text) ∧
        ¬ ((∃ v, Document lenient maxDepth text v) ∧ superfluousZero text = true) := by
  have hzero : superfluousZero text = true ↔ zeroScan.run zeroScan.outside text = zeroScan.found :=
    decide_eq_true_iff
  have hplain : ∀ v, Document lenient maxDepth text v → superfluousZero text = false →
      Document strict maxDepth text v := by
    intro v hv hnone
    have hrun : zeroScan.Passed (true = false) text := by
      right
      rw [ne_eq, ← hzero, hnone]
      decide
    have hkept := (Scan.keeps_document (separates_zero true false) maxDepth hv hrun).1
    have hwider : idleScan.Separates True ⟨false, false⟩ strict := separates_idle id fun _ ↦ rfl
    exact (Scan.keeps_document hwider maxDepth hkept (.inl trivial)).1
  have hled : ∀ v, Document strict maxDepth text v → superfluousZero text = false := by
    intro v hv
    have hrun := (Scan.keeps_document (separates_zero false true) maxDepth hv (.inl rfl)).2
    rw [← Bool.not_eq_true, hzero]
    exact hrun
  have hdelete : ∀ v, Document strict maxDepth text v → 0x7F ∉ text →
      Document lenient maxDepth text v := by
    intro v hv hnot
    have hkept := (Scan.keeps_document (separates_delete false true) maxDepth hv
      (passed_delete.mpr (.inr hnot))).1
    have hwider : idleScan.Separates True ⟨false, false⟩ lenient := separates_idle (fun _ ↦ rfl) id
    exact (Scan.keeps_document hwider maxDepth hkept (.inl trivial)).1
  have hraw : ∀ v, Document lenient maxDepth text v → 0x7F ∉ text := by
    intro v hv
    have hrun := (Scan.keeps_document (separates_delete true false) maxDepth hv (.inl rfl)).2
    rw [run_delete] at hrun
    simpa [deleteScan] using hrun
  simp only [parse_eq_ok]
  constructor
  · intro hiff
    constructor
    · rintro ⟨hstrict, hmem⟩
      obtain ⟨v, hv⟩ := hiff.mpr hstrict
      exact hraw v hv hmem
    · rintro ⟨hlenient, hsuperfluous⟩
      obtain ⟨v, hv⟩ := hiff.mp hlenient
      rw [hled v hv] at hsuperfluous
      cases hsuperfluous
  · rintro ⟨hnodelete, hnozero⟩
    constructor
    · rintro ⟨v, hv⟩
      refine ⟨v, hplain v hv ?_⟩
      rw [← Bool.not_eq_true]
      exact fun h ↦ hnozero ⟨⟨v, hv⟩, h⟩
    · rintro ⟨v, hv⟩
      exact ⟨v, hdelete v hv fun h ↦ hnodelete ⟨⟨v, hv⟩, h⟩⟩

/-- A zero in front of a zero is accepted. -/
theorem parse_not_strict : ¬ ∀ (text : Bytes) (maxDepth : Nat),
    (∃ v, parse text maxDepth = .ok v) ↔ ∃ v, Document strict maxDepth text v := by
  intro h
  obtain ⟨v, hv⟩ := (h (ascii "00") 32).mp ⟨.uinteger 0, by rfl⟩
  have hrun := (Scan.keeps_document (separates_zero false true) 32 hv (.inl rfl)).2
  exact hrun (by decide)

end OffloadFabric.JsonReader
