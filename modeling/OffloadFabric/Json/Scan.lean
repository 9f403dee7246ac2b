import OffloadFabric.Json.Grammar

/-!
# Scanning a document for what a rule forbids

An automaton that reads a text byte by byte and rests between the parts of a document. Where it
finds a string or a number that keeps one set of rules and not another, the documents of the one
in which it finds nothing are the documents of the other.
-/

namespace OffloadFabric.Json

/-- A scan: it starts and comes back to `outside` between the parts of a document, rests behind a
part, and stays where it has found something. -/
structure Scan (Mode : Type) where
  step : Mode → UInt8 → Mode
  outside : Mode
  found : Mode
  Resting : Mode → Prop

namespace Scan

variable {Mode : Type} (scan : Scan Mode)

/-- The mode behind a text. -/
def run (m : Mode) (text : Bytes) : Mode := text.foldl scan.step m

@[simp] theorem run_nil (m : Mode) : scan.run m [] = m := rfl

@[simp] theorem run_cons (m : Mode) (c : UInt8) (text : Bytes) :
    scan.run m (c :: text) = scan.run (scan.step m c) text := rfl

@[simp] theorem run_append (m : Mode) (a b : Bytes) :
    scan.run m (a ++ b) = scan.run (scan.run m a) b := List.foldl_append

/-- White space and the six structural characters. -/
def punctuation : Bytes := [0x20, 0x09, 0x0A, 0x0D, 0x2C, 0x3A, 0x5B, 0x5D, 0x7B, 0x7D]

variable (ruled : Prop)

/-- The text is not refused: the rule holds anyway, or the scan finds nothing. -/
def Passed (text : Bytes) : Prop := ruled ∨ scan.run scan.outside text ≠ scan.found

/-- The scan separates the strings and numbers of the rules `r` that keep the rules `r'` as
well. -/
structure Separates (r r' : Rules) : Prop where
  step_found : ∀ c, scan.step scan.found c = scan.found
  resting_outside : scan.Resting scan.outside
  not_resting_found : ¬ scan.Resting scan.found
  step_punctuation : ∀ {m c}, scan.Resting m → c ∈ punctuation → scan.step m c = scan.outside
  literal : ∀ text ∈ [ascii "null", ascii "true", ascii "false"],
    scan.Resting (scan.run scan.outside text)
  string : ∀ {text out}, Chars r text out → scan.Passed ruled (0x22 :: text ++ [0x22]) →
    Chars r' text out ∧ scan.run scan.outside (0x22 :: text ++ [0x22]) = scan.outside
  number : ∀ {text v}, Number r text v → scan.Passed ruled text →
    Number r' text v ∧ scan.Resting (scan.run scan.outside text)

variable {scan ruled} {r r' : Rules}

theorem run_found (h : scan.Separates ruled r r') (text : Bytes) :
    scan.run scan.found text = scan.found := by
  induction text with
  | nil => rfl
  | cons c text ih => rw [run_cons, h.step_found, ih]

/-- What a text passes, its front passes. -/
theorem Passed.front (h : scan.Separates ruled r r') {a b : Bytes}
    (hpassed : scan.Passed ruled (a ++ b)) : scan.Passed ruled a := by
  rcases hpassed with hruled | hrun
  · exact .inl hruled
  · right
    intro hfound
    rw [run_append, hfound, run_found h] at hrun
    exact hrun rfl

/-- What a text passes, the rest of it behind a part passes. -/
theorem Passed.behind {a b : Bytes} (ha : scan.run scan.outside a = scan.outside)
    (hpassed : scan.Passed ruled (a ++ b)) : scan.Passed ruled b := by
  rcases hpassed with hruled | hrun
  · exact .inl hruled
  · right
    rwa [run_append, ha] at hrun

theorem run_space (h : scan.Separates ruled r r') {space : Bytes} (hspace : Space space) :
    scan.run scan.outside space = scan.outside := by
  induction space with
  | nil => rfl
  | cons c space ih =>
    obtain ⟨hc, hspace⟩ := List.forall_mem_cons.mp hspace
    have hmem : c ∈ punctuation := List.mem_append_left [0x2C, 0x3A, 0x5B, 0x5D, 0x7B, 0x7D] hc
    rw [run_cons, h.step_punctuation h.resting_outside hmem, ih hspace]

/-- White space behind a part. -/
theorem resting_space (h : scan.Separates ruled r r') {m : Mode} (hm : scan.Resting m)
    {space : Bytes} (hspace : Space space) : scan.Resting (scan.run m space) := by
  cases space with
  | nil => exact hm
  | cons c space =>
    obtain ⟨hc, hspace⟩ := List.forall_mem_cons.mp hspace
    have hmem : c ∈ punctuation := List.mem_append_left [0x2C, 0x3A, 0x5B, 0x5D, 0x7B, 0x7D] hc
    rw [run_cons, h.step_punctuation hm hmem, run_space h hspace]
    exact h.resting_outside

/-- A structural character behind a part and white space. -/
theorem run_punctuation (h : scan.Separates ruled r r') {a : Bytes}
    (ha : scan.Resting (scan.run scan.outside a)) {c : UInt8} (hc : c ∈ punctuation) :
    scan.run scan.outside (a ++ [c]) = scan.outside := by
  rw [run_append, run_cons, run_nil, h.step_punctuation ha hc]

/-- A form whose texts, where they pass, keep another form and end at rest. -/
def Keeps {α : Type} (scan : Scan Mode) (ruled : Prop) (form form' : Bytes → α → Prop) : Prop :=
  ∀ text x, form text x → scan.Passed ruled text →
    form' text x ∧ scan.Resting (scan.run scan.outside text)

theorem Keeps.separated {α : Type} {form form' : Bytes → α → Prop}
    (h : scan.Separates ruled r r') (hform : scan.Keeps ruled form form') :
    scan.Keeps ruled (Separated form) (Separated form') := by
  intro text xs hsep
  induction hsep with
  | last hitem hspace =>
    intro hpassed
    obtain ⟨hitem, hrest⟩ := hform _ _ hitem (hpassed.front h)
    refine ⟨.last hitem hspace, ?_⟩
    rw [run_append]
    exact resting_space h hrest hspace
  | @more text space rest x xs hitem hspace _ ih =>
    intro hpassed
    have hfront : text ++ space ++ 0x2C :: rest = text ++ space ++ [0x2C] ++ rest := by simp
    rw [hfront] at hpassed ⊢
    obtain ⟨hitem, hrest⟩ := hform _ _ hitem (((hpassed.front h).front h).front h)
    have hspaced : scan.Resting (scan.run scan.outside (text ++ space)) := by
      rw [run_append]
      exact resting_space h hrest hspace
    have hcomma := run_punctuation h hspaced (c := 0x2C) (by decide)
    obtain ⟨hothers, hend⟩ := ih (hpassed.behind hcomma)
    rw [run_append, hcomma, ← hfront]
    exact ⟨.more hitem hspace hothers, hend⟩

theorem Keeps.element {form form' : Bytes → JsonValue → Prop} (h : scan.Separates ruled r r')
    (hform : scan.Keeps ruled form form') :
    scan.Keeps ruled (Element form) (Element form') := by
  rintro text v ⟨space, inner, hspace, hinner, rfl⟩ hpassed
  have hrun := run_space h hspace
  obtain ⟨hinner, hrest⟩ := hform _ _ hinner (hpassed.behind hrun)
  rw [run_append, hrun]
  exact ⟨⟨space, inner, hspace, hinner, rfl⟩, hrest⟩

theorem Keeps.member {form form' : Bytes → JsonValue → Prop} (h : scan.Separates ruled r r')
    (hform : scan.Keeps ruled form form') :
    scan.Keeps ruled (Member r form) (Member r' form') := by
  rintro text m ⟨space, key, behind, element, hspace, hkey, hbehind, helement, rfl⟩ hpassed
  have hparts : space ++ 0x22 :: key ++ 0x22 :: behind ++ 0x3A :: element =
      space ++ ((0x22 :: key ++ [0x22]) ++ ((behind ++ [0x3A]) ++ element)) := by
    simp
  have hspaced := run_space h hspace
  rw [hparts] at hpassed
  obtain ⟨hkey, hquoted⟩ := h.string hkey ((hpassed.behind hspaced).front h)
  have hcolon : scan.run scan.outside (behind ++ [0x3A]) = scan.outside :=
    run_punctuation h (resting_space h h.resting_outside hbehind) (by decide)
  obtain ⟨helement, hrest⟩ :=
    hform.element h _ _ helement (((hpassed.behind hspaced).behind hquoted).behind hcolon)
  refine ⟨⟨space, key, behind, element, hspace, hkey, hbehind, helement, rfl⟩, ?_⟩
  rw [hparts, run_append, hspaced, run_append, hquoted, run_append, hcolon]
  exact hrest

/-- Brackets around parts that end at rest. -/
theorem brackets (h : scan.Separates ruled r r') {opening closing : UInt8} {inner : Bytes}
    (hopening : opening ∈ punctuation) (hclosing : closing ∈ punctuation)
    (hpassed : scan.Passed ruled (opening :: inner ++ [closing])) :
    scan.Passed ruled inner ∧ (scan.Resting (scan.run scan.outside inner) →
      scan.Resting (scan.run scan.outside (opening :: inner ++ [closing]))) := by
  have hopen : scan.run scan.outside [opening] = scan.outside := by
    rw [run_cons, run_nil, h.step_punctuation h.resting_outside hopening]
  have hparts : opening :: inner ++ [closing] = [opening] ++ (inner ++ [closing]) := rfl
  rw [hparts] at hpassed ⊢
  refine ⟨(hpassed.behind hopen).front h, ?_⟩
  intro hinner
  rw [run_append, hopen, run_punctuation h hinner hclosing]
  exact h.resting_outside

theorem Keeps.layer {form form' : Bytes → JsonValue → Prop} (h : scan.Separates ruled r r')
    (hform : scan.Keeps ruled form form') :
    scan.Keeps ruled (Layer r form) (Layer r' form') := by
  intro text v hlayer hpassed
  cases hlayer with
  | null => exact ⟨.null, h.literal _ (by decide)⟩
  | true => exact ⟨.true, h.literal _ (by decide)⟩
  | false => exact ⟨.false, h.literal _ (by decide)⟩
  | number hnumber =>
    obtain ⟨hnumber, hrest⟩ := h.number hnumber hpassed
    exact ⟨.number hnumber, hrest⟩
  | string hchars =>
    obtain ⟨hchars, hrun⟩ := h.string hchars hpassed
    refine ⟨.string hchars, ?_⟩
    rw [hrun]
    exact h.resting_outside
  | emptyArray hspace =>
    obtain ⟨-, hrest⟩ := brackets h (by decide) (by decide) hpassed
    exact ⟨.emptyArray hspace, hrest (resting_space h h.resting_outside hspace)⟩
  | array hvalues =>
    obtain ⟨hinner, hrest⟩ := brackets h (by decide) (by decide) hpassed
    obtain ⟨hvalues, hend⟩ := (hform.element h).separated h _ _ hvalues hinner
    exact ⟨.array hvalues, hrest hend⟩
  | emptyObject hspace =>
    obtain ⟨-, hrest⟩ := brackets h (by decide) (by decide) hpassed
    exact ⟨.emptyObject hspace, hrest (resting_space h h.resting_outside hspace)⟩
  | object hms hnodup =>
    obtain ⟨hinner, hrest⟩ := brackets h (by decide) (by decide) hpassed
    obtain ⟨hms, hend⟩ := (hform.member h).separated h _ _ hms hinner
    exact ⟨.object hms hnodup, hrest hend⟩

theorem keeps_value (h : scan.Separates ruled r r') (levels : Nat) :
    scan.Keeps ruled (Value r levels) (Value r' levels) := by
  induction levels with
  | zero =>
    intro text v hvalue
    exact hvalue.elim
  | succ levels ih => exact ih.layer h

/-- **A document in which the scan finds nothing** is one of the other rules, and in a document
that keeps the rule the scan finds nothing. -/
theorem keeps_document (h : scan.Separates ruled r r') (maxDepth : Nat) {text : Bytes}
    {v : JsonValue} (hdocument : Document r maxDepth text v) (hpassed : scan.Passed ruled text) :
    Document r' maxDepth text v ∧ scan.run scan.outside text ≠ scan.found := by
  obtain ⟨element, behind, helement, hbehind, rfl⟩ := hdocument
  obtain ⟨helement, hrest⟩ := (keeps_value h (maxDepth + 1)).element h _ _ helement (hpassed.front h)
  refine ⟨⟨element, behind, helement, hbehind, rfl⟩, ?_⟩
  intro hfound
  apply h.not_resting_found
  rw [← hfound, run_append]
  exact resting_space h hrest hbehind

end Scan

end OffloadFabric.Json
