import OffloadFabric.Json.Value

/-!
# The complete document

The text of a value without any limit, where its parts begin in it, and what `dump_into` does in
these terms: the limits of depth and of size are met part by part and the text is appended.
-/

namespace OffloadFabric.JsonValue

mutual

/-- The complete document of a value. -/
def text : JsonValue → Bytes
  | .null => ascii "null"
  | .boolean value => if value then ascii "true" else ascii "false"
  | .integer value => signedDecimal value.toInt
  | .uinteger value => decimal value.toNat
  | .string value => quoted value
  | .array values => ascii "[" ++ elementsText values true ++ ascii "]"
  | .members ms => ascii "\x7b" ++ membersText ms true ++ ascii "\x7d"

/-- The values of an array, the first without a separator. -/
def elementsText : List JsonValue → Bool → Bytes
  | [], _ => []
  | v :: values, first =>
    (if first then [] else ascii ",") ++ text v ++ elementsText values false

/-- The members of an object, the first without a separator. -/
def membersText : List (Bytes × JsonValue) → Bool → Bytes
  | [], _ => []
  | m :: ms, first =>
    (if first then [] else ascii ",") ++ (quoted m.1 ++ ascii ":") ++ text m.2 ++
      membersText ms false

end

mutual

/-- How deep the parts of a value are nested. -/
def depth : JsonValue → Nat
  | .array values => elementsDepth values
  | .members ms => membersDepth ms
  | _ => 0

def elementsDepth : List JsonValue → Nat
  | [] => 0
  | v :: values => max (depth v + 1) (elementsDepth values)

def membersDepth : List (Bytes × JsonValue) → Nat
  | [] => 0
  | m :: ms => max (depth m.2 + 1) (membersDepth ms)

end

mutual

/-- Where a value and its parts begin, when the value begins at `base`. -/
def starts : JsonValue → (base : Nat) → List Nat
  | .array values, base => base :: elementsStarts values true (base + 1)
  | .members ms, base => base :: membersStarts ms true (base + 1)
  | _, base => [base]

def elementsStarts : List JsonValue → Bool → (base : Nat) → List Nat
  | [], _, _ => []
  | v :: values, first, base =>
    let base := base + if first then 0 else 1
    starts v base ++ elementsStarts values false (base + (text v).length)

def membersStarts : List (Bytes × JsonValue) → Bool → (base : Nat) → List Nat
  | [], _, _ => []
  | m :: ms, first, base =>
    let base := base + (if first then 0 else 1) + (quoted m.1).length + 1
    starts m.2 base ++ membersStarts ms false (base + (text m.2).length)

end

/-! ## What `dump_into` writes -/

/-- A value that begins at `base`, `depth` levels deep, meets the limits with all its parts. -/
structure Admitted (maxBytes : Nat) (v : JsonValue) (base depth : Nat) : Prop where
  depth_le : depth + v.depth ≤ jsonMaxDepth
  starts_lt : ∀ start ∈ v.starts base, start < maxBytes

variable {maxBytes : Nat} {v : JsonValue} {out out' : Bytes} {d : Nat}

/-- What the writer does with a value: it succeeds where the value meets the limits and appends
its text. -/
def Writes (maxBytes : Nat) (v : JsonValue) : Prop :=
  ∀ out depth out', dumpInto maxBytes v out depth = .ok out' ↔
    Admitted maxBytes v out.length depth ∧ out' = out ++ v.text

theorem appendEscaped_quoted (out text : Bytes) :
    appendEscaped (out ++ ascii "\"") text ++ ascii "\"" = out ++ quoted text := by
  simp only [appendEscaped, quoted, List.append_assoc]

/-- The loop over the values of an array. -/
theorem dumpElements_eq_ok {values : List JsonValue} (h : ∀ v ∈ values, Writes maxBytes v)
    (first : Bool) (out out' : Bytes) (depth : Nat) :
    dumpElements maxBytes values first out depth = .ok out' ↔
      (∀ v ∈ values, depth + v.depth ≤ jsonMaxDepth) ∧
        (∀ start ∈ elementsStarts values first out.length, start < maxBytes) ∧
          out' = out ++ elementsText values first := by
  induction values generalizing first out with
  | nil => simp [dumpElements, elementsStarts, elementsText, pure, Except.pure, eq_comm]
  | cons v values ih =>
    obtain ⟨hv, hvalues⟩ := List.forall_mem_cons.mp h
    have hout : (if first then out else out ++ ascii ",") =
        out ++ if first then [] else ascii "," := by
      cases first <;> simp
    have hlen : (if first then [] else ascii ",").length = if first then 0 else 1 := by
      cases first <;> rfl
    rw [dumpElements, hout, bind_eq_ok]
    simp only [hv _ depth _, ih hvalues false _, List.forall_mem_cons, elementsStarts,
      elementsText, List.length_append, hlen, List.forall_mem_append]
    constructor
    · rintro ⟨mid, ⟨⟨hdepth, hstarts⟩, rfl⟩, hdepths, hrest, rfl⟩
      refine ⟨⟨hdepth, hdepths⟩, ⟨hstarts, ?_⟩, ?_⟩
      · simpa only [List.length_append, hlen] using hrest
      · simp only [List.append_assoc]
    · rintro ⟨⟨hdepth, hdepths⟩, ⟨hstarts, hrest⟩, rfl⟩
      refine ⟨_, ⟨⟨hdepth, ?_⟩, rfl⟩, hdepths, ?_, ?_⟩
      · simpa only [List.length_append, hlen] using hstarts
      · simpa only [List.length_append, hlen] using hrest
      · simp only [List.append_assoc]

/-- The loop over the members of an object. -/
theorem dumpMembers_eq_ok {ms : List (Bytes × JsonValue)} (h : ∀ m ∈ ms, Writes maxBytes m.2)
    (first : Bool) (out out' : Bytes) (depth : Nat) :
    dumpMembers maxBytes ms first out depth = .ok out' ↔
      (∀ m ∈ ms, depth + m.2.depth ≤ jsonMaxDepth) ∧
        (∀ start ∈ membersStarts ms first out.length, start < maxBytes) ∧
          out' = out ++ membersText ms first := by
  induction ms generalizing first out with
  | nil => simp [dumpMembers, membersStarts, membersText, pure, Except.pure, eq_comm]
  | cons m ms ih =>
    obtain ⟨hm, hms⟩ := List.forall_mem_cons.mp h
    have hout : (if first then out else out ++ ascii ",") =
        out ++ if first then [] else ascii "," := by
      cases first <;> simp
    have hlen : (if first then [] else ascii ",").length = if first then 0 else 1 := by
      cases first <;> rfl
    have hcolon : (ascii ":").length = 1 := rfl
    rw [dumpMembers, hout, appendEscaped_quoted, bind_eq_ok]
    simp only [hm _ depth _, ih hms false _, List.forall_mem_cons, membersStarts, membersText,
      List.length_append, hlen, hcolon, List.forall_mem_append]
    constructor
    · rintro ⟨mid, ⟨⟨hdepth, hstarts⟩, rfl⟩, hdepths, hrest, rfl⟩
      refine ⟨⟨hdepth, hdepths⟩, ⟨hstarts, ?_⟩, ?_⟩
      · simpa only [List.length_append, hlen, hcolon] using hrest
      · simp only [List.append_assoc]
    · rintro ⟨⟨hdepth, hdepths⟩, ⟨hstarts, hrest⟩, rfl⟩
      refine ⟨_, ⟨⟨hdepth, ?_⟩, rfl⟩, hdepths, ?_, ?_⟩
      · simpa only [List.length_append, hlen, hcolon] using hstarts
      · simpa only [List.length_append, hlen, hcolon] using hrest
      · simp only [List.append_assoc]

theorem elementsDepth_le {values : List JsonValue} {n : Nat} :
    elementsDepth values ≤ n ↔ ∀ v ∈ values, v.depth + 1 ≤ n := by
  induction values with
  | nil => simp [elementsDepth]
  | cons v values ih => rw [elementsDepth, max_le_iff, ih, List.forall_mem_cons]

theorem membersDepth_le {ms : List (Bytes × JsonValue)} {n : Nat} :
    membersDepth ms ≤ n ↔ ∀ m ∈ ms, m.2.depth + 1 ≤ n := by
  induction ms with
  | nil => simp [membersDepth]
  | cons m ms ih => rw [membersDepth, max_le_iff, ih, List.forall_mem_cons]

/-- A value without parts is written after the two checks. -/
theorem writes_of_leaf (hdump : ∀ out depth, dumpInto maxBytes v out depth = do
      require (depth ≤ jsonMaxDepth) ⟨.outOfRange, "json nesting depth exceeded"⟩
      require (out.length + 1 ≤ maxBytes)
        ⟨.oversizedInput, "canonical json exceeds configured bound"⟩
      return out ++ v.text)
    (hdepth : v.depth = 0) (hstarts : ∀ base, v.starts base = [base]) : Writes maxBytes v := by
  intro out depth out'
  rw [hdump, require_bind_eq_ok, require_bind_eq_ok]
  constructor
  · rintro ⟨hfits, hroom, hout⟩
    cases hout
    refine ⟨⟨by rwa [hdepth], ?_⟩, rfl⟩
    intro start hstart
    rw [hstarts] at hstart
    rw [List.mem_singleton.mp hstart]
    exact hroom
  · rintro ⟨⟨hfits, hroom⟩, rfl⟩
    rw [hstarts] at hroom
    rw [hdepth] at hfits
    exact ⟨hfits, hroom _ (List.mem_singleton_self _), rfl⟩

/-- **The writer** appends the text of a value where its parts meet the limits, and fails
elsewhere. -/
theorem writes (maxBytes : Nat) (v : JsonValue) : Writes maxBytes v := by
  induction v using parts_induction with
  | null => exact writes_of_leaf (fun _ _ ↦ by rw [dumpInto]; rfl) rfl fun _ ↦ rfl
  | boolean value => exact writes_of_leaf (fun _ _ ↦ by rw [dumpInto]; rfl) rfl fun _ ↦ rfl
  | integer value => exact writes_of_leaf (fun _ _ ↦ by rw [dumpInto]; rfl) rfl fun _ ↦ rfl
  | uinteger value => exact writes_of_leaf (fun _ _ ↦ by rw [dumpInto]; rfl) rfl fun _ ↦ rfl
  | string value =>
    exact writes_of_leaf (fun _ _ ↦ by rw [dumpInto, appendEscaped_quoted]; rfl) rfl fun _ ↦ rfl
  | array values ih =>
    intro out depth out'
    have hlen : (out ++ ascii "[").length = out.length + 1 := List.length_append
    rw [dumpInto, require_bind_eq_ok, require_bind_eq_ok]
    simp only [bind_eq_ok, dumpElements_eq_ok ih, hlen]
    constructor
    · rintro ⟨hdepth, hroom, mid, ⟨hdepths, hstarts, rfl⟩, hout⟩
      cases hout
      refine ⟨⟨?_, List.forall_mem_cons.mpr ⟨hroom, hstarts⟩⟩, ?_⟩
      · have hparts : elementsDepth values ≤ jsonMaxDepth - depth := by
          apply elementsDepth_le.mpr
          intro v hv
          have := hdepths v hv
          omega
        rw [JsonValue.depth]
        omega
      · rw [text]
        simp only [List.append_assoc]
    · rintro ⟨⟨hdepth, hstarts⟩, rfl⟩
      rw [JsonValue.depth] at hdepth
      obtain ⟨hroom, hparts⟩ := List.forall_mem_cons.mp hstarts
      refine ⟨by omega, hroom, _, ⟨?_, hparts, rfl⟩, ?_⟩
      · intro v hv
        have hle : elementsDepth values ≤ jsonMaxDepth - depth := by omega
        have := elementsDepth_le.mp hle v hv
        omega
      · rw [text]
        simp only [List.append_assoc]
        rfl
  | members ms ih =>
    intro out depth out'
    have hlen : (out ++ ascii "\x7b").length = out.length + 1 := List.length_append
    rw [dumpInto, require_bind_eq_ok, require_bind_eq_ok]
    simp only [bind_eq_ok, dumpMembers_eq_ok ih, hlen]
    constructor
    · rintro ⟨hdepth, hroom, mid, ⟨hdepths, hstarts, rfl⟩, hout⟩
      cases hout
      refine ⟨⟨?_, List.forall_mem_cons.mpr ⟨hroom, hstarts⟩⟩, ?_⟩
      · have hparts : membersDepth ms ≤ jsonMaxDepth - depth := by
          apply membersDepth_le.mpr
          intro m hm
          have := hdepths m hm
          omega
        rw [JsonValue.depth]
        omega
      · rw [text]
        simp only [List.append_assoc]
    · rintro ⟨⟨hdepth, hstarts⟩, rfl⟩
      rw [JsonValue.depth] at hdepth
      obtain ⟨hroom, hparts⟩ := List.forall_mem_cons.mp hstarts
      refine ⟨by omega, hroom, _, ⟨?_, hparts, rfl⟩, ?_⟩
      · intro m hm
        have hle : membersDepth ms ≤ jsonMaxDepth - depth := by omega
        have := membersDepth_le.mp hle m hm
        omega
      · rw [text]
        simp only [List.append_assoc]
        rfl

/-- `dump` succeeds where the value and its parts meet the limits, and then writes the complete
document. -/
theorem dump_ok_iff : (dump v maxBytes).1 = .ok () ↔ Admitted maxBytes v 0 0 := by
  have hwrites := writes maxBytes v [] 0
  rw [dump]
  cases h : dumpInto maxBytes v [] 0 with
  | ok out =>
    have := ((hwrites out).mp h).1
    simpa using this
  | error e =>
    constructor
    · intro hok
      cases hok
    · intro hadmitted
      have := (hwrites _).mpr ⟨hadmitted, rfl⟩
      rw [h] at this
      cases this

theorem dump_output : (dump v maxBytes).2 = if (dump v maxBytes).1 = .ok () then v.text else [] := by
  have hwrites := writes maxBytes v [] 0
  rw [dump]
  cases h : dumpInto maxBytes v [] 0 with
  | ok out => simpa using ((hwrites out).mp h).2
  | error e => simp

/-! ## Parts begin within the text -/

theorem decimal_ne_nil (n : Nat) : decimal n ≠ [] := by
  rw [decimal]
  split <;> simp

theorem text_ne_nil (v : JsonValue) : v.text ≠ [] := by
  cases v with
  | null => exact List.cons_ne_nil _ _
  | boolean value => cases value <;> exact List.cons_ne_nil _ _
  | integer value =>
    simp only [text, signedDecimal]
    split
    · exact List.cons_ne_nil _ _
    · exact decimal_ne_nil _
  | uinteger value => exact decimal_ne_nil _
  | string value => exact List.cons_ne_nil _ _
  | array values => exact List.cons_ne_nil _ _
  | members ms => exact List.cons_ne_nil _ _

theorem elementsStarts_lt {values : List JsonValue}
    (h : ∀ v ∈ values, ∀ base, ∀ start ∈ starts v base, start < base + v.text.length)
    (first : Bool) (base : Nat) :
    ∀ start ∈ elementsStarts values first base,
      start < base + (elementsText values first).length := by
  induction values generalizing first base with
  | nil => simp [elementsStarts]
  | cons v values ih =>
    obtain ⟨hv, hvalues⟩ := List.forall_mem_cons.mp h
    have hlen : (if first then [] else ascii ",").length = if first then 0 else 1 := by
      cases first <;> rfl
    intro start hstart
    simp only [elementsText, List.length_append, hlen]
    rcases List.mem_append.mp hstart with hmem | hmem
    · have := hv _ start hmem
      omega
    · have := ih hvalues false _ start hmem
      omega

theorem membersStarts_lt {ms : List (Bytes × JsonValue)}
    (h : ∀ m ∈ ms, ∀ base, ∀ start ∈ starts m.2 base, start < base + m.2.text.length)
    (first : Bool) (base : Nat) :
    ∀ start ∈ membersStarts ms first base,
      start < base + (membersText ms first).length := by
  induction ms generalizing first base with
  | nil => simp [membersStarts]
  | cons m ms ih =>
    obtain ⟨hm, hms⟩ := List.forall_mem_cons.mp h
    have hlen : (if first then [] else ascii ",").length = if first then 0 else 1 := by
      cases first <;> rfl
    have hcolon : (ascii ":").length = 1 := rfl
    intro start hstart
    simp only [membersText, List.length_append, hlen, hcolon]
    rcases List.mem_append.mp hstart with hmem | hmem
    · have := hm _ start hmem
      omega
    · have := ih hms false _ start hmem
      omega

/-- A part of a document begins before its end. -/
theorem starts_lt_text (v : JsonValue) (base : Nat) :
    ∀ start ∈ v.starts base, start < base + v.text.length := by
  induction v using parts_induction generalizing base with
  | array values ih =>
    have hlen : (array values).text.length = 1 + (elementsText values true).length + 1 := by
      rw [text, List.length_append, List.length_append]
      rfl
    intro start hstart
    rw [hlen]
    rcases List.mem_cons.mp hstart with rfl | hmem
    · omega
    · have := elementsStarts_lt ih true (base + 1) start hmem
      omega
  | members ms ih =>
    have hlen : (members ms).text.length = 1 + (membersText ms true).length + 1 := by
      rw [text, List.length_append, List.length_append]
      rfl
    intro start hstart
    rw [hlen]
    rcases List.mem_cons.mp hstart with rfl | hmem
    · omega
    · have := membersStarts_lt ih true (base + 1) start hmem
      omega
  | _ =>
    intro start hstart
    rw [List.mem_singleton.mp hstart]
    exact Nat.lt_add_of_pos_right (List.length_pos_iff.mpr (text_ne_nil _))

/-- A document within the limits of size and of depth is written. -/
theorem admitted_of_length (hdepth : v.depth ≤ jsonMaxDepth) (hsize : v.text.length ≤ maxBytes) :
    Admitted maxBytes v 0 0 where
  depth_le := by rwa [Nat.zero_add]
  starts_lt := by
    intro start hstart
    have := starts_lt_text v 0 start hstart
    omega

end OffloadFabric.JsonValue
