import OffloadFabric.Json.Tokens

/-!
# What the reader accepts

The reader against the grammar, level by level over nested values, and for whole documents.
-/

namespace OffloadFabric.JsonReader

open Json

/-! ## Separated items -/

/-- The reader of a part of the grammar: what it reads stood in front and has the part's form, and
what has that form is read in front of a delimiter. -/
structure Reads {α : Type} (reader : Bytes → Result (α × Bytes)) (form : Bytes → α → Prop) :
    Prop where
  sound : ∀ {text x rest}, reader text = .ok (x, rest) → ∃ front, form front x ∧
    text = front ++ rest
  complete : ∀ {front x rest}, form front x → Delimited rest →
    reader (front ++ rest) = .ok (x, rest)

theorem delimited_space {space : Bytes} (h : Space space) {c : UInt8}
    (hc : c ∈ ([0x2C, 0x5D, 0x7D] : Bytes)) (rest : Bytes) : Delimited (space ++ c :: rest) := by
  intro d hd
  cases space with
  | nil =>
    cases hd
    simp only [List.mem_cons, List.not_mem_nil, or_false] at hc ⊢
    rcases hc with rfl | rfl | rfl <;> simp
  | cons b space =>
    cases hd
    have := mem_space.mp (h _ (List.mem_cons_self ..))
    simp only [List.mem_cons, List.not_mem_nil, or_false]
    rcases this with hb | hb | hb | hb <;> simp [hb]

section

variable {α : Type} {item : Bytes → Result (α × Bytes)} {form : Bytes → α → Prop}
  {close : UInt8} {refusal : Error}

/-- One turn of the loop. -/
theorem parseSeparated_succ {turns : Nat} {text : Bytes} {xs : List α} {rest : Bytes} :
    parseSeparated item close refusal (turns + 1) text = .ok (xs, rest) ↔
      ∃ x behind, item text = .ok (x, behind) ∧
        ((∃ later tail, skipWhitespace behind = 0x2C :: later ∧
            parseSeparated item close refusal turns later = .ok (tail, rest) ∧ xs = x :: tail) ∨
          (close ≠ 0x2C ∧ skipWhitespace behind = close :: rest ∧ xs = [x])) := by
  rw [parseSeparated, bind_eq_ok]
  constructor
  · rintro ⟨⟨x, behind⟩, hitem, hcase⟩
    refine ⟨x, behind, hitem, ?_⟩
    simp only at hcase
    split at hcase
    · cases hcase
    · next c later hbehind =>
      split at hcase
      · next hcomma =>
        obtain ⟨⟨tail, rest'⟩, hlater, hxs⟩ := bind_eq_ok.mp hcase
        cases hxs
        exact .inl ⟨later, tail, hcomma ▸ hbehind, hlater, rfl⟩
      · next hcomma =>
        split at hcase
        · next hclose =>
          cases hcase
          exact .inr ⟨hclose ▸ hcomma, hclose ▸ hbehind, rfl⟩
        · cases hcase
  · rintro ⟨x, behind, hitem, ⟨later, tail, hbehind, hlater, rfl⟩ | ⟨hcomma, hbehind, rfl⟩⟩
    · refine ⟨_, hitem, ?_⟩
      simp only [hbehind, ↓reduceIte]
      exact bind_eq_ok.mpr ⟨_, hlater, rfl⟩
    · refine ⟨_, hitem, ?_⟩
      simp only [hbehind, if_neg hcomma, ↓reduceIte]
      rfl

/-- What the loop reads are separated items in front of the closing bracket. -/
theorem parseSeparated_sound (h : Reads item form) {turns : Nat} {text : Bytes} {xs : List α}
    {rest : Bytes} (hread : parseSeparated item close refusal turns text = .ok (xs, rest)) :
    ∃ front, Separated form front xs ∧ text = front ++ close :: rest := by
  induction turns generalizing text xs with
  | zero => cases hread
  | succ turns ih =>
    obtain ⟨x, behind, hitem, hcase⟩ := parseSeparated_succ.mp hread
    obtain ⟨front, hfront, rfl⟩ := h.sound hitem
    obtain ⟨space, hspace, hbehind⟩ := skipWhitespace_split behind
    rcases hcase with ⟨later, tail, hcomma, hlater, rfl⟩ | ⟨-, hclose, rfl⟩
    · obtain ⟨others, hothers, rfl⟩ := ih hlater
      refine ⟨_, .more hfront hspace hothers, ?_⟩
      rw [hbehind, hcomma]
      simp only [List.append_assoc, List.cons_append]
    · refine ⟨_, .last hfront hspace, ?_⟩
      rw [hbehind, hclose]
      simp only [List.append_assoc]

/-- Separated items in front of the closing bracket are read, in fewer turns than they have
bytes. -/
theorem parseSeparated_complete (h : Reads item form) (hclose : close ∈ ([0x5D, 0x7D] : Bytes))
    {front : Bytes} {xs : List α} (hsep : Separated form front xs) (rest : Bytes) {turns : Nat}
    (hturns : front.length < turns) :
    parseSeparated item close refusal turns (front ++ close :: rest) = .ok (xs, rest) := by
  have hcomma : close ≠ 0x2C := by
    rintro rfl
    exact absurd hclose (by decide)
  have hskip : ∀ {space : Bytes} {c : UInt8} {tail : Bytes}, Space space →
      c ∈ ([0x2C, 0x5D, 0x7D] : Bytes) → skipWhitespace (space ++ c :: tail) = c :: tail := by
    intro space c tail hspace hc
    rw [skipWhitespace_append hspace, skipWhitespace_cons]
    simp only [List.mem_cons, List.not_mem_nil, or_false] at hc
    rcases hc with rfl | rfl | rfl <;> decide
  induction hsep generalizing turns with
  | last hitem hspace =>
    obtain ⟨turns, rfl⟩ := Nat.exists_eq_succ_of_ne_zero (Nat.ne_zero_of_lt hturns)
    have hclose' := List.mem_cons_of_mem (0x2C : UInt8) hclose
    rw [List.append_assoc]
    refine parseSeparated_succ.mpr ⟨_, _, h.complete hitem (delimited_space hspace hclose' rest), ?_⟩
    exact .inr ⟨hcomma, hskip hspace hclose', rfl⟩
  | @more text space others x xs hitem hspace _ ih =>
    obtain ⟨turns, rfl⟩ := Nat.exists_eq_succ_of_ne_zero (Nat.ne_zero_of_lt hturns)
    have hothers : others.length < turns := by
      simp only [List.length_append, List.length_cons] at hturns
      omega
    rw [List.append_assoc, List.append_assoc, List.cons_append]
    refine parseSeparated_succ.mpr ⟨_, _, h.complete hitem (delimited_space hspace (by decide) _), ?_⟩
    exact .inl ⟨_, _, hskip hspace (by decide), ih hothers, rfl⟩

end

/-! ## Values -/

variable {value : Bytes → Result (JsonValue × Bytes)} {form : Bytes → JsonValue → Prop}

/-- A member is read where values are. -/
theorem reads_member (h : Reads value (Element form)) :
    Reads (parseMember value) (Member lenient form) where
  sound := by
    intro text m rest hread
    rw [parseMember, bind_eq_ok] at hread
    obtain ⟨⟨key, behind⟩, hkey, hread⟩ := hread
    obtain ⟨chars, hchars, hquoted⟩ := parseRawString_eq_ok.mp hkey
    obtain ⟨space, hspace, htext⟩ := skipWhitespace_split text
    obtain ⟨space', hspace', hbehind⟩ := skipWhitespace_split behind
    simp only at hread
    split at hread
    · cases hread
    · next c later hlater =>
      split at hread
      · cases hread
      · next hcolon =>
        obtain ⟨⟨v, rest'⟩, hvalue, hm⟩ := bind_eq_ok.mp hread
        cases hm
        obtain ⟨element, helement, rfl⟩ := h.sound hvalue
        refine ⟨_, ⟨space, chars, space', element, hspace, hchars, hspace', helement, rfl⟩, ?_⟩
        rw [htext, hquoted, hbehind, hlater, not_not.mp hcolon]
        simp only [List.append_assoc, List.cons_append]
  complete := by
    rintro front ⟨key, v⟩ rest ⟨space, chars, behind, element, hspace, hchars, hbehind, helement, rfl⟩
      hrest
    have hquote : skipWhitespace (space ++ 0x22 :: chars ++ 0x22 :: behind ++ 0x3A :: element ++ rest)
        = 0x22 :: chars ++ 0x22 :: (behind ++ 0x3A :: (element ++ rest)) := by
      simp only [List.append_assoc, List.cons_append]
      rw [skipWhitespace_append hspace, skipWhitespace_cons (by decide)]
    have hcolon : skipWhitespace (behind ++ 0x3A :: (element ++ rest)) =
        0x3A :: (element ++ rest) := by
      rw [skipWhitespace_append hbehind, skipWhitespace_cons (by decide)]
    rw [parseMember, bind_eq_ok]
    refine ⟨_, parseRawString_eq_ok.mpr ⟨chars, hchars, hquote⟩, ?_⟩
    simp only [hcolon, ne_eq, not_true_eq_false, ↓reduceIte]
    exact bind_eq_ok.mpr ⟨_, h.complete helement hrest, rfl⟩

/-! ## Brackets -/

/-- An item reader that skips white space itself and takes no closing bracket for an item. -/
structure Item {α : Type} (item : Bytes → Result (α × Bytes)) (close : UInt8) : Prop where
  skips : ∀ text, item (skipWhitespace text) = item text
  stops : ∀ text x, item (close :: text) ≠ .ok x

theorem Item.parseSeparated_skip {α : Type} {item : Bytes → Result (α × Bytes)} {close : UInt8}
    (h : Item item close) (refusal : Error) (turns : Nat) (text : Bytes) :
    parseSeparated item close refusal turns (skipWhitespace text) =
      parseSeparated item close refusal turns text := by
  cases turns with
  | zero => rfl
  | succ turns => rw [parseSeparated, parseSeparated, h.skips]

/-- Where items are read no closing bracket stands. -/
theorem Item.head_ne {α : Type} {item : Bytes → Result (α × Bytes)} {close : UInt8}
    (h : Item item close) {refusal : Error} {turns : Nat} {text : Bytes} {x : List α × Bytes}
    (hread : parseSeparated item close refusal turns text = .ok x) :
    (skipWhitespace text).head? ≠ some close := by
  intro hhead
  rw [← h.parseSeparated_skip] at hread
  cases turns with
  | zero => cases hread
  | succ turns =>
    obtain ⟨xs, rest⟩ := x
    obtain ⟨y, behind, hitem, -⟩ := parseSeparated_succ.mp hread
    cases hskip : skipWhitespace text with
    | nil => simp [hskip] at hhead
    | cons c tail =>
      rw [hskip] at hhead hitem
      cases hhead
      exact h.stops _ _ hitem

theorem item_parseMember (value : Bytes → Result (JsonValue × Bytes)) :
    Item (parseMember value) 0x7D where
  skips := by
    intro text
    rw [parseMember, parseMember, skipWhitespace_skipWhitespace]
  stops := by
    intro text x h
    rw [parseMember, skipWhitespace_cons (by decide)] at h
    cases h

/-- White space up to a closing bracket. -/
theorem space_of_head {text : Bytes} {c : UInt8} (h : (skipWhitespace text).head? = some c) :
    ∃ space, Space space ∧ text = space ++ c :: (skipWhitespace text).drop 1 := by
  obtain ⟨space, hspace, htext⟩ := skipWhitespace_split text
  refine ⟨space, hspace, ?_⟩
  cases hskip : skipWhitespace text with
  | nil => simp [hskip] at h
  | cons d tail =>
    rw [hskip] at h htext
    cases h
    exact htext

/-- An array that is read stood in front. -/
theorem parseArray_sound (h : Reads value (Element form)) {text rest : Bytes} {v : JsonValue}
    (hread : parseArray value text = .ok (v, rest)) :
    ∃ front, Layer lenient form front v ∧ text = front ++ rest := by
  cases text with
  | nil => cases hread
  | cons c inner =>
    rw [parseArray] at hread
    split at hread
    · cases hread
    · next hc =>
      obtain rfl := not_not.mp hc
      split at hread
      · next hclose =>
        cases hread
        obtain ⟨space, hspace, hinner⟩ := space_of_head hclose
        refine ⟨_, .emptyArray hspace, ?_⟩
        simp only [List.append_assoc, List.cons_append, List.nil_append, ← hinner]
      · obtain ⟨⟨values, rest'⟩, hvalues, hv⟩ := bind_eq_ok.mp hread
        cases hv
        obtain ⟨front, hfront, hskip⟩ := parseSeparated_sound h hvalues
        obtain ⟨space, hspace, hinner⟩ := skipWhitespace_split inner
        refine ⟨_, .array (hfront.space element_space hspace), ?_⟩
        rw [hinner, hskip]
        simp only [List.append_assoc, List.cons_append, List.nil_append]

theorem parseArray_empty (value : Bytes → Result (JsonValue × Bytes)) {space : Bytes}
    (hspace : Space space) (rest : Bytes) :
    parseArray value (0x5B :: space ++ [0x5D] ++ rest) = .ok (.array [], rest) := by
  have hskip : skipWhitespace (space ++ 0x5D :: rest) = 0x5D :: rest := by
    rw [skipWhitespace_append hspace, skipWhitespace_cons (by decide)]
  simp only [List.append_assoc, List.cons_append, List.nil_append]
  have hhead : (0x5D :: rest).head? = some 0x5D := rfl
  rw [parseArray, if_neg (by simp), hskip, if_pos hhead]
  rfl

/-- An array is read. -/
theorem parseArray_complete (h : Reads value (Element form)) (hitem : Item value 0x5D)
    {text : Bytes} {values : List JsonValue} (hvalues : Separated (Element form) text values)
    (rest : Bytes) :
    parseArray value (0x5B :: text ++ [0x5D] ++ rest) = .ok (.array values, rest) := by
  have hread : parseSeparated value 0x5D ⟨.malformedInput, "expected ',' or ']' in array"⟩
      (0x5B :: (text ++ 0x5D :: rest)).length (text ++ 0x5D :: rest) = .ok (values, rest) := by
    apply parseSeparated_complete h (by decide) hvalues
    rw [List.length_cons, List.length_append]
    omega
  simp only [List.append_assoc, List.cons_append, List.nil_append]
  rw [parseArray, if_neg (by simp), if_neg (hitem.head_ne hread), bind_eq_ok]
  refine ⟨(values, rest), ?_, rfl⟩
  rw [hitem.parseSeparated_skip]
  exact hread

/-- An object that is read stood in front. -/
theorem parseObject_sound (h : Reads value (Element form)) {text rest : Bytes} {v : JsonValue}
    (hread : parseObject value text = .ok (v, rest)) :
    ∃ front, Layer lenient form front v ∧ text = front ++ rest := by
  cases text with
  | nil => cases hread
  | cons c inner =>
    rw [parseObject] at hread
    split at hread
    · cases hread
    · next hc =>
      obtain rfl := not_not.mp hc
      split at hread
      · next hclose =>
        rw [JsonValue.object_nil] at hread
        cases hread
        obtain ⟨space, hspace, hinner⟩ := space_of_head hclose
        refine ⟨_, .emptyObject hspace, ?_⟩
        simp only [List.append_assoc, List.cons_append, List.nil_append, ← hinner]
      · obtain ⟨⟨ms, rest'⟩, hms, hobject⟩ := bind_eq_ok.mp hread
        obtain ⟨v', hv', hv⟩ := bind_eq_ok.mp hobject
        cases hv
        obtain ⟨hnodup, rfl⟩ := JsonValue.object_eq_ok.mp hv'
        obtain ⟨front, hfront, hskip⟩ := parseSeparated_sound (reads_member h) hms
        obtain ⟨space, hspace, hinner⟩ := skipWhitespace_split inner
        refine ⟨_, .object (hfront.space member_space hspace) hnodup, ?_⟩
        rw [hinner, hskip]
        simp only [List.append_assoc, List.cons_append, List.nil_append]

theorem parseObject_empty (value : Bytes → Result (JsonValue × Bytes)) {space : Bytes}
    (hspace : Space space) (rest : Bytes) :
    parseObject value (0x7B :: space ++ [0x7D] ++ rest) = .ok (.members [], rest) := by
  have hskip : skipWhitespace (space ++ 0x7D :: rest) = 0x7D :: rest := by
    rw [skipWhitespace_append hspace, skipWhitespace_cons (by decide)]
  have hhead : (0x7D :: rest).head? = some 0x7D := rfl
  simp only [List.append_assoc, List.cons_append, List.nil_append]
  rw [parseObject, if_neg (by simp), hskip, if_pos hhead, JsonValue.object_nil]
  rfl

/-- An object is read. -/
theorem parseObject_complete (h : Reads value (Element form)) {text : Bytes}
    {ms : List (Bytes × JsonValue)} (hms : Separated (Member lenient form) text ms)
    (hnodup : (ms.map Prod.fst).Nodup) (rest : Bytes) :
    parseObject value (0x7B :: text ++ [0x7D] ++ rest) =
      .ok (.members (ms.mergeSort JsonValue.keyLe), rest) := by
  have hread : parseSeparated (parseMember value) 0x7D
      ⟨.malformedInput, "expected ',' or '\x7d' in object"⟩
      (0x7B :: (text ++ 0x7D :: rest)).length (text ++ 0x7D :: rest) = .ok (ms, rest) := by
    apply parseSeparated_complete (reads_member h) (by decide) hms
    rw [List.length_cons, List.length_append]
    omega
  have hitem := item_parseMember value
  simp only [List.append_assoc, List.cons_append, List.nil_append]
  rw [parseObject, if_neg (by simp), if_neg (hitem.head_ne hread), bind_eq_ok]
  refine ⟨(ms, rest), ?_, bind_eq_ok.mpr ⟨_, JsonValue.object_eq_ok.mpr ⟨hnodup, rfl⟩, rfl⟩⟩
  rw [hitem.parseSeparated_skip]
  exact hread

/-! ## Documents -/

theorem item_parseValue (levels : Nat) : Item (parseValue levels) 0x5D where
  skips := by
    intro text
    cases levels with
    | zero => rfl
    | succ levels => rw [parseValue, parseValue, skipWhitespace_skipWhitespace]
  stops := by
    intro text x h
    cases levels with
    | zero => cases h
    | succ levels =>
      rw [parseValue, skipWhitespace_cons (by decide)] at h
      have hdigit : isDigit 0x5D = false := by decide
      simp [hdigit, ascii] at h

/-- A byte that is no white space decides what is read. -/
theorem parseValue_cons {levels : Nat} {c : UInt8}
    (h : c ∉ ([0x20, 0x09, 0x0A, 0x0D] : Bytes)) (rest : Bytes) :
    parseValue (levels + 1) (c :: rest) =
      if c = 0x7B then parseObject (parseValue levels) (c :: rest)
      else if c = 0x5B then parseArray (parseValue levels) (c :: rest)
      else if c = 0x22 then parseString (c :: rest)
      else if c = 0x2D ∨ isDigit c then parseNumber (c :: rest)
      else if (c :: rest).take 4 = ascii "null" then .ok (.null, (c :: rest).drop 4)
      else if (c :: rest).take 4 = ascii "true" then .ok (.boolean true, (c :: rest).drop 4)
      else if (c :: rest).take 5 = ascii "false" then .ok (.boolean false, (c :: rest).drop 5)
      else .error ⟨.malformedInput, "unexpected json token"⟩ := by
  rw [parseValue, skipWhitespace_cons h]

theorem not_mem_space_of_skip {text : Bytes} {c : UInt8} {tail : Bytes}
    (h : skipWhitespace text = c :: tail) : c ∉ ([0x20, 0x09, 0x0A, 0x0D] : Bytes) := by
  intro hc
  have hskip := skipWhitespace_skipWhitespace text
  rw [h, skipWhitespace, if_pos (mem_space.mp hc)] at hskip
  obtain ⟨space, -, htail⟩ := skipWhitespace_split tail
  have hlen := congrArg List.length htail
  rw [hskip, List.length_append, List.length_cons] at hlen
  omega

/-- What is read at the first byte that is no white space stood in front. -/
theorem layer_sound {levels : Nat} (ih : Reads (parseValue levels) (Element (Value lenient levels)))
    {c : UInt8} (hc : c ∉ ([0x20, 0x09, 0x0A, 0x0D] : Bytes)) {tail rest : Bytes} {v : JsonValue}
    (h : parseValue (levels + 1) (c :: tail) = .ok (v, rest)) :
    ∃ front, Layer lenient (Value lenient levels) front v ∧ c :: tail = front ++ rest := by
  rw [parseValue_cons hc] at h
  split at h
  · exact parseObject_sound ih h
  split at h
  · exact parseArray_sound ih h
  split at h
  · obtain ⟨⟨out, rest'⟩, hraw, hv⟩ := bind_eq_ok.mp h
    cases hv
    obtain ⟨chars, hchars, htext⟩ := parseRawString_eq_ok.mp hraw
    refine ⟨_, .string hchars, ?_⟩
    rw [htext]
    simp only [List.append_assoc, List.cons_append, List.nil_append]
  split at h
  · obtain ⟨literal, hliteral, htext⟩ := parseNumber_sound h
    exact ⟨literal, .number hliteral, htext⟩
  split at h
  · next htake =>
    cases h
    exact ⟨_, .null, by rw [← htake, List.take_append_drop]⟩
  split at h
  · next htake =>
    cases h
    exact ⟨_, .true, by rw [← htake, List.take_append_drop]⟩
  split at h
  · next htake =>
    cases h
    exact ⟨_, .false, by rw [← htake, List.take_append_drop]⟩
  · cases h

/-- A number begins with its sign or a digit. -/
theorem number_head {r : Rules} {literal : Bytes} {v : JsonValue} (h : Number r literal v) :
    ∃ c tail, literal = c :: tail ∧ (c = 0x2D ∨ isDigit c = true) := by
  cases h with
  | unsigned hdigits _ =>
    cases literal with
    | nil => exact absurd rfl hdigits.ne_nil
    | cons d digits =>
      exact ⟨d, digits, rfl, .inr (isDigit_iff.mpr (hdigits.digit d (List.mem_cons_self ..)))⟩
  | negative _ _ => exact ⟨_, _, rfl, .inl rfl⟩

/-- What has the form of a value is read. -/
theorem layer_complete {levels : Nat}
    (ih : Reads (parseValue levels) (Element (Value lenient levels))) {inner rest : Bytes}
    {v : JsonValue} (h : Layer lenient (Value lenient levels) inner v) (hrest : Delimited rest) :
    parseValue (levels + 1) (inner ++ rest) = .ok (v, rest) := by
  cases h with
  | null => rfl
  | true => rfl
  | false => rfl
  | number hnumber =>
    obtain ⟨c, tail, rfl, hc⟩ := number_head hnumber
    have hcases : c ∉ ([0x20, 0x09, 0x0A, 0x0D, 0x7B, 0x5B, 0x22] : Bytes) := by
      rcases hc with rfl | hdigit
      · decide
      · intro hmem
        simp only [List.mem_cons, List.not_mem_nil, or_false] at hmem
        rcases hmem with rfl | rfl | rfl | rfl | rfl | rfl | rfl <;> exact absurd hdigit (by decide)
    simp only [List.mem_cons, List.not_mem_nil, or_false, not_or] at hcases
    obtain ⟨h0, h1, h2, h3, h4, h5, h6⟩ := hcases
    rw [List.cons_append, parseValue_cons (by simp [h0, h1, h2, h3]), if_neg h4, if_neg h5,
      if_neg h6, if_pos hc, ← List.cons_append]
    exact parseNumber_complete hnumber hrest
  | @string text out hchars =>
    have hraw : parseRawString (0x22 :: (text ++ [0x22] ++ rest)) = .ok (out, rest) := by
      apply parseRawString_eq_ok.mpr
      exact ⟨text, hchars, by simp⟩
    rw [List.cons_append, List.cons_append, parseValue_cons (by decide), if_neg (by decide),
      if_neg (by decide), if_pos rfl, parseString, hraw]
    rfl
  | emptyArray hspace =>
    rw [← parseArray_empty (parseValue levels) hspace rest]
    rw [List.cons_append, List.cons_append, parseValue_cons (by decide), if_neg (by decide),
      if_pos rfl]
  | array hvalues =>
    rw [← parseArray_complete ih (item_parseValue levels) hvalues rest]
    rw [List.cons_append, List.cons_append, parseValue_cons (by decide), if_neg (by decide),
      if_pos rfl]
  | emptyObject hspace =>
    rw [← parseObject_empty (parseValue levels) hspace rest]
    rw [List.cons_append, List.cons_append, parseValue_cons (by decide), if_pos rfl]
  | object hms hnodup =>
    rw [← parseObject_complete ih hms hnodup rest]
    rw [List.cons_append, List.cons_append, parseValue_cons (by decide), if_pos rfl]

/-- **Values are read** as the grammar has them, on every level. -/
theorem reads_value (levels : Nat) : Reads (parseValue levels) (Element (Value lenient levels)) := by
  induction levels with
  | zero =>
    constructor
    · intro text x rest h
      cases h
    · rintro front x rest ⟨space, inner, -, hinner, -⟩
      exact hinner.elim
  | succ levels ih =>
    constructor
    · intro text v rest h
      obtain ⟨space, hspace, htext⟩ := skipWhitespace_split text
      rw [← (item_parseValue _).skips] at h
      cases hskip : skipWhitespace text with
      | nil =>
        rw [hskip] at h
        cases h
      | cons c tail =>
        rw [hskip] at h htext
        obtain ⟨inner, hinner, heq⟩ := layer_sound ih (not_mem_space_of_skip hskip) h
        refine ⟨space ++ inner, ⟨space, inner, hspace, hinner, rfl⟩, ?_⟩
        rw [htext, heq, List.append_assoc]
    · rintro front v rest ⟨space, inner, hspace, hinner, rfl⟩ hrest
      rw [List.append_assoc, ← (item_parseValue _).skips, skipWhitespace_append hspace,
        (item_parseValue _).skips]
      exact layer_complete ih hinner hrest

/-- **The reader accepts** the documents of the grammar with its rules, and gives the value they
denote. -/
theorem parse_eq_ok {text : Bytes} {maxDepth : Nat} {v : JsonValue} :
    parse text maxDepth = .ok v ↔ Document lenient maxDepth text v := by
  have hreads := reads_value (maxDepth + 1)
  rw [parse, bind_eq_ok]
  constructor
  · rintro ⟨⟨v', rest⟩, hvalue, h⟩
    obtain ⟨hend, hv⟩ := require_bind_eq_ok.mp h
    cases hv
    obtain ⟨element, helement, rfl⟩ := hreads.sound hvalue
    exact ⟨element, rest, helement, skipWhitespace_eq_nil.mp hend, rfl⟩
  · rintro ⟨element, behind, helement, hbehind, rfl⟩
    have hdelimited : Delimited behind := by
      intro c hc
      have hmem := hbehind c (List.mem_of_mem_head? hc)
      simp only [List.mem_cons, List.not_mem_nil, or_false] at hmem ⊢
      tauto
    refine ⟨(v, behind), hreads.complete helement hdelimited, ?_⟩
    exact require_bind_eq_ok.mpr ⟨skipWhitespace_eq_nil.mpr hbehind, rfl⟩

end OffloadFabric.JsonReader
