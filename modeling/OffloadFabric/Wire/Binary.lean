import OffloadFabric.Lib.Codec
import OffloadFabric.Model.Function

/-!
# Canonical binary writer and reader

`BinWriter` and `BinReader` of `src/canonical.cpp:62-274` with the sticky wrappers `W` and `R`
of `src/wire.cpp:14-140`. A sticky wrapper keeps the first error and ignores what follows, so
it reports what a program that stops at the first error reports. The environment of a writer
is its byte limit, that of a reader its text limit; a reader's state is its unread input.
-/

namespace OffloadFabric

open Lib Lib.Coder

/-- `BinWriter` wrapped by `W`. -/
abbrev Writer := Coder Nat Error Unit

/-- `BinReader` wrapped by `R`. -/
abbrev Reader := Coder Nat Error

namespace Writer

/-- `BinWriter::append`, `src/canonical.cpp:74-81`. -/
def append (data : Bytes) : Writer := do
  let maxBytes ← read
  let buffer ← get
  if buffer.length + data.length ≤ maxBytes then
    set (buffer ++ data)
  else
    throw ⟨.oversizedInput, "canonical encoding exceeds configured bound"⟩

/-- `u8`, `src/canonical.cpp:83`. -/
def u8 (v : UInt8) : Writer := append [v]

/-- `u16`, `src/canonical.cpp:85-90`. -/
def u16 (v : UInt16) : Writer := append (le 2 v.toNat)

/-- `u32`, `src/canonical.cpp:92-98`. -/
def u32 (v : UInt32) : Writer := append (le 4 v.toNat)

/-- `u64`, `src/canonical.cpp:100-106`. -/
def u64 (v : UInt64) : Writer := append (le 8 v.toNat)

/-- `i64`, `src/canonical.cpp:108-110`. -/
def i64 (v : Int64) : Writer := u64 v.toUInt64

/-- `boolean` and `presence`, `src/canonical.cpp:112-114`. -/
def boolean (v : Bool) : Writer := u8 (if v then 1 else 0)

/-- `bytes`, `text` and `token`, `src/canonical.cpp:116-133`. -/
def text (v : Bytes) : Writer := do
  if v.length < 2 ^ 32 then
    u32 (UInt32.ofNat v.length)
    append v
  else
    throw ⟨.oversizedInput, "byte string length exceeds 32 bits"⟩

/-- `W::token`, `src/wire.cpp:31-36`. -/
def token {d : IdDomain} (v : Token d) : Writer := text v.value

/-- `digest`, `src/canonical.cpp:135-137`. -/
def digest (v : Digest) : Writer := append v.bytes

/-- `W::semantics`, `src/wire.cpp:28`. -/
def semantics (v : SemanticsMask) : Writer := u64 v.bits

/-- `W::count`, `src/wire.cpp:36-43`. -/
def count (n : Nat) : Writer := do
  if n < 2 ^ 32 then
    u32 (UInt32.ofNat n)
  else
    throw ⟨.oversizedInput, "collection length exceeds 32 bits"⟩

/-- An enumeration in one byte, `src/wire.cpp:276`. -/
def enum8 {α : Type} [Coded α UInt8] (v : α) : Writer := u8 (Coded.code v)

/-- A function class in two bytes, `src/wire.cpp:547`. -/
def functionClass (v : FunctionClass) : Writer := u16 v.code

/-- A reason code in two bytes, `src/wire.cpp:354`. -/
def reasonCode (v : ReasonCode) : Writer := u16 v.code

/-- The bytes of an encoding under a limit, as every caller takes them from its writer. -/
def encode (w : Writer) (maxBytes : Nat) : Result Bytes :=
  match w.run maxBytes [] with
  | (.ok _, out) => .ok out
  | (.error e, _) => .error e

end Writer

namespace Reader

/-- `BinReader::take`, `src/canonical.cpp:147-155`. -/
def take (length : Nat) : Reader Bytes := do
  let data ← get
  if length ≤ data.length then
    set (data.drop length)
    pure (data.take length)
  else
    throw ⟨.truncatedInput, "canonical encoding ended early"⟩

/-- `u8`, `src/canonical.cpp:157-163`. -/
def u8 : Reader UInt8 := do
  let raw ← take 1
  pure (UInt8.ofNat (ofLe raw))

/-- `u16`, `src/canonical.cpp:165-174`. -/
def u16 : Reader UInt16 := do
  let raw ← take 2
  pure (UInt16.ofNat (ofLe raw))

/-- `u32`, `src/canonical.cpp:176-187`. -/
def u32 : Reader UInt32 := do
  let raw ← take 4
  pure (UInt32.ofNat (ofLe raw))

/-- `u64`, `src/canonical.cpp:189-200`. -/
def u64 : Reader UInt64 := do
  let raw ← take 8
  pure (UInt64.ofNat (ofLe raw))

/-- `i64`, `src/canonical.cpp:202-208`. -/
def i64 : Reader Int64 := do
  let v ← u64
  pure v.toInt64

/-- `boolean` and `presence`, `src/canonical.cpp:210-221`. -/
def boolean : Reader Bool := do
  let v ← u8
  if v ≤ 1 then pure (v == 1) else throw ⟨.malformedInput, "boolean must be 0 or 1"⟩

/-- `text`, `src/canonical.cpp:223-237`. -/
def text : Reader Bytes := do
  let size ← u32
  let maxTextBytes ← read
  if size.toNat ≤ maxTextBytes then take size.toNat
  else throw ⟨.oversizedInput, "text field exceeds configured bound"⟩

/-- `token`, `src/canonical.cpp:239-248`: the text with the check it passed. -/
def tokenText : Reader { v : Bytes // v = [] ∨ isValidToken v = true } := do
  let v ← text
  if h : v = [] ∨ isValidToken v = true then pure ⟨v, h⟩
  else throw ⟨.invalidIdentifier, "token is not canonical"⟩

/-- A token identity read with `from_validated`, `src/wire.cpp:149`. -/
def token {d : IdDomain} : Reader (Token d) := do
  let v ← tokenText
  pure ⟨v.1, v.2⟩

/-- A canonical label, which stays a string, `src/wire.cpp:296-306`. -/
def label : Reader Bytes := do
  let v ← tokenText
  pure v.1

/-- `take_bytes`, `src/canonical.cpp:250-259`. -/
def takeBytes (maxLength : Nat) : Reader Bytes := do
  let length ← u32
  if length.toNat ≤ maxLength then take length.toNat
  else throw ⟨.oversizedInput, "byte string exceeds the configured bound"⟩

/-- `digest`, `src/canonical.cpp:263-271`. -/
def digest : Reader Digest := do
  let raw ← take 32
  if h : raw.length = 32 then pure ⟨raw, h⟩
  else throw ⟨.truncatedInput, "canonical encoding ended early"⟩

/-- `R::semantics`, `src/wire.cpp:77`. -/
def semantics : Reader SemanticsMask := do
  let bits ← u64
  pure ⟨bits⟩

/-- `R::count`, `src/wire.cpp:85-96`. -/
def count (maxCount : Nat) : Reader Nat := do
  let raw ← u32
  if raw.toNat ≤ maxCount then pure raw.toNat
  else throw ⟨.limitExceeded, "collection length exceeds configured bound"⟩

/-- The value a raw number names, refused with the given detail when it names none,
`src/wire.cpp:98-107`. -/
def known {α : Type} (value : Option α) (detail : String) : Reader α :=
  match value with
  | some a => pure a
  | none => throw ⟨.unsupportedValue, detail⟩

/-- An enumeration stored in one byte, `src/wire.cpp:275-276`. -/
def enum8 {α : Type} [Coded α UInt8] : Reader α := do
  let raw ← u8
  known (Coded.ofCode? raw) "unrecognized enum value"

/-- A function class stored in two bytes and read from the low one, `src/wire.cpp:556-557`. -/
def functionClass : Reader FunctionClass := do
  let raw ← u16
  known (FunctionClass.ofCode? (raw &&& 0xFF)) "unrecognized enum value"

/-- A reason code, refused with the given detail when unknown, `src/wire.cpp:109-119`. -/
def reasonCode (detail : String) : Reader ReasonCode := do
  let raw ← u16
  known (ReasonCode.ofCode? raw) detail

/-- `at_end`, `include/nof/canonical.hpp:76`. -/
def atEnd : Reader Bool := do
  let data ← get
  pure data.isEmpty

/-- The value a reader takes off the front of some data, as callers use a fresh reader. -/
def decode {α : Type} (r : Reader α) (maxTextBytes : Nat) (data : Bytes) : Result α :=
  (r.run maxTextBytes data).1

end Reader

/-! ## Round trips of the primitives -/

namespace Writer

variable {c cr : Nat}

theorem run_append (data s : Bytes) :
    (append data).run c s =
      if s.length + data.length ≤ c then (.ok (), s ++ data)
      else (.error ⟨.oversizedInput, "canonical encoding exceeds configured bound"⟩, s) := by
  unfold append
  simp only [run_bind, run_read, run_get]
  split <;> rfl

/-- An append puts exactly its data at the end. -/
theorem emits_append (data : Bytes) : Emits (append data) c (· = data) := by
  intro s t h
  rw [run_append] at h
  split at h
  · cases h
    exact ⟨data, rfl, rfl⟩
  · cases h

end Writer

namespace Reader

variable {c cr : Nat}

/-- Taking the length of the front part gives that part. -/
theorem accepts_take (p : Bytes) : Accepts (take p.length) c p p := by
  intro rest
  unfold take
  simp only [run_bind, run_get]
  rw [if_pos (by simp)]
  simp only [List.drop_left, List.take_left, run_bind, run_set, run_pure]

private theorem accepts_take_le (n v : Nat) : Accepts (take n) c (le n v) (le n v) := by
  have h := accepts_take (c := c) (le n v)
  rwa [length_le] at h

end Reader

variable {cw cr : Nat}

/-- A fixed number of bytes read back as they were written. -/
private theorem roundTrip_append {p : Bytes} {n : Nat} (h : p.length = n) :
    RoundTrip (Writer.append p) cw (Reader.take n) cr p True := by
  refine (Writer.emits_append p).mono ?_
  rintro q rfl
  subst h
  exact ⟨fun _ ↦ Reader.accepts_take q, fun hn ↦ absurd trivial hn⟩

private theorem roundTrip_le {α : Type} {n v : Nat} {f : Bytes → α} :
    RoundTrip (Writer.append (le n v)) cw (Reader.take n >>= fun raw ↦ pure (f raw)) cr
      (f (le n v)) True :=
  (roundTrip_append (length_le n v)).last f

theorem roundTrip_u8 (v : UInt8) : RoundTrip (Writer.u8 v) cw Reader.u8 cr v True := by
  have h : RoundTrip (Writer.append (le 1 v.toNat)) cw Reader.u8 cr _ True := roundTrip_le
  have hv := v.toNat_lt
  have hle : le 1 v.toNat = [v] := by
    simp only [le, Nat.toUInt8_eq, Nat.mod_eq_of_lt hv, UInt8.ofNat_toNat]
  rw [ofLe_le, Nat.mod_eq_of_lt (by omega), UInt8.ofNat_toNat, hle] at h
  exact h

theorem roundTrip_u16 (v : UInt16) : RoundTrip (Writer.u16 v) cw Reader.u16 cr v True := by
  have h : RoundTrip (Writer.u16 v) cw Reader.u16 cr _ True := roundTrip_le
  have hv := v.toNat_lt
  rwa [ofLe_le, Nat.mod_eq_of_lt (by omega), UInt16.ofNat_toNat] at h

theorem roundTrip_u32 (v : UInt32) : RoundTrip (Writer.u32 v) cw Reader.u32 cr v True := by
  have h : RoundTrip (Writer.u32 v) cw Reader.u32 cr _ True := roundTrip_le
  have hv := v.toNat_lt
  rwa [ofLe_le, Nat.mod_eq_of_lt (by omega), UInt32.ofNat_toNat] at h

theorem roundTrip_u64 (v : UInt64) : RoundTrip (Writer.u64 v) cw Reader.u64 cr v True := by
  have h : RoundTrip (Writer.u64 v) cw Reader.u64 cr _ True := roundTrip_le
  have hv := v.toNat_lt
  rwa [ofLe_le, Nat.mod_eq_of_lt (by omega), UInt64.ofNat_toNat] at h

theorem roundTrip_i64 (v : Int64) : RoundTrip (Writer.i64 v) cw Reader.i64 cr v True := by
  have h : RoundTrip (Writer.i64 v) cw Reader.i64 cr _ True :=
    (roundTrip_u64 v.toUInt64).last fun u ↦ u.toInt64
  rwa [Int64.toInt64_toUInt64] at h

theorem roundTrip_boolean (v : Bool) :
    RoundTrip (Writer.boolean v) cw Reader.boolean cr v True := by
  have step : ∀ (b : UInt8), b ≤ 1 →
      RoundTrip (Writer.u8 b) cw Reader.boolean cr (b == 1) True := by
    intro b hb
    refine (roundTrip_u8 b).followed fun s ↦ ?_
    rw [if_pos hb]
    rfl
  cases v with
  | false => exact step 0 (by decide)
  | true => exact step 1 (by decide)

/-- A length of fewer than thirty-two bits as its reader sees it. -/
private theorem toNat_ofNat_length {n : Nat} (h : n < 2 ^ 32) : (UInt32.ofNat n).toNat = n := by
  rw [UInt32.toNat_ofNat', Nat.mod_eq_of_lt h]

/-- A sized string is read back exactly when it is within the reader's limit. -/
private theorem roundTrip_sized {v : Bytes} {g : UInt32 → Reader Bytes} {limit : Nat}
    (hok : ∀ size : UInt32, size.toNat ≤ limit →
      ∀ s, (g size).run cr s = (Reader.take size.toNat).run cr s)
    (herr : ∀ size : UInt32, ¬ size.toNat ≤ limit →
      ∀ s, ∃ e t, (g size).run cr s = (.error e, t)) :
    RoundTrip (Writer.text v) cw (Reader.u32 >>= g) cr v (v.length ≤ limit) := by
  unfold Writer.text
  split
  · next hlt =>
      have hsize := toNat_ofNat_length hlt
      refine RoundTrip.congr (RoundTrip.bind (Q := v.length ≤ limit) (roundTrip_u32 _) ?_)
        (and_iff_right trivial)
      refine (Writer.emits_append v).mono ?_
      rintro p rfl
      refine ⟨fun hle rest ↦ ?_, fun hle rest ↦ ?_⟩
      · rw [hok _ (by rwa [hsize]), hsize]
        exact Reader.accepts_take p rest
      · exact herr _ (by rwa [hsize]) _
  · intro s t hw
    cases hw

/-- A text is read back exactly when it is within the reader's limit. -/
theorem roundTrip_text (v : Bytes) :
    RoundTrip (Writer.text v) cw Reader.text cr v (v.length ≤ cr) := by
  refine roundTrip_sized (fun size hle s ↦ ?_) fun size hle s ↦ ?_
  · rw [run_bind, run_read]
    simp only [if_pos hle]
  · rw [run_bind, run_read]
    simp only [if_neg hle]
    exact ⟨_, _, rfl⟩

/-- A byte string is read back exactly when it is within the caller's limit. -/
theorem roundTrip_takeBytes (v : Bytes) (maxLength : Nat) :
    RoundTrip (Writer.text v) cw (Reader.takeBytes maxLength) cr v (v.length ≤ maxLength) := by
  refine roundTrip_sized (fun size hle s ↦ ?_) fun size hle s ↦ ?_
  · simp only [if_pos hle]
  · simp only [if_neg hle]
    exact ⟨_, _, rfl⟩

theorem roundTrip_tokenText {v : Bytes} (hv : v = [] ∨ isValidToken v = true) :
    RoundTrip (Writer.text v) cw Reader.tokenText cr ⟨v, hv⟩ (v.length ≤ cr) := by
  refine (roundTrip_text v).followed fun s ↦ ?_
  rw [dif_pos hv]
  rfl

theorem roundTrip_token {d : IdDomain} (v : Token d) :
    RoundTrip (Writer.token v) cw Reader.token cr v (v.value.length ≤ cr) :=
  (roundTrip_tokenText v.canonical).last fun t ↦ (⟨t.1, t.2⟩ : Token d)

private theorem run_label (s : Bytes) :
    Reader.label.run cr s =
      match Reader.text.run cr s with
      | (.ok v, t) =>
          if v = [] ∨ isValidToken v = true then (.ok v, t)
          else (.error ⟨.invalidIdentifier, "token is not canonical"⟩, t)
      | (.error e, t) => (.error e, t) := by
  unfold Reader.label Reader.tokenText
  rw [run_bind, run_bind]
  rcases Reader.text.run cr s with ⟨r, t⟩
  cases r with
  | error e => rfl
  | ok v =>
      simp only
      by_cases hv : v = [] ∨ isValidToken v = true
      · rw [dif_pos hv, if_pos hv]
        rfl
      · rw [dif_neg hv, if_neg hv]
        rfl

/-- A label is read back exactly when it is canonical and within the reader's limit. -/
theorem roundTrip_label (v : Bytes) :
    RoundTrip (Writer.text v) cw Reader.label cr v
      (v.length ≤ cr ∧ (v = [] ∨ isValidToken v = true)) := by
  have h : RoundTrip (Writer.text v) cw Reader.text cr v _ := roundTrip_text v
  refine h.mono fun p ⟨ha, hr⟩ ↦ ⟨fun ⟨hle, hv⟩ rest ↦ ?_, fun hn rest ↦ ?_⟩
  · rw [run_label, ha hle]
    exact if_pos hv
  · rw [run_label]
    by_cases hle : v.length ≤ cr
    · rw [ha hle]
      exact ⟨_, _, if_neg fun hv ↦ hn ⟨hle, hv⟩⟩
    · obtain ⟨e, t, he⟩ := hr hle rest
      rw [he]
      exact ⟨_, _, rfl⟩

theorem roundTrip_digest (v : Digest) :
    RoundTrip (Writer.digest v) cw Reader.digest cr v True := by
  refine (roundTrip_append v.size).followed fun s ↦ ?_
  rw [dif_pos v.size]
  rfl

theorem roundTrip_semantics (v : SemanticsMask) :
    RoundTrip (Writer.semantics v) cw Reader.semantics cr v True :=
  (roundTrip_u64 v.bits).last SemanticsMask.mk

/-- A count is read back exactly when it is within the caller's limit. -/
theorem roundTrip_count (n maxCount : Nat) :
    RoundTrip (Writer.count n) cw (Reader.count maxCount) cr n (n ≤ maxCount) := by
  unfold Writer.count
  split
  · next hlt =>
      refine RoundTrip.congr ((roundTrip_u32 _).checked (Q := n ≤ maxCount) (fun h s ↦ ?_)
        fun h s ↦ ?_) (and_iff_right trivial)
      · rw [toNat_ofNat_length hlt, if_pos h]
        rfl
      · rw [toNat_ofNat_length hlt, if_neg h]
        exact ⟨_, _, rfl⟩
  · intro s t hw
    cases hw

theorem roundTrip_enum8 {α : Type} [Coded α UInt8] (v : α) :
    RoundTrip (Writer.enum8 v) cw Reader.enum8 cr v True := by
  refine (roundTrip_u8 _).followed fun s ↦ ?_
  rw [Coded.ofCode?_code]
  rfl

theorem roundTrip_functionClass (v : FunctionClass) :
    RoundTrip (Writer.functionClass v) cw Reader.functionClass cr v True := by
  have hc : FunctionClass.ofCode? (v.code &&& 0xFF) = some v := by
    rw [FunctionClass.code_low]
    exact Coded.ofCode?_code v
  refine (roundTrip_u16 _).followed fun s ↦ ?_
  rw [hc]
  rfl

theorem roundTrip_reasonCode (detail : String) (v : ReasonCode) :
    RoundTrip (Writer.reasonCode v) cw (Reader.reasonCode detail) cr v True := by
  refine (roundTrip_u16 _).followed fun s ↦ ?_
  rw [ReasonCode.ofCode?_code]
  rfl

/-- A counted collection is read back exactly when it is within the caller's limit and each
element is read back. -/
theorem roundTrip_counted {α : Type} {e : α → Writer} {g : Reader α} (xs : List α)
    (maxCount : Nat) {R : α → Prop} (h : ∀ x, RoundTrip (e x) cw g cr x (R x)) :
    RoundTrip (Writer.count xs.length >>= fun _ ↦ each e xs) cw
      (Reader.count maxCount >>= fun n ↦ times n g) cr xs
      (xs.length ≤ maxCount ∧ ∀ x ∈ xs, R x) :=
  RoundTrip.bind (roundTrip_count _ _) (RoundTrip.list h)

end OffloadFabric
