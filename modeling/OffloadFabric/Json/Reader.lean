import OffloadFabric.Base.Checked
import OffloadFabric.Base.CheckedArithmetic
import OffloadFabric.Json.Value

/-!
# The JSON reader

`JsonReader`, `src/canonical.cpp:422-714`. The text from `position_` on is what a function takes
and, with its value, what it leaves.
-/

namespace OffloadFabric.JsonReader

open Lib

/-- `JsonReader::skip_whitespace`, `src/canonical.cpp:422-432`. -/
def skipWhitespace : Bytes → Bytes
  | [] => []
  | c :: text =>
    if c = 0x20 ∨ c = 0x09 ∨ c = 0x0A ∨ c = 0x0D then skipWhitespace text else c :: text

/-! ## Strings -/

/-- A hexadecimal digit, `src/canonical.cpp:488-498`. -/
def nibble (digit : UInt8) : Option Nat :=
  if 0x30 ≤ digit ∧ digit ≤ 0x39 then some (digit.toNat - 0x30)
  else if 0x61 ≤ digit ∧ digit ≤ 0x66 then some (digit.toNat - 0x61 + 10)
  else if 0x41 ≤ digit ∧ digit ≤ 0x46 then some (digit.toNat - 0x41 + 10)
  else none

/-- The number of an escape of four digits, `src/canonical.cpp:486-500`. -/
def unicodeValue (digits : Bytes) : Option Nat :=
  digits.foldlM (fun value digit ↦ (nibble digit).map fun n ↦ value <<< 4 ||| n) 0

/-- The escapes of one letter, `src/canonical.cpp:457-481`. -/
def simpleEscape (escape : UInt8) : Option UInt8 :=
  if escape = 0x22 then some 0x22
  else if escape = 0x5C then some 0x5C
  else if escape = 0x2F then some 0x2F
  else if escape = 0x62 then some 0x08
  else if escape = 0x66 then some 0x0C
  else if escape = 0x6E then some 0x0A
  else if escape = 0x72 then some 0x0D
  else if escape = 0x74 then some 0x09
  else none

/-- A byte in front of a string that is read. -/
def push (c : UInt8) (read : Result (Bytes × Bytes)) : Result (Bytes × Bytes) := do
  let (out, text) ← read
  return (c :: out, text)

/-- The loop of `JsonReader::parse_raw_string`, `src/canonical.cpp:447-524`. -/
def parseChars : Bytes → Result (Bytes × Bytes)
  | [] => .error ⟨.truncatedInput, "unterminated string"⟩
  | c :: text =>
    if c = 0x22 then .ok ([], text)
    else if c = 0x5C then
      match text with
      | [] => .error ⟨.truncatedInput, "string escape ended early"⟩
      | escape :: text =>
        if escape = 0x75 then
          match text with
          | d0 :: d1 :: d2 :: d3 :: text => do
            let value ← present (unicodeValue [d0, d1, d2, d3])
              ⟨.malformedInput, "invalid unicode escape"⟩
            require (value ≤ 0x7F)
              ⟨.unsupportedValue, "canonical documents are ASCII: non-ascii escape refused"⟩
            push value.toUInt8 (parseChars text)
          | _ => .error ⟨.truncatedInput, "unicode escape ended early"⟩
        else do
          let c ← present (simpleEscape escape) ⟨.malformedInput, "invalid string escape"⟩
          push c (parseChars text)
    else do
      require (0x20 ≤ c) ⟨.malformedInput, "control character in string"⟩
      require (c < 0x7F)
        ⟨.unsupportedValue, "canonical documents are ASCII: non-ascii byte refused"⟩
      push c (parseChars text)

/-- `JsonReader::parse_raw_string`, `src/canonical.cpp:442-525`. -/
def parseRawString : Bytes → Result (Bytes × Bytes)
  | [] => .error ⟨.malformedInput, "expected string"⟩
  | c :: text =>
    if c = 0x22 then parseChars text else .error ⟨.malformedInput, "expected string"⟩

/-- `JsonReader::parse_string`, `src/canonical.cpp:527-533`. -/
def parseString (text : Bytes) : Result (JsonValue × Bytes) := do
  let (value, text) ← parseRawString text
  return (.string value, text)

/-! ## Numbers -/

/-- The signed type of the negative numbers. -/
def int64 : IntegerType := ⟨true, 64, IntegerType.byte_le_word⟩

/-- A decimal digit, `src/canonical.cpp:543`. -/
def isDigit (c : UInt8) : Bool := 0x30 ≤ c ∧ c ≤ 0x39

/-- One digit more of a negative number, `src/canonical.cpp:562-567`. No operation here is one
that the language leaves undefined. -/
def appendNegative (value digit : Int) : Option Int :=
  match Checked.checkedMul int64 value 10 0 with
  | some (true, scaled) =>
    match Checked.checkedSub int64 scaled digit value with
    | some (true, value) => some value
    | _ => none
  | _ => none

/-- The digits of a negative number, `src/canonical.cpp:559-569`. -/
def readNegative (value : Int) : Bytes → Option Int
  | [] => some value
  | c :: digits => do
    let value ← appendNegative value (c.toNat - 0x30)
    readNegative value digits

/-- The digits of a number, `src/canonical.cpp:571-580`. -/
def readUnsigned (value : UInt64) : Bytes → Option UInt64
  | [] => some value
  | c :: digits => do
    let scaled ← checkedMul value 10
    let value ← checkedAdd scaled (c - 0x30).toUInt64
    readUnsigned value digits

/-- `JsonReader::parse_number`, `src/canonical.cpp:535-581`. -/
def parseNumber (text : Bytes) : Result (JsonValue × Bytes) := do
  let negative := text.head? = some 0x2D
  let text := if negative then text.drop 1 else text
  let digits := text.takeWhile isDigit
  let rest := text.dropWhile isDigit
  require (digits ≠ []) ⟨.malformedInput, "expected integer"⟩
  require (rest.head? ≠ some 0x2E ∧ rest.head? ≠ some 0x65 ∧ rest.head? ≠ some 0x45)
    ⟨.unsupportedValue, "canonical documents use integers only"⟩
  if negative then
    let value ← present (readNegative 0 digits)
      ⟨.arithmeticOverflow, "integer literal out of range"⟩
    return (.integer (.ofInt value), rest)
  else
    let value ← present (readUnsigned 0 digits)
      ⟨.arithmeticOverflow, "integer literal out of range"⟩
    return (.uinteger value, rest)

/-! ## Arrays and objects -/

/-- The loops of `parse_array` and `parse_object`: items separated by commas up to the closing
bracket, in at most `turns` turns. -/
def parseSeparated {α : Type} (item : Bytes → Result (α × Bytes)) (close : UInt8)
    (refusal : Error) : (turns : Nat) → Bytes → Result ((List α) × Bytes)
  | 0, _ => .error refusal
  | turns + 1, text => do
    let (x, text) ← item text
    match skipWhitespace text with
    | [] => .error refusal
    | c :: text =>
      if c = 0x2C then
        let (xs, text) ← parseSeparated item close refusal turns text
        return (x :: xs, text)
      else if c = close then return ([x], text)
      else .error refusal

/-- `JsonReader::parse_array`, `src/canonical.cpp:583-613`, with `parse_value` one level below.
Every turn of its loop takes a byte of the text. -/
def parseArray (value : Bytes → Result (JsonValue × Bytes)) (text : Bytes) :
    Result (JsonValue × Bytes) :=
  match text with
  | [] => .error ⟨.malformedInput, "expected array"⟩
  | c :: inner =>
    if c ≠ 0x5B then .error ⟨.malformedInput, "expected array"⟩
    else if (skipWhitespace inner).head? = some 0x5D then
      .ok (.array [], (skipWhitespace inner).drop 1)
    else do
      let (values, rest) ← parseSeparated value 0x5D
        ⟨.malformedInput, "expected ',' or ']' in array"⟩ text.length (skipWhitespace inner)
      return (.array values, rest)

/-- A member of an object, `src/canonical.cpp:628-647`. -/
def parseMember (value : Bytes → Result (JsonValue × Bytes)) (text : Bytes) :
    Result ((Bytes × JsonValue) × Bytes) := do
  let (key, text) ← parseRawString (skipWhitespace text)
  match skipWhitespace text with
  | [] => .error ⟨.malformedInput, "expected ':' in object"⟩
  | c :: text =>
    if c ≠ 0x3A then .error ⟨.malformedInput, "expected ':' in object"⟩
    else
      let (v, text) ← value text
      return ((key, v), text)

/-- `JsonReader::parse_object`, `src/canonical.cpp:615-660`. -/
def parseObject (value : Bytes → Result (JsonValue × Bytes)) (text : Bytes) :
    Result (JsonValue × Bytes) :=
  match text with
  | [] => .error ⟨.malformedInput, "expected object"⟩
  | c :: inner =>
    if c ≠ 0x7B then .error ⟨.malformedInput, "expected object"⟩
    else if (skipWhitespace inner).head? = some 0x7D then do
      let v ← JsonValue.object []
      return (v, (skipWhitespace inner).drop 1)
    else do
      let (ms, rest) ← parseSeparated (parseMember value) 0x7D
        ⟨.malformedInput, "expected ',' or '\x7d' in object"⟩ text.length (skipWhitespace inner)
      let v ← JsonValue.object ms
      return (v, rest)

/-! ## Values and documents -/

/-- `JsonReader::parse_value`, `src/canonical.cpp:662-699`, with the levels that are left up to
`max_depth`. -/
def parseValue : (levels : Nat) → Bytes → Result (JsonValue × Bytes)
  | 0, _ => .error ⟨.outOfRange, "json nesting depth exceeded"⟩
  | levels + 1, text =>
    match skipWhitespace text with
    | [] => .error ⟨.truncatedInput, "unexpected end of json document"⟩
    | c :: rest =>
      if c = 0x7B then parseObject (parseValue levels) (c :: rest)
      else if c = 0x5B then parseArray (parseValue levels) (c :: rest)
      else if c = 0x22 then parseString (c :: rest)
      else if c = 0x2D ∨ isDigit c then parseNumber (c :: rest)
      else if (c :: rest).take 4 = ascii "null" then .ok (.null, (c :: rest).drop 4)
      else if (c :: rest).take 4 = ascii "true" then .ok (.boolean true, (c :: rest).drop 4)
      else if (c :: rest).take 5 = ascii "false" then .ok (.boolean false, (c :: rest).drop 5)
      else .error ⟨.malformedInput, "unexpected json token"⟩

/-- `JsonReader::parse`, `src/canonical.cpp:701-714`. -/
def parse (text : Bytes) (maxDepth : Nat := 32) : Result JsonValue := do
  let (value, rest) ← parseValue (maxDepth + 1) text
  require (skipWhitespace rest = [])
    ⟨.malformedInput, "trailing content after json document"⟩
  return value

end OffloadFabric.JsonReader
