import Mathlib.Data.Int.Notation
import ActivityRelay.GoJson.Value

/-!
# Decoding into Go values

`json.Unmarshal` into structs of strings, lists of strings, pointers, nested structs and
interfaces. A value of the wrong type is an error, but the rest of the text is decoded all the
same, so a decoder returns what it has decoded and whether there was no error. The members of
an object are decoded in order into the value that is there, so of repeated members the last
one counts, and repeated structs are merged.
-/

namespace GoJson

open GoString

/-- A decoder into a value that is there: the new value, and whether there was no error. -/
abbrev Decoder (α : Type) := Json → α → α × Bool

/-! ### Numbers in interfaces -/

/-- The value of an exponent. -/
def exponentValue : GoString → ℤ
  | 0x2D :: s => -((parseDigits 0 s).getD 0 : ℕ)
  | 0x2B :: s => ((parseDigits 0 s).getD 0 : ℕ)
  | s => ((parseDigits 0 s).getD 0 : ℕ)

/-- The numbers from this one on are rounded to infinity. -/
def floatLimit : ℕ := 2 ^ 1024 - 2 ^ 970

/-- The number `m * 10 ^ scale` is in the range of `float64`. -/
def scaledInRange (m : ℕ) (scale : ℤ) : Bool :=
  let digits : ℤ := (Nat.toDigits 10 m).length
  if m = 0 ∨ digits + scale < 0 then true
  else if 310 < digits + scale then false
  else if 0 ≤ scale then m * 10 ^ scale.toNat < floatLimit
  else m < floatLimit * 10 ^ (-scale).toNat

/-- `strconv.ParseFloat` of a JSON number has no range error. -/
def floatInRange (raw : GoString) : Bool :=
  let (mantissa, exponent) := cut 0x65 (raw.map lowerByte)
  let (int, frac) := cut 0x2E (mantissa.filter (· ≠ 0x2D))
  scaledInRange ((parseDigits 0 (int ++ frac.getD [])).getD 0)
    (exponentValue (exponent.getD []) - (frac.getD []).length)

mutual

/-- The numbers of a value are in the range of `float64`. -/
def floatsInRange : Json → Bool
  | .number raw => floatInRange raw
  | .array elements => elementsInRange elements
  | .object members => membersInRange members
  | .null | .bool _ | .string _ => true

def elementsInRange : List Json → Bool
  | [] => true
  | v :: elements => floatsInRange v && elementsInRange elements

def membersInRange : List (GoString × Json) → Bool
  | [] => true
  | (_, v) :: members => floatsInRange v && membersInRange members

end

/-! ### Decoders -/

/-- Into a string. -/
def decodeString : Decoder GoString
  | .string s, _ => (s, true)
  | .null, old => (old, true)
  | _, old => (old, false)

/-- Into an interface, with `none` for `nil`. -/
def decodeAny : Decoder (Option Json)
  | .null, _ => (none, true)
  | v, _ => (some v, floatsInRange v)

def decodeElements : List Json → List GoString → List GoString × Bool
  | [], _ => ([], true)
  | v :: elements, old =>
      let first := decodeString v (old.headD [])
      let others := decodeElements elements old.tail
      (first.1 :: others.1, first.2 && others.2)

/-- Into a list of strings. -/
def decodeStrings : Decoder (List GoString)
  | .array elements, old => decodeElements elements old
  | .null, _ => ([], true)
  | _, old => (old, false)

/-- Into a pointer, with `none` for `nil`. -/
def decodePointer {α : Type} (zero : α) (decoder : Decoder α) : Decoder (Option α)
  | .null, _ => (none, true)
  | v, old =>
      let r := decoder v (old.getD zero)
      (some r.1, r.2)

/-- A field of a struct with its name, and the decoder into the struct. -/
structure Field (σ : Type) where
  name : GoString
  decoder : Decoder σ

/-- A field that is read by `get`, written by `set` and decoded by `decoder`. -/
def field {σ α : Type} (name : String) (decoder : Decoder α) (get : σ → α) (set : σ → α → σ) :
    Field σ where
  name := lit name
  decoder v old :=
    let r := decoder v (get old)
    (set old r.1, r.2)

/-- `foldRune`: ASCII letters and the two runes that fold to them. -/
def foldRune (r : ℕ) : ℕ :=
  if 0x61 ≤ r ∧ r ≤ 0x7A then r - 0x20
  else if r = 0x212A then 0x4B
  else if r = 0x17F then 0x53
  else r

def foldName (s : GoString) : GoString := encode ((decode s).map foldRune)

/-- The field of a name: one with the very name, or one whose name differs in case only. -/
def findField {σ : Type} (fields : List (Field σ)) (name : GoString) : Option (Field σ) :=
  match fields.find? (fun f => f.name = name) with
  | some f => some f
  | none => fields.find? (fun f => foldName f.name = foldName name)

/-- One member of an object. -/
def decodeMember {σ : Type} (fields : List (Field σ)) (r : σ × Bool) (m : GoString × Json) :
    σ × Bool :=
  match findField fields m.1 with
  | none => r
  | some f =>
      let r' := f.decoder m.2 r.1
      (r'.1, r.2 && r'.2)

/-- Into a struct. -/
def decodeStruct {σ : Type} (fields : List (Field σ)) : Decoder σ
  | .object members, old => members.foldl (decodeMember fields) (old, true)
  | .null, old => (old, true)
  | _, old => (old, false)

/-- `json.Unmarshal`. A text that is not JSON leaves the value as it is. -/
def unmarshal {α : Type} (decoder : Decoder α) (data : GoString) (old : α) : α × Bool :=
  match parseText data with
  | none => (old, false)
  | some v => decoder v old

theorem unmarshal_space {α : Type} (decoder : Decoder α) {b : UInt8} (hb : isSpace b = true)
    (data : GoString) (old : α) :
  unmarshal decoder (b :: data) old = unmarshal decoder data old
  := by
  rw [unmarshal, unmarshal, parseText_space hb]

end GoJson
