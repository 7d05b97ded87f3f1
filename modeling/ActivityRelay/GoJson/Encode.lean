import ActivityRelay.GoJson.Value

/-!
# Writing JSON texts

`json.Marshal` for values made of structs, slices, strings, numbers and Booleans, whose members and
elements are in a fixed order. Strings are quoted as the package does it by default: the characters
of HTML are escaped, and bytes that are not UTF-8 are written as the escape of `runeError`.
-/

namespace GoJson

open GoString

/-! ### Strings -/

/-- The escape of a code unit. -/
def unitEscape (u : ℕ) : GoString :=
  [0x5C, 0x75, hexDigit (u / 0x1000), hexDigit (u / 0x100 % 16), hexDigit (u / 16 % 16),
    hexDigit (u % 16)]

/-- An ASCII byte in a string. -/
def quoteByte (b : UInt8) : GoString :=
  if b = 0x22 ∨ b = 0x5C then [0x5C, b]
  else if b = 0x08 then [0x5C, 0x62]
  else if b = 0x0C then [0x5C, 0x66]
  else if b = 0x0A then [0x5C, 0x6E]
  else if b = 0x0D then [0x5C, 0x72]
  else if b = 0x09 then [0x5C, 0x74]
  else if b.toNat < 0x20 ∨ b = 0x3C ∨ b = 0x3E ∨ b = 0x26 then unitEscape b.toNat
  else [b]

/-- A rune in a string that is not ASCII. -/
def quoteRune (r : ℕ) : GoString := if r = 0x2028 ∨ r = 0x2029 then unitEscape r else encodeRune r

/-- At most the given number of runes, quoted. -/
def quoteRunes : ℕ → GoString → GoString
  | 0, _ => []
  | _ + 1, [] => []
  | n + 1, a :: s =>
      if a.toNat < runeSelf then quoteByte a ++ quoteRunes n s
      else
        match multi a s with
        | some (r, s') => quoteRune r ++ quoteRunes n s'
        | none => unitEscape runeError ++ quoteRunes n s

/-- `appendString`. -/
def quote (s : GoString) : GoString := 0x22 :: (quoteRunes s.length s ++ [0x22])

example : quote (lit "a\n<\"\u00e9\u2028") = lit "\"a\\n\\u003c\\\"\u00e9\\u2028\"" := by decide

/-! ### Writing values -/

mutual

def marshal : Json → GoString
  | .null => lit "null"
  | .bool true => lit "true"
  | .bool false => lit "false"
  | .number raw => raw
  | .string s => quote s
  | .array [] => [0x5B, 0x5D]
  | .array (v :: elements) => 0x5B :: (marshal v ++ (marshalElements elements ++ [0x5D]))
  | .object [] => [0x7B, 0x7D]
  | .object ((key, v) :: members) =>
      0x7B :: (quote key ++ 0x3A :: (marshal v ++ (marshalMembers members ++ [0x7D])))

/-- The elements after the first one. -/
def marshalElements : List Json → GoString
  | [] => []
  | v :: elements => 0x2C :: (marshal v ++ marshalElements elements)

/-- The members after the first one. -/
def marshalMembers : List (GoString × Json) → GoString
  | [] => []
  | (key, v) :: members => 0x2C :: (quote key ++ 0x3A :: (marshal v ++ marshalMembers members))

end

end GoJson
