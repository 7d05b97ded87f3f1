import ActivityRelay.GoString.Number
import ActivityRelay.GoString.Text

/-!
# JSON texts

Go's `encoding/json`: a text is read byte by byte into tokens, and the tokens are read into a
value with a stack of open arrays and objects. Both are state machines, as the scanner of the
package is. Strings are unquoted as the package does it: bytes that are not UTF-8 and
surrogates without a partner are read as `runeError`.
-/

namespace GoJson

open GoString

/-- A JSON value. A number is kept as it is written, and an object keeps all its members. -/
inductive Json
  | null
  | bool (b : Bool)
  | number (raw : GoString)
  | string (s : GoString)
  | array (elements : List Json)
  | object (members : List (GoString × Json))

/-! ### Tokens -/

inductive Token
  | openBrace
  | closeBrace
  | openBracket
  | closeBracket
  | colon
  | comma
  | null
  | bool (b : Bool)
  | number (raw : GoString)
  | string (s : GoString)
  deriving DecidableEq, Repr

/-- What the text of a string is made of: bytes, and the code units of `\u` escapes. -/
inductive Piece
  | byte (b : UInt8)
  | unit (u : ℕ)
  deriving DecidableEq, Repr

/-- `utf16.DecodeRune`: the rune of a pair of surrogates. -/
def surrogatePair (u v : ℕ) : Option ℕ :=
  if 0xD800 ≤ u ∧ u < 0xDC00 ∧ 0xDC00 ≤ v ∧ v < 0xE000 then
    some ((u - 0xD800) * 0x400 + (v - 0xDC00) + 0x10000)
  else none

/-- The bytes of the pieces of a string. -/
def unquotePieces : List Piece → GoString
  | [] => []
  | .byte b :: ps => b :: unquotePieces ps
  | .unit u :: ps =>
      if 0xD800 ≤ u ∧ u < 0xE000 then
        match ps with
        | .unit v :: qs =>
            match surrogatePair u v with
            | some r => encodeRune r ++ unquotePieces qs
            | none => encodeRune runeError ++ unquotePieces (.unit v :: qs)
        | qs => encodeRune runeError ++ unquotePieces qs
      else encodeRune u ++ unquotePieces ps

/-- The string that pieces stand for. -/
def unquote (ps : List Piece) : GoString := encode (decode (unquotePieces ps))

/-- How far a number has been read. -/
inductive NumberState
  | neg
  | zero
  | int
  | dot
  | frac
  | exp
  | expSign
  | expDigits
  deriving DecidableEq, Repr

/-- A number that has been read so far may end here. -/
def NumberState.final : NumberState → Bool
  | zero | int | frac | expDigits => true
  | neg | dot | exp | expSign => false

/-- What the reader of tokens is in the middle of. -/
inductive LexState
  | between
  | inString (ps : List Piece)
  | inEscape (ps : List Piece)
  | inHex (ps : List Piece) (digits value : ℕ)
  | inNumber (raw : GoString) (state : NumberState)
  | inLiteral (token : Token) (rest : GoString)
  deriving DecidableEq, Repr

variable (b : UInt8)

def isSpace : Bool := b == 0x20 || b == 0x09 || b == 0x0D || b == 0x0A

/-- The byte of an escape of two characters. -/
def escaped : Option UInt8 :=
  match b with
  | 0x22 => some 0x22
  | 0x5C => some 0x5C
  | 0x2F => some 0x2F
  | 0x62 => some 0x08
  | 0x66 => some 0x0C
  | 0x6E => some 0x0A
  | 0x72 => some 0x0D
  | 0x74 => some 0x09
  | _ => none

/-- The state of a number after one more byte. -/
def NumberState.next (state : NumberState) (b : UInt8) : Option NumberState :=
  match state with
  | neg => if b = 0x30 then some zero else if isDigit b then some int else none
  | zero =>
      if b = 0x2E then some dot else if b = 0x65 ∨ b = 0x45 then some exp else none
  | int =>
      if isDigit b then some int else if b = 0x2E then some dot
      else if b = 0x65 ∨ b = 0x45 then some exp else none
  | dot => if isDigit b then some frac else none
  | frac =>
      if isDigit b then some frac else if b = 0x65 ∨ b = 0x45 then some exp else none
  | exp =>
      if b = 0x2B ∨ b = 0x2D then some expSign else if isDigit b then some expDigits else none
  | expSign => if isDigit b then some expDigits else none
  | expDigits => if isDigit b then some expDigits else none

/-- The step between tokens. -/
def lexBetween : Option (List Token × LexState) :=
  if isSpace b then some ([], .between)
  else
    match b with
    | 0x7B => some ([.openBrace], .between)
    | 0x7D => some ([.closeBrace], .between)
    | 0x5B => some ([.openBracket], .between)
    | 0x5D => some ([.closeBracket], .between)
    | 0x3A => some ([.colon], .between)
    | 0x2C => some ([.comma], .between)
    | 0x22 => some ([], .inString [])
    | 0x2D => some ([], .inNumber [b] .neg)
    | 0x30 => some ([], .inNumber [b] .zero)
    | 0x6E => some ([], .inLiteral .null (lit "ull"))
    | 0x74 => some ([], .inLiteral (.bool true) (lit "rue"))
    | 0x66 => some ([], .inLiteral (.bool false) (lit "alse"))
    | _ => if isDigit b then some ([], .inNumber [b] .int) else none

/-- One byte: the tokens that it ends, and the next state. -/
def lexStep (state : LexState) (b : UInt8) : Option (List Token × LexState) :=
  match state with
  | .between => lexBetween b
  | .inString ps =>
      if b = 0x22 then some ([.string (unquote ps)], .between)
      else if b = 0x5C then some ([], .inEscape ps)
      else if b.toNat < 0x20 then none
      else some ([], .inString (ps ++ [.byte b]))
  | .inEscape ps =>
      if b = 0x75 then some ([], .inHex ps 4 0)
      else (escaped b).map (fun c => ([], .inString (ps ++ [.byte c])))
  | .inHex ps digits value =>
      (hexValue b).map (fun x =>
        if digits ≤ 1 then ([], .inString (ps ++ [.unit (16 * value + x)]))
        else ([], .inHex ps (digits - 1) (16 * value + x)))
  | .inNumber raw number =>
      match number.next b with
      | some number => some ([], .inNumber (raw ++ [b]) number)
      | none =>
          if number.final then
            (lexBetween b).map (fun (ts, state) => (.number raw :: ts, state))
          else none
  | .inLiteral token rest =>
      match rest with
      | [] => none
      | [c] => if b = c then some ([token], .between) else none
      | c :: rest => if b = c then some ([], .inLiteral token rest) else none

/-- The tokens of a text, from a state on. -/
def lexFrom : LexState → GoString → Option (List Token)
  | .between, [] => some []
  | .inNumber raw number, [] => if number.final then some [.number raw] else none
  | _, [] => none
  | state, b :: s =>
      (lexStep state b).bind (fun (ts, state) => (lexFrom state s).map (ts ++ ·))

/-! ### Values -/

/-- An array or an object that is open, with what it has so far. -/
inductive Frame
  | array (elements : List Json)
  | object (members : List (GoString × Json)) (key : GoString)

/-- What may come next. -/
inductive Mode
  | value
  | firstElement
  | firstKey
  | key
  | colon
  | after
  | done (v : Json)

/-- The nesting that the scanner allows. -/
def maxNestingDepth : ℕ := 10000

/-- The state after a value is complete. -/
def complete (v : Json) : List Frame → Mode × List Frame
  | [] => (.done v, [])
  | .array elements :: stack => (.after, .array (elements ++ [v]) :: stack)
  | .object members key :: stack => (.after, .object (members ++ [(key, v)]) key :: stack)

/-- The state after a value has begun with the given token. -/
def beginValue (t : Token) (stack : List Frame) : Option (Mode × List Frame) :=
  match t with
  | .null => some (complete .null stack)
  | .bool b => some (complete (.bool b) stack)
  | .number raw => some (complete (.number raw) stack)
  | .string s => some (complete (.string s) stack)
  | .openBracket =>
      if maxNestingDepth ≤ stack.length then none else some (.firstElement, .array [] :: stack)
  | .openBrace =>
      if maxNestingDepth ≤ stack.length then none else some (.firstKey, .object [] [] :: stack)
  | _ => none

/-- One token. -/
def parseStep (mode : Mode) (stack : List Frame) (t : Token) : Option (Mode × List Frame) :=
  match mode, stack, t with
  | .firstElement, .array elements :: stack, .closeBracket => some (complete (.array elements) stack)
  | .firstElement, stack, t => beginValue t stack
  | .value, stack, t => beginValue t stack
  | .firstKey, .object members _ :: stack, .closeBrace => some (complete (.object members) stack)
  | .firstKey, .object members _ :: stack, .string key => some (.colon, .object members key :: stack)
  | .key, .object members _ :: stack, .string key => some (.colon, .object members key :: stack)
  | .colon, stack, .colon => some (.value, stack)
  | .after, .array elements :: stack, .comma => some (.value, .array elements :: stack)
  | .after, .array elements :: stack, .closeBracket => some (complete (.array elements) stack)
  | .after, .object members key :: stack, .comma => some (.key, .object members key :: stack)
  | .after, .object members _ :: stack, .closeBrace => some (complete (.object members) stack)
  | _, _, _ => none

/-- The value of tokens, from a state on. -/
def parseFrom : Mode → List Frame → List Token → Option Json
  | .done v, _, [] => some v
  | _, _, [] => none
  | mode, stack, t :: ts =>
      (parseStep mode stack t).bind (fun (mode, stack) => parseFrom mode stack ts)

/-- The value of a text. -/
def parseText (s : GoString) : Option Json := (lexFrom .between s).bind (parseFrom .value [])

/-- White space before a text does not change its value. -/
theorem parseText_space {b : UInt8} (hb : isSpace b = true) (s : GoString) :
  parseText (b :: s) = parseText s
  := by
  have hstep : lexStep .between b = some ([], .between) := if_pos hb
  simp only [parseText, lexFrom, hstep, Option.bind_some, List.nil_append, Option.map_id']

example :
  parseText (lit " \x7b\"a\": [1.5, \"\\u00e9\\ud83d\", null]\x7d ") =
    some (.object [(lit "a", .array [.number (lit "1.5"), .string (lit "\u00e9\ufffd"), .null])])
  := rfl

end GoJson
