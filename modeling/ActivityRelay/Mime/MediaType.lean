import ActivityRelay.GoString.Number
import ActivityRelay.GoString.Text

/-!
# Media types

`mime.ParseMediaType`: the media type and the parameters of a `Content-Type`, with the continued and
encoded parameters of RFC 2231 put together.
-/

namespace Mime

open GoString

/-! ### Tokens and values -/

def isTSpecial (b : UInt8) : Bool := (lit "()<>@,;:\\\"/[]?=").contains b

/-- `isTokenChar`: printable ASCII without spaces and special characters. -/
def isTokenChar (b : UInt8) : Bool :=
  0x20 < b.toNat && b.toNat < 0x7F && !isTSpecial b

def consumeToken (v : GoString) : GoString × GoString := v.span isTokenChar

/-- The rest of a quoted string, after what has been read of it, with what is left after its end.
A backslash before a special character is dropped. -/
def consumeQuoted (value : GoString) : GoString → Option (GoString × GoString)
  | [] => none
  | b :: v =>
      if b = 0x22 then some (value, v)
      else
        match v with
        | [] => if b = 0x0D ∨ b = 0x0A then none else consumeQuoted (value ++ [b]) []
        | c :: v' =>
            if b = 0x5C ∧ isTSpecial c then consumeQuoted (value ++ [c]) v'
            else if b = 0x0D ∨ b = 0x0A then none
            else consumeQuoted (value ++ [b]) (c :: v')

/-- `consumeValue`, with `none` if there is no value. -/
def consumeValue (v : GoString) : Option (GoString × GoString) :=
  match v with
  | [] => none
  | b :: rest =>
      if b = 0x22 then consumeQuoted [] rest
      else
        let token := consumeToken v
        if token.1 = [] then none else some token

section Case

variable (U : CaseTable)

def checkMediaTypeDisposition (s : GoString) : Bool :=
  let type := consumeToken s
  if type.1 = [] then false
  else
    match type.2 with
    | [] => true
    | b :: rest =>
        if b ≠ 0x2F then false
        else
          let subtype := consumeToken rest
          subtype.1 ≠ [] && subtype.2 = []

/-- `consumeMediaParam`: a parameter with what is left, or `none`. -/
def consumeMediaParam (v : GoString) : Option (GoString × GoString × GoString) :=
  match trimLeft v with
  | 0x3B :: rest =>
      let param := consumeToken (trimLeft rest)
      if param.1 = [] then none
      else
        match trimLeft param.2 with
        | 0x3D :: rest =>
            (consumeValue (trimLeft rest)).map (fun (value, rest) =>
              (toLower U param.1, value, rest))
        | _ => none
  | _ => none

/-! ### Parameters -/

variable (params : List (GoString × GoString))

/-- The value of a key. -/
def lookupParam (key : GoString) : Option GoString :=
  (params.find? (fun p => p.1 = key)).map Prod.snd

/-- The parameters of a media type, in order, with `none` for an error. A parameter may be repeated
with the same value. -/
def parseParams : (fuel : ℕ) → List (GoString × GoString) → GoString →
    Option (List (GoString × GoString))
  | 0, _, _ => none
  | fuel + 1, params, v =>
      let v := trimLeft v
      if v = [] then some params
      else
        match consumeMediaParam U v with
        | none => if trimSpace v = [0x3B] then some params else none
        | some (key, value, rest) =>
            match lookupParam params key with
            | none => parseParams fuel (params ++ [(key, value)]) rest
            | some value' => if value' = value then parseParams fuel params rest else none

def percentHexUnescape : GoString → Option GoString
  | [] => some []
  | 0x25 :: a :: b :: s => do
      let x ← hexValue a
      let y ← hexValue b
      return (16 * x + y).toUInt8 :: (← percentHexUnescape s)
  | c :: s => if c = 0x25 then none else (percentHexUnescape s).map (c :: ·)

def decode2231Enc (v : GoString) : Option GoString :=
  match cut 0x27 v with
  | (charset, some rest) =>
      match cut 0x27 rest with
      | (_, some encoded) =>
          if toLower U charset = lit "us-ascii" ∨ toLower U charset = lit "utf-8" then
            percentHexUnescape encoded
          else none
      | (_, none) => none
  | (_, none) => none

/-- The parts of a continued parameter from the given number on, and whether there is one. -/
def continuation (params : List (GoString × GoString)) (name : GoString) :
    (fuel : ℕ) → (n : ℕ) → GoString × Bool
  | 0, _ => ([], false)
  | fuel + 1, n =>
      let key := name ++ [0x2A] ++ formatNat n
      match lookupParam params key with
      | some value => (value ++ (continuation params name fuel (n + 1)).1, true)
      | none =>
          match lookupParam params (key ++ [0x2A]) with
          | none => ([], false)
          | some value =>
              let decoded := if n = 0 then decode2231Enc U value else percentHexUnescape value
              (decoded.getD [] ++ (continuation params name fuel (n + 1)).1, true)

/-- The value of an encoded or continued parameter. -/
def stitched (name : GoString) : Option GoString :=
  match lookupParam params (name ++ [0x2A]) with
  | some value => decode2231Enc U value
  | none =>
      let r := continuation U params name (params.length + 1) 0
      if r.2 then some r.1 else none

/-- The names of the parameters with a star, up to the star. -/
def starred : List GoString :=
  params.filterMap (fun p => if (cut 0x2A p.1).2.isSome then some (cut 0x2A p.1).1 else none)

/-- `mime.ParseMediaType`, with `none` for an error. -/
def parseMediaType (v : GoString) : Option (GoString × List (GoString × GoString)) :=
  let base := (cut 0x3B v).1
  let mediaType := trimSpace (toLower U base)
  if !checkMediaTypeDisposition mediaType then none
  else
    (parseParams U (v.length + 1) [] (v.drop base.length)).map (fun params =>
      (mediaType, params.filter (fun p => (cut 0x2A p.1).2.isNone) ++
        (starred params).dedup.filterMap (fun name =>
          (stitched U params name).map (fun value => (name, value)))))

end Case

example :
  parseMediaType .identity (lit "Text/Plain; charset=\"utf\\-8\"; x*0=a; x*1=b ;") =
    some (lit "text/plain", [(lit "charset", lit "utf\\-8"), (lit "x", lit "ab")])
  := by decide +kernel

end Mime
