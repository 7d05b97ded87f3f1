import ActivityRelay.GoString.Number

/-!
# IP addresses

`ParseAddr` of Go's `net/netip` and the text of an address. An IPv4 address in an IPv6 one is
written with dots, and the longest run of zero groups of an IPv6 address is left out.
-/

namespace NetIp

open GoString

/-- `netip.Addr`: four bytes, or eight groups with a zone, which is empty if there is none. -/
inductive Addr
  | v4 (bytes : List ℕ)
  | v6 (groups : List ℕ) (zone : GoString)
  deriving DecidableEq, Repr

/-! ### Parsing -/

/-- The bytes of an IPv4 address; `digits` and `value` are those of the current field, and `fields`
the values before it. -/
def parseIPv4Fields (fields : List ℕ) (digits value : ℕ) : GoString → Option (List ℕ)
  | [] => if digits ≠ 0 ∧ fields.length = 3 then some (fields ++ [value]) else none
  | b :: s =>
      if b = 0x2E then
        if digits = 0 ∨ fields.length = 3 then none
        else parseIPv4Fields (fields ++ [value]) 0 0 s
      else
        match digitValue b with
        | none => none
        | some d =>
            if digits = 1 ∧ value = 0 ∨ 255 < value * 10 + d then none
            else parseIPv4Fields fields (digits + 1) (value * 10 + d) s

/-- The value and the number of the hexadecimal digits at the start, and the rest. -/
def takeHex (value count : ℕ) : GoString → ℕ × ℕ × GoString
  | [] => (value, count, [])
  | b :: s =>
      match hexValue b with
      | none => (value, count, b :: s)
      | some d => takeHex (value * 16 + d) (count + 1) s

/-- The groups of an IPv6 address, and the number of groups before the ellipsis. `left` is the
number of groups that there is room for. -/
def parseIPv6Groups : (left : ℕ) → (groups : List ℕ) → (ellipsis : Option ℕ) → GoString →
    Option (List ℕ × Option ℕ)
  | 0, groups, ellipsis, s => if s = [] then some (groups, ellipsis) else none
  | left + 1, groups, ellipsis, s =>
      let (value, count, rest) := takeHex 0 0 s
      if count = 0 ∨ 4 < count then none
      else if rest.head? = some 0x2E then
        if ellipsis = none ∧ groups.length ≠ 6 ∨ 6 < groups.length then none
        else
          match parseIPv4Fields [] 0 0 s with
          | some [a, b, c, d] => some (groups ++ [a * 256 + b, c * 256 + d], ellipsis)
          | _ => none
      else
        let groups := groups ++ [value]
        match rest with
        | [] => some (groups, ellipsis)
        | [_] => none
        | colon :: next :: rest =>
            if colon ≠ 0x3A then none
            else if next = 0x3A then
              if ellipsis ≠ none then none
              else if rest = [] then some (groups, some groups.length)
              else parseIPv6Groups left groups (some groups.length) rest
            else parseIPv6Groups left groups ellipsis (next :: rest)

/-- The groups with zeros in the place of the ellipsis. -/
def expandEllipsis (groups : List ℕ) : Option ℕ → Option (List ℕ)
  | none => if groups.length = 8 then some groups else none
  | some n =>
      if groups.length < 8 then
        some (groups.take n ++ List.replicate (8 - groups.length) 0 ++ groups.drop n)
      else none

/-- The part before and after the first `%`, if there is one. -/
def cutPercent (s : GoString) : GoString × Option GoString :=
  match s.dropWhile (· ≠ 0x25) with
  | [] => (s, none)
  | _ :: zone => (s.takeWhile (· ≠ 0x25), some zone)

def parseIPv6 (s : GoString) : Option Addr :=
  let (address, zone) := cutPercent s
  if zone = some [] then none
  else
    let zone := zone.getD []
    let parsed :=
      match address with
      | 0x3A :: 0x3A :: rest =>
          if rest = [] then some ([], some 0) else parseIPv6Groups 8 [] (some 0) rest
      | _ => parseIPv6Groups 8 [] none address
    match parsed with
    | none => none
    | some (groups, ellipsis) =>
        (expandEllipsis groups ellipsis).map (fun groups => .v6 groups zone)

def parseAddr (s : GoString) : Option Addr :=
  match s.find? (fun b => b = 0x2E ∨ b = 0x3A ∨ b = 0x25) with
  | some 0x2E => (parseIPv4Fields [] 0 0 s).map .v4
  | some 0x3A => parseIPv6 s
  | _ => none

/-! ### The text -/

def hexDigits (n : ℕ) : GoString := (Nat.toDigits 16 n).map (fun c => c.toNat.toUInt8)

def dotted (bytes : List ℕ) : GoString :=
  [0x2E].intercalate (bytes.map formatNat)

/-- The number of zero groups at the start. -/
def zeroRun (groups : List ℕ) : ℕ := (groups.takeWhile (· = 0)).length

/-- The position and the length of the first longest run of two or more zero groups, if there is
one; `best` is that of the groups before the position `i`. -/
def longestZeroRun (i : ℕ) (best : Option (ℕ × ℕ)) : List ℕ → Option (ℕ × ℕ)
  | [] => best
  | g :: groups =>
      let run := zeroRun (g :: groups)
      let best :=
        if 2 ≤ run ∧ (best.map Prod.snd).getD 0 < run then some (i, run) else best
      longestZeroRun (i + 1) best groups

def colons (groups : List ℕ) : GoString := [0x3A].intercalate (groups.map hexDigits)

def zoneString (zone : GoString) : GoString := if zone = [] then [] else 0x25 :: zone

def Addr.string : Addr → GoString
  | .v4 bytes => dotted bytes
  | .v6 groups zone =>
      match groups with
      | [0, 0, 0, 0, 0, 0xFFFF, g, h] =>
          lit "::ffff:" ++ dotted [g / 256, g % 256, h / 256, h % 256] ++ zoneString zone
      | _ =>
          (match longestZeroRun 0 none groups with
            | none => colons groups
            | some (i, run) =>
                colons (groups.take i) ++ lit "::" ++ colons (groups.drop (i + run))) ++
          zoneString zone

def Addr.is6 : Addr → Bool
  | .v4 _ => false
  | .v6 _ _ => true

example : (parseAddr (lit "2001:DB8:0:0:1::1%eth0")).map Addr.string =
    some (lit "2001:db8::1:0:0:1%eth0") := by
  decide +kernel

example : (parseAddr (lit "::ffff:192.0.2.1")).map Addr.string = some (lit "::ffff:192.0.2.1") ∧
    parseAddr (lit "1::2::3") = none ∧ parseAddr (lit "192.0.02.1") = none := by
  decide +kernel

end NetIp
