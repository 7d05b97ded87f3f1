import ActivityRelay.NetIp.Addr
import ActivityRelay.NetUrl.Url

/-!
# Origins of directories

The origins that a configuration may name. `ParseOrigin` accepts only canonical ones, which are the
text of what they are parsed to, so that an accepted origin is its own canonical form.
-/

namespace Directory

open GoString NetUrl NetIp

def maximumDirectories : ℕ := 8

def validDNSLabel (label : GoString) : Bool :=
  label ≠ [] && label.length ≤ 63 && label.head? ≠ some 0x2D && label.getLast? ≠ some 0x2D &&
    label.all (fun c => 0x61 ≤ c.toNat && c.toNat ≤ 0x7A || isDigit c || c == 0x2D)

/-- `strconv.ParseUint` of a port and its canonical text. -/
def canonicalPort (port : GoString) : Bool :=
  match parseUint 16 port with
  | none => false
  | some n => n ≠ 0 && n ≠ 443 && formatNat n = port

variable (U : CaseTable)

/-- The host of a URL whose name or address is canonical. -/
def canonicalHost (hostname : GoString) : Option GoString :=
  match parseAddr hostname with
  | some address =>
      if hostname ≠ address.string then none
      else if address.is6 then some (0x5B :: hostname ++ [0x5D])
      else some hostname
  | none =>
      if toLower U hostname = hostname ∧ hostname.getLast? ≠ some 0x2E ∧ hostname.length ≤ 253 ∧
          0x2E ∈ hostname ∧ (hostname.splitOn 0x2E).all validDNSLabel = true then
        some hostname
      else none

def canonicalAuthority (url : URL) : Bool :=
  match canonicalHost U url.hostname with
  | none => false
  | some host =>
      if url.port = [] then url.host = host
      else canonicalPort url.port && url.host = host ++ 0x3A :: url.port

/-- `ParseOrigin`, with `none` for `ErrDirectoryConfiguration`. -/
def parseOrigin (value : GoString) : Option URL :=
  if value = [] ∨ trimSpace value ≠ value then none
  else
    match parseRequestURI value with
    | none => none
    | some url =>
        if url.scheme ≠ lit "https" ∨ url.host = [] ∨ url.hostname = [] ∨ url.user ≠ none ∨
            url.path ≠ [] ∨ url.rawPath ≠ [] ∨ url.rawQuery ≠ [] ∨ url.fragment ≠ [] ∨
            url.forceQuery ∨ url.opaquePart ≠ [] ∨ url.string ≠ value then none
        else if canonicalAuthority U url then some url
        else none

/-- `ParseOrigin` accepts the value. -/
def validOrigin (value : GoString) : Bool := (parseOrigin U value).isSome

/-- An entry of a configuration. -/
structure Entry where
  origin : GoString
  enabled : Bool
  deriving DecidableEq, Repr

/-- `ParseDirectories` accepts the entries. -/
def validDirectories (entries : List Entry) : Bool :=
  entries.length ≤ maximumDirectories && entries.all (fun e => validOrigin U e.origin) &&
    (entries.map Entry.origin).Nodup

end Directory
