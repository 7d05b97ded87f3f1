import ActivityRelay.GoString.Number
import ActivityRelay.GoString.Text

/-!
# URLs

Go's `net/url` (Go 1.25.0): parsing with and without a fragment, escaping, and the string of a
URL. A URL that cannot be parsed gives `none`; the texts of the errors are left out, as no
caller looks at them.
-/

namespace NetUrl

open GoString

structure Userinfo where
  username : GoString
  password : Option GoString
  deriving DecidableEq, Repr

/-- `url.URL`. The field `opaquePart` is Go's `Opaque`. -/
structure URL where
  scheme : GoString := []
  opaquePart : GoString := []
  user : Option Userinfo := none
  host : GoString := []
  path : GoString := []
  rawPath : GoString := []
  omitHost : Bool := false
  forceQuery : Bool := false
  rawQuery : GoString := []
  fragment : GoString := []
  rawFragment : GoString := []
  deriving DecidableEq, Repr

/-! ### Escaping -/

/-- The parts of a URL that differ in what is escaped. -/
inductive Encoding
  | path
  | host
  | zone
  | userPassword
  | fragment
  deriving DecidableEq, Repr

def isAlpha (c : UInt8) : Bool :=
  0x61 ≤ c.toNat && c.toNat ≤ 0x7A || 0x41 ≤ c.toNat && c.toNat ≤ 0x5A

variable (mode : Encoding)

def shouldEscape (c : UInt8) : Bool :=
  if isAlpha c || isDigit c then false
  else if (mode = .host || mode = .zone) && (lit "!$&'()*+,;=:[]<>\"").contains c then false
  else if (lit "-_.~").contains c then false
  else if (lit "$&+,/:;=?@").contains c then
    match mode with
    | .path => c == 0x3F
    | .userPassword => (lit "@/?:").contains c
    | .fragment => false
    | .host | .zone => true
  else if mode = .fragment && (lit "!()*").contains c then false
  else true

/-- `unhex`, with `none` for a byte that is no hexadecimal digit. -/
def unhex (c : UInt8) : Option ℕ := hexValue c

/-- Whether an escape for the byte `v` may stand in a part. In hosts it may for bytes that are
not ASCII, and for the percent sign. -/
def escapeAllowed (v : UInt8) : Bool :=
  match mode with
  | .host => runeSelf ≤ v.toNat || v == 0x25
  | .zone => v == 0x25 || v == 0x20 || !shouldEscape .host v
  | _ => true

/-- Whether a byte may stand unescaped in a part. -/
def literalAllowed (c : UInt8) : Bool :=
  match mode with
  | .host | .zone => runeSelf ≤ c.toNat || !shouldEscape mode c
  | _ => true

def unescape (mode : Encoding) : GoString → Option GoString
  | [] => some []
  | c :: s =>
      if c = 0x25 then
        match s with
        | a :: b :: s =>
            (unhex a).bind (fun x => (unhex b).bind (fun y =>
              if escapeAllowed mode (UInt8.ofNat (16 * x + y)) then
                (unescape mode s).map (UInt8.ofNat (16 * x + y) :: ·)
              else none))
        | _ => none
      else if literalAllowed mode c then (unescape mode s).map (c :: ·)
      else none

/-- A digit of `upperhex`. -/
def upperhex (n : ℕ) : UInt8 := if n < 10 then UInt8.ofNat (0x30 + n) else UInt8.ofNat (0x37 + n)

/-- The bytes a byte is escaped to. -/
def escapeByte (c : UInt8) : GoString :=
  if shouldEscape mode c then [0x25, upperhex (c.toNat / 16), upperhex (c.toNat % 16)] else [c]

def escape (s : GoString) : GoString := s.flatMap (escapeByte mode)

def validEncoded (s : GoString) : Bool :=
  s.all (fun c => (lit "!$&'()*+,;=:@[]%").contains c || !shouldEscape mode c)

/-! ### Parsing -/

/-- `getScheme`: the scheme and the rest of a URL, `none` if there is a colon without a
scheme. The part `seen` has been read as a scheme. -/
def getSchemeFrom (whole : GoString) (seen : GoString) : GoString → Option (GoString × GoString)
  | [] => some ([], whole)
  | c :: s =>
      if isAlpha c then getSchemeFrom whole (seen ++ [c]) s
      else if isDigit c || (lit "+-.").contains c then
        if seen = [] then some ([], whole) else getSchemeFrom whole (seen ++ [c]) s
      else if c = 0x3A then
        if seen = [] then none else some (seen, s)
      else some ([], whole)

def getScheme (rawURL : GoString) : Option (GoString × GoString) := getSchemeFrom rawURL [] rawURL

def validOptionalPort : GoString → Bool
  | [] => true
  | c :: port => c == 0x3A && port.all isDigit

/-- The two sides of the first `%25`, the second with it. -/
def cutZone : GoString → Option (GoString × GoString)
  | [] => none
  | c :: s =>
      if (lit "%25").isPrefixOf (c :: s) then some ([], c :: s)
      else (cutZone s).map (fun p => (c :: p.1, p.2))

def parseHost (host : GoString) : Option GoString :=
  if (lit "[").isPrefixOf host then
    (cutLast 0x5D host).bind (fun (address, colonPort) =>
      if validOptionalPort colonPort then
        match cutZone address with
        | some (before, zone) =>
            (unescape .host before).bind (fun host₁ =>
              (unescape .zone zone).bind (fun host₂ =>
                (unescape .host (0x5D :: colonPort)).map (fun host₃ => host₁ ++ host₂ ++ host₃)))
        | none => unescape .host host
      else none)
  else
    match cutLast 0x3A host with
    | some (_, port) => if validOptionalPort (0x3A :: port) then unescape .host host else none
    | none => unescape .host host

def validUserinfo (s : GoString) : Bool :=
  s.all (fun c => isAlpha c || isDigit c || (lit "-._:~!$&'()*+,;=%@").contains c)

def parseUserinfo (userinfo : GoString) : Option Userinfo :=
  if validUserinfo userinfo then
    match cut 0x3A userinfo with
    | (username, none) => (unescape .userPassword username).map (fun u => ⟨u, none⟩)
    | (username, some password) =>
        (unescape .userPassword username).bind (fun u =>
          (unescape .userPassword password).map (fun p => ⟨u, some p⟩))
  else none

def parseAuthority (authority : GoString) : Option (Option Userinfo × GoString) :=
  match cutLast 0x40 authority with
  | none => (parseHost authority).map (fun host => (none, host))
  | some (userinfo, host) =>
      (parseHost host).bind (fun host => (parseUserinfo userinfo).map (fun user => (some user, host)))

variable (url : URL)

def URL.setPath (p : GoString) : Option URL :=
  (unescape .path p).map (fun path =>
    { url with path := path, rawPath := if p = escape .path path then [] else p })

def URL.setFragment (f : GoString) : Option URL :=
  (unescape .fragment f).map (fun fragment =>
    { url with fragment := fragment, rawFragment := if f = escape .fragment fragment then [] else f })

/-- `stringContainsCTLByte`. -/
def containsCTLByte (s : GoString) : Bool := s.any (fun c => c.toNat < 0x20 || c.toNat == 0x7F)

/-- The URL with the query of the rest of a URL, and what is before the query. -/
def URL.setQuery (rest : GoString) : URL × GoString :=
  if rest.getLast? = some 0x3F ∧ rest.count 0x3F = 1 then
    ({ url with forceQuery := true }, rest.dropLast)
  else
    match cut 0x3F rest with
    | (rest, query) => ({ url with rawQuery := query.getD [] }, rest)

/-- The URL with the authority and the path of the rest of a URL. -/
def URL.setHierarchy (viaRequest : Bool) (rest : GoString) : Option URL :=
  if (url.scheme ≠ [] || !viaRequest && !(lit "///").isPrefixOf rest) && (lit "//").isPrefixOf rest then
    match cut 0x2F (rest.drop 2) with
    | (authority, after) =>
        (parseAuthority authority).bind (fun (user, host) =>
          URL.setPath { url with user := user, host := host }
            (after.elim [] (fun path => 0x2F :: path)))
  else if url.scheme ≠ [] && (lit "/").isPrefixOf rest then
    URL.setPath { url with omitHost := true } rest
  else url.setPath rest

/-- What follows the scheme of a URL. -/
def parseRest (viaRequest : Bool) (scheme rest : GoString) : Option URL :=
  match URL.setQuery { scheme := scheme.map lowerByte } rest with
  | (url, rest) =>
      if (lit "/").isPrefixOf rest then url.setHierarchy viaRequest rest
      else if url.scheme ≠ [] then some { url with opaquePart := rest }
      else if viaRequest then none
      else if 0x3A ∈ (cut 0x2F rest).1 then none
      else url.setHierarchy viaRequest rest

/-- `parse`. -/
def parseURL (viaRequest : Bool) (rawURL : GoString) : Option URL :=
  if containsCTLByte rawURL then none
  else if rawURL = [] ∧ viaRequest = true then none
  else if rawURL = lit "*" then some { path := lit "*" }
  else (getScheme rawURL).bind (fun (scheme, rest) => parseRest viaRequest scheme rest)

def parse (rawURL : GoString) : Option URL :=
  match cut 0x23 rawURL with
  | (u, frag) =>
      (parseURL false u).bind (fun url =>
        if frag.getD [] = [] then some url else url.setFragment (frag.getD []))

def parseRequestURI (rawURL : GoString) : Option URL := parseURL true rawURL

/-! ### The parts and the string of a URL -/

def URL.hostname : GoString :=
  let host :=
    match cutLast 0x3A url.host with
    | some (host, port) => if port.all isDigit then host else url.host
    | none => url.host
  if host.head? = some 0x5B ∧ host.getLast? = some 0x5D then (host.drop 1).dropLast else host

def URL.port (url : URL) : GoString :=
  match cutLast 0x3A url.host with
  | some (_, port) => if port.all isDigit then port else []
  | none => []

def URL.escapedPath : GoString :=
  if url.rawPath ≠ [] ∧ validEncoded .path url.rawPath ∧
      unescape .path url.rawPath = some url.path then url.rawPath
  else if url.path = lit "*" then lit "*"
  else escape .path url.path

def URL.escapedFragment : GoString :=
  if url.rawFragment ≠ [] ∧ validEncoded .fragment url.rawFragment ∧
      unescape .fragment url.rawFragment = some url.fragment then url.rawFragment
  else escape .fragment url.fragment

def Userinfo.string (user : Userinfo) : GoString :=
  escape .userPassword user.username ++
    user.password.elim [] (fun password => 0x3A :: escape .userPassword password)

/-- The authority in the string of a URL, with the slashes before it. -/
def URL.authorityString : GoString :=
  if url.scheme = [] ∧ url.host = [] ∧ url.user = none then []
  else if url.omitHost ∧ url.host = [] ∧ url.user = none then []
  else
    (if url.host ≠ [] ∨ url.path ≠ [] ∨ url.user ≠ none then lit "//" else []) ++
      url.user.elim [] (fun user => user.string ++ [0x40]) ++ escape .host url.host

/-- The query and the fragment in the string of a URL. -/
def URL.suffixString : GoString :=
  (if url.forceQuery ∨ url.rawQuery ≠ [] then 0x3F :: url.rawQuery else []) ++
    (if url.fragment ≠ [] then 0x23 :: url.escapedFragment else [])

def URL.string : GoString :=
  let start := if url.scheme = [] then [] else url.scheme ++ [0x3A]
  if url.opaquePart ≠ [] then start ++ url.opaquePart ++ url.suffixString
  else
    let before := start ++ url.authorityString
    let path := url.escapedPath
    let slash := if path ≠ [] ∧ path.head? ≠ some 0x2F ∧ url.host ≠ [] then lit "/" else []
    let dot := if before ++ slash = [] ∧ 0x3A ∈ (cut 0x2F path).1 then lit "./" else []
    before ++ slash ++ dot ++ path ++ url.suffixString

end NetUrl
