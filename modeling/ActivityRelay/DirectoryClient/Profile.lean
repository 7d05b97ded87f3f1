import ActivityRelay.Directory.OriginForm
import ActivityRelay.GoJson.Encode
import ActivityRelay.GoString.Order
import ActivityRelay.GoString.TrimSpace
import ActivityRelay.HttpSignature.NonceStore

/-!
# Profiles of a relay

The descriptive fields that a relay sends to a directory. `NormalizeRelayProfile` refuses a profile
with one invalid field, and `SanitizeRelayProfile` leaves the invalid fields out and warns about
them. Both go over the twelve fields with the same checks, each of which gives the normal form of a
value or refuses it.
-/

namespace DirectoryClient

open GoString NetUrl GoJson

structure RelayProfile where
  participationMode : GoString := []
  availability : GoString := []
  relayType : GoString := []
  languages : List GoString := []
  countries : List GoString := []
  regions : List GoString := []
  topics : List GoString := []
  contactFediverse : GoString := []
  contactEmail : GoString := []
  contactURL : GoString := []
  participationURL : GoString := []
  notes : GoString := []
  deriving DecidableEq, Repr

structure ProfileWarning where
  field : GoString
  message : GoString
  deriving DecidableEq, Repr

def maximumProfileScalarBytes : ℕ := 256
def maximumProfileNoteBytes : ℕ := 1024
def maximumProfileListItems : ℕ := 16
def maximumProfileListItemBytes : ℕ := 128
def maximumProfileURLBytes : ℕ := 2048
def maximumProfileEmailBytes : ℕ := 320
def maximumProfileFediverseIDBytes : ℕ := 256

/-! ### The checks -/

/-- `utf8.ValidString`: the string is the encoding of its runes. -/
def validString (s : GoString) : Bool := encode (decode s) = s

variable (value : GoString)

def containsProfileControl : Bool :=
  (decode value).any (fun character => character < 0x20 || character == 0x7F)

/-- The test that the checks of texts, addresses and links begin with. -/
def validProfileBytes (maximum : ℕ) (value : GoString) : Bool :=
  validString value && value.length ≤ maximum && !containsProfileControl value

/-- `normalizeProfileText`, with `none` for `ErrProfile`. -/
def normalizeProfileText (maximum : ℕ) (value : GoString) : Option GoString :=
  if trimSpace value = [] then some []
  else if validProfileBytes maximum (trimSpace value) then some (trimSpace value)
  else none

def validParticipationMode : Bool :=
  value = [] || value = lit "open" || value = lit "restricted" || value = lit "closed"

/-- The check of the participation mode. -/
def normalizeParticipationMode : Option GoString :=
  (normalizeProfileText maximumProfileScalarBytes value).filter validParticipationMode

/-- An item of a list, which may not be empty. -/
def normalizeProfileItem : Option GoString :=
  (normalizeProfileText maximumProfileListItemBytes value).filter (· ≠ [])

/-- `normalizeProfileList`. The map of the unique items is a list without duplicates, whose order
is lost in sorting. -/
def normalizeProfileList (values : List GoString) : Option (List GoString) :=
  if values.length = 0 then some []
  else if maximumProfileListItems < values.length then none
  else (values.mapM normalizeProfileItem).map (fun items => sortStrings items.dedup)

/-- `normalizeProfileEmail`, where `parseAddress` gives the `Address` of `mail.ParseAddress`. -/
def normalizeProfileEmail (parseAddress : GoString → Option GoString) (value : GoString) :
    Option GoString :=
  if trimSpace value = [] then some []
  else if validProfileBytes maximumProfileEmailBytes (trimSpace value) then
    match parseAddress (trimSpace value) with
    | none => none
    | some address =>
        if address ≠ trimSpace value ∨ (trimSpace value).any (fun b => (lit "<>\"").contains b) then none
        else some (trimSpace value)
  else none

/-- The path of a link, which is not left out. -/
def profilePath (url : URL) : GoString := if url.escapedPath = [] then lit "/" else url.escapedPath

/-- The test of the path of a link. -/
def validProfilePath (path : GoString) : Bool :=
  0x25 ∉ path && 0x5C ∉ path && !decide (lit "//" <:+: path) &&
    !(path.splitOn 0x2F).any (fun segment => segment = lit "." || segment = lit "..")

def normalizeProfileURL (U : CaseTable) (value : GoString) : Option GoString :=
  if trimSpace value = [] then some []
  else if validProfileBytes maximumProfileURLBytes (trimSpace value) then
    match parseRequestURI (trimSpace value) with
    | none => none
    | some url =>
        if url.scheme ≠ lit "https" ∨ url.user ≠ none ∨ url.host = [] ∨ url.rawQuery ≠ [] ∨
            url.fragment ≠ [] ∨ url.forceQuery ∨ url.opaquePart ≠ [] ∨
            url.string ≠ trimSpace value then none
        else if (Directory.parseOrigin U (lit "https://" ++ url.host)).isSome then
          if validProfilePath (profilePath url) then some (lit "https://" ++ url.host ++ profilePath url)
          else none
        else none
  else none

/-! ### Profiles -/

section Profiles

variable (U : CaseTable) (parseAddress : GoString → Option GoString)

/-- `NormalizeRelayProfile`, with `none` for `ErrProfile`. -/
def normalizeRelayProfile (profile : RelayProfile) : Option RelayProfile := do
  let participationMode ← normalizeParticipationMode profile.participationMode
  let availability ← normalizeProfileText maximumProfileScalarBytes profile.availability
  let relayType ← normalizeProfileText maximumProfileScalarBytes profile.relayType
  let languages ← normalizeProfileList profile.languages
  let countries ← normalizeProfileList profile.countries
  let regions ← normalizeProfileList profile.regions
  let topics ← normalizeProfileList profile.topics
  let contactFediverse ← normalizeProfileText maximumProfileFediverseIDBytes profile.contactFediverse
  let contactEmail ← normalizeProfileEmail parseAddress profile.contactEmail
  let contactURL ← normalizeProfileURL U profile.contactURL
  let participationURL ← normalizeProfileURL U profile.participationURL
  let notes ← normalizeProfileText maximumProfileNoteBytes profile.notes
  return { participationMode, availability, relayType, languages, countries, regions, topics,
           contactFediverse, contactEmail, contactURL, participationURL, notes }

/-- A field with its normal form, or left at its zero value with a warning. -/
def keep {α : Type} (zero : α) (field message : GoString) (normalized : Option α) :
    α × List ProfileWarning :=
  match normalized with
  | some value => (value, [])
  | none => (zero, [⟨field, message⟩])

/-- The closure `setText` of `SanitizeRelayProfile`. -/
def setText (field value : GoString) (maximum : ℕ) : GoString × List ProfileWarning :=
  keep [] field (lit "invalid value; field will be omitted") (normalizeProfileText maximum value)

/-- The closure `setList` of `SanitizeRelayProfile`. -/
def setList (field : GoString) (values : List GoString) : List GoString × List ProfileWarning :=
  keep [] field (lit "invalid list; field will be omitted") (normalizeProfileList values)

def sanitizeRelayProfile (profile : RelayProfile) : RelayProfile × List ProfileWarning :=
  let participationMode := keep [] (lit "participation_mode")
    (lit "invalid value; allowed values are open, restricted, closed; field will be omitted")
    (normalizeParticipationMode profile.participationMode)
  let availability := setText (lit "availability") profile.availability maximumProfileScalarBytes
  let relayType := setText (lit "relay_type") profile.relayType maximumProfileScalarBytes
  let languages := setList (lit "languages") profile.languages
  let countries := setList (lit "countries") profile.countries
  let regions := setList (lit "regions") profile.regions
  let topics := setList (lit "topics") profile.topics
  let contactFediverse := setText (lit "contact_fediverse") profile.contactFediverse
    maximumProfileFediverseIDBytes
  let contactEmail := keep [] (lit "contact_email")
    (lit "invalid email address; field will be omitted")
    (normalizeProfileEmail parseAddress profile.contactEmail)
  let contactURL := keep [] (lit "contact_url") (lit "invalid HTTPS URL; field will be omitted")
    (normalizeProfileURL U profile.contactURL)
  let participationURL := keep [] (lit "participation_url")
    (lit "invalid HTTPS URL; field will be omitted") (normalizeProfileURL U profile.participationURL)
  let notes := setText (lit "notes") profile.notes maximumProfileNoteBytes
  ({ participationMode := participationMode.1, availability := availability.1
     relayType := relayType.1, languages := languages.1, countries := countries.1
     regions := regions.1, topics := topics.1, contactFediverse := contactFediverse.1
     contactEmail := contactEmail.1, contactURL := contactURL.1
     participationURL := participationURL.1, notes := notes.1 },
    participationMode.2 ++ availability.2 ++ relayType.2 ++ languages.2 ++ countries.2 ++
      regions.2 ++ topics.2 ++ contactFediverse.2 ++ contactEmail.2 ++ contactURL.2 ++
      participationURL.2 ++ notes.2)

end Profiles

/-- `profileWire`, as the document it is written as. -/
def profileWire (profile : RelayProfile) : Json :=
  .object [
    (lit "participation_mode", .string profile.participationMode),
    (lit "availability", .string profile.availability),
    (lit "relay_type", .string profile.relayType),
    (lit "languages", .array (profile.languages.map .string)),
    (lit "countries", .array (profile.countries.map .string)),
    (lit "regions", .array (profile.regions.map .string)),
    (lit "topics", .array (profile.topics.map .string)),
    (lit "contact_fediverse", .string profile.contactFediverse),
    (lit "contact_email", .string profile.contactEmail),
    (lit "contact_url", .string profile.contactURL),
    (lit "participation_url", .string profile.participationURL),
    (lit "notes", .string profile.notes)]

/-- `ProfileDigest` of a client with a profile. -/
def profileDigest (sha256 : GoString → GoString) (profile : RelayProfile) : GoString :=
  HttpSignature.hexEncode (sha256 (marshal (profileWire profile)))

/-- The digest of the client that `New` makes with a profile. There is none if the profile is
refused. -/
def clientDigest (U : CaseTable) (parseAddress : GoString → Option GoString)
    (sha256 : GoString → GoString) (profile : RelayProfile) : Option GoString :=
  (normalizeRelayProfile U parseAddress profile).map (profileDigest sha256)

end DirectoryClient
