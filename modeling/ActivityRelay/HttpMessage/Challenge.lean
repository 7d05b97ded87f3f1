import ActivityRelay.HttpMessage.Request

/-!
# Authentication challenges

The grammar of the challenges in a field value, after RFC 9110, as trees with their texts. A field
value is a list of challenges, and a challenge may have a list of parameters; commas separate the
elements of both lists. So a field value, cut at the commas outside of quoted strings, is a sequence
of segments, each of which is the head of a challenge, a further parameter of one, or empty.
-/

namespace HttpMessage

open GoString List NetUrl

/-! ### Lexical elements -/

structure Token where
  text : GoString
  ne_nil : text ≠ []
  bytes : ∀ b ∈ text, validHeaderFieldByte b = true

/-- A token is a word, up to the case of letters. -/
def Token.isWord (t : Token) (word : GoString) : Bool := t.text.map lowerByte == word.map lowerByte

/-- `OWS` and `BWS`. -/
structure OptionalSpace where
  text : GoString
  bytes : ∀ b ∈ text, b = 0x20 ∨ b = 0x09

/-- `qdtext`. -/
def isQuotedText (b : UInt8) : Bool :=
  b = 0x09 || b = 0x20 || b = 0x21 || 0x23 ≤ b.toNat && b.toNat ≤ 0x5B ||
    0x5D ≤ b.toNat && b.toNat ≤ 0x7E || 0x80 ≤ b.toNat

/-- The bytes that a `quoted-pair` may have after its backslash. -/
def isEscapable (b : UInt8) : Bool := b = 0x09 || 0x20 ≤ b.toNat && b.toNat ≤ 0x7E || 0x80 ≤ b.toNat

/-- A part of a quoted string. -/
inductive QuotedPart
  | text (b : UInt8) (h : isQuotedText b = true)
  | pair (b : UInt8) (h : isEscapable b = true)

def QuotedPart.bytes : QuotedPart → GoString
  | text b _ => [b]
  | pair b _ => [0x5C, b]

/-- The text of a `quoted-string`. -/
def quotedString (parts : List QuotedPart) : GoString :=
  0x22 :: (parts.flatMap QuotedPart.bytes ++ [0x22])

/-- The bytes of a `token68` before its padding. -/
def isToken68Byte (b : UInt8) : Bool := isAlpha b || isDigit b || (lit "-._~+/").contains b

structure Token68 where
  body : GoString
  padding : ℕ
  ne_nil : body ≠ []
  bytes : ∀ b ∈ body, isToken68Byte b = true

def Token68.text (t : Token68) : GoString := t.body ++ List.replicate t.padding 0x3D

/-! ### Lists -/

/-- `#element`, in the form that recipients accept, with empty elements. Each further element has
the space before and after its comma. -/
structure Elements (α : Type) where
  first : Option α
  others : List (OptionalSpace × OptionalSpace × Option α)

variable {α : Type} {b : UInt8}

def elementText (text : α → GoString) (element : Option α) : GoString := element.elim [] text

/-- The text of further elements. -/
def othersText (text : α → GoString)
    (others : List (OptionalSpace × OptionalSpace × Option α)) : GoString :=
  others.flatMap (fun other =>
    other.1.text ++ (0x2C :: (other.2.1.text ++ elementText text other.2.2)))

def Elements.text (text : α → GoString) (elements : Elements α) : GoString :=
  elementText text elements.first ++ othersText text elements.others

/-- The elements that are not empty. -/
def Elements.present (elements : Elements α) : List α :=
  elements.first.toList ++ elements.others.filterMap (·.2.2)

/-! ### Challenges -/

inductive ParamValue
  | token (t : Token)
  | quoted (parts : List QuotedPart)

def ParamValue.text : ParamValue → GoString
  | token t => t.text
  | quoted parts => quotedString parts

/-- `auth-param`. -/
structure AuthParam where
  name : Token
  before : OptionalSpace
  after : OptionalSpace
  value : ParamValue

def AuthParam.text (p : AuthParam) : GoString :=
  p.name.text ++ (p.before.text ++ (0x3D :: (p.after.text ++ p.value.text)))

/-- What follows the scheme of a challenge, after one space and more. -/
inductive ChallengeData
  | none
  | token68 (spaces : ℕ) (t : Token68)
  | params (spaces : ℕ) (elements : Elements AuthParam)

structure Challenge where
  scheme : Token
  data : ChallengeData

def spacesText (spaces : ℕ) : GoString := 0x20 :: List.replicate spaces 0x20

/-- What follows the scheme up to the first comma. -/
def ChallengeData.headText : ChallengeData → GoString
  | none => []
  | token68 spaces t => spacesText spaces ++ t.text
  | params spaces elements => spacesText spaces ++ elementText AuthParam.text elements.first

/-- The parameters after the first comma. -/
def ChallengeData.others : ChallengeData → List (OptionalSpace × OptionalSpace × Option AuthParam)
  | none => []
  | token68 _ _ => []
  | params _ elements => elements.others

def Challenge.headText (c : Challenge) : GoString := c.scheme.text ++ c.data.headText

def Challenge.text (c : Challenge) : GoString :=
  c.headText ++ othersText AuthParam.text c.data.others

/-- The value of a `WWW-Authenticate` field. -/
abbrev Challenges := Elements Challenge

/-! ### Bytes -/

theorem validHeaderFieldByte_spec (h : validHeaderFieldByte b = true) :
  b.toNat < runeSelf ∧ isSpaceByte b = false ∧ b ≠ 0x22 ∧ b ≠ 0x2C ∧ b ≠ 0x3D
  := by
  revert h
  refine forall_byte (P := fun b => validHeaderFieldByte b = true →
    b.toNat < runeSelf ∧ isSpaceByte b = false ∧ b ≠ 0x22 ∧ b ≠ 0x2C ∧ b ≠ 0x3D) ?_ b
  decide +kernel

theorem isToken68Byte_spec (h : isToken68Byte b = true) :
  b ≠ 0x22 ∧ b ≠ 0x2C
  := by
  revert h
  refine forall_byte (P := fun b => isToken68Byte b = true → b ≠ 0x22 ∧ b ≠ 0x2C) ?_ b
  decide +kernel

theorem isQuotedText_spec (h : isQuotedText b = true) :
  b ≠ 0x22 ∧ b ≠ 0x5C
  := by
  revert h
  refine forall_byte (P := fun b => isQuotedText b = true → b ≠ 0x22 ∧ b ≠ 0x5C) ?_ b
  decide +kernel

variable (space : OptionalSpace)

theorem OptionalSpace.blank :
  Blank space.text
  := by
  obtain ⟨text, bytes⟩ := space
  induction text with
  | nil => exact .nil
  | cons b text ih =>
    rw [forall_mem_cons] at bytes
    refine .one ?_ (ih bytes.2)
    obtain rfl | rfl := bytes.1
    · rfl
    · rfl

/-! ### Texts without a comma outside of quoted strings -/

/-- A text without a comma outside of quoted strings, which are all closed in it. -/
inductive Closed : GoString → Prop
  | nil : Closed []
  | byte {b : UInt8} {s : GoString} (hquote : b ≠ 0x22) (hcomma : b ≠ 0x2C) (hs : Closed s) :
      Closed (b :: s)
  | quoted (parts : List QuotedPart) {s : GoString} (hs : Closed s) :
      Closed (quotedString parts ++ s)

theorem Closed.append {s t : GoString} (hs : Closed s) (ht : Closed t) :
  Closed (s ++ t)
  := by
  induction hs with
  | nil => exact ht
  | byte hquote hcomma _ ih => exact .byte hquote hcomma ih
  | quoted parts _ ih =>
    rw [append_assoc]
    exact .quoted parts ih

theorem closed_of_forall {s : GoString} (h : ∀ b ∈ s, b ≠ 0x22 ∧ b ≠ 0x2C) :
  Closed s
  := by
  induction s with
  | nil => exact .nil
  | cons b s ih =>
    rw [forall_mem_cons] at h
    exact .byte h.1.1 h.1.2 (ih h.2)

theorem Token.closed (t : Token) :
  Closed t.text
  := by
  apply closed_of_forall
  intro b hb
  have hspec := validHeaderFieldByte_spec (t.bytes b hb)
  exact ⟨hspec.2.2.1, hspec.2.2.2.1⟩

theorem OptionalSpace.closed :
  Closed space.text
  := by
  apply closed_of_forall
  intro b hb
  obtain rfl | rfl := space.bytes b hb
  · decide
  · decide

theorem Token68.closed (t : Token68) :
  Closed t.text
  := by
  apply closed_of_forall
  intro b hb
  obtain hb | hb := mem_append.mp hb
  · exact isToken68Byte_spec (t.bytes b hb)
  · rw [eq_of_mem_replicate hb]
    decide

theorem closed_spacesText (spaces : ℕ) :
  Closed (spacesText spaces)
  := by
  apply closed_of_forall
  intro b hb
  have hmem : b ∈ List.replicate (spaces + 1) 0x20 := hb
  rw [eq_of_mem_replicate hmem]
  decide

theorem ParamValue.closed (value : ParamValue) :
  Closed value.text
  := by
  cases value with
  | token t => exact t.closed
  | quoted parts =>
    have hquoted := Closed.quoted parts .nil
    rwa [append_nil] at hquoted

theorem AuthParam.closed (p : AuthParam) :
  Closed p.text
  := by
  refine p.name.closed.append (p.before.closed.append (.byte (by decide) (by decide) ?_))
  exact p.after.closed.append p.value.closed

theorem closed_elementText {text : α → GoString} (h : ∀ a, Closed (text a)) (element : Option α) :
  Closed (elementText text element)
  := by
  cases element with
  | none => exact .nil
  | some a => exact h a

theorem Challenge.closed_headText (c : Challenge) :
  Closed c.headText
  := by
  apply c.scheme.closed.append
  cases c.data with
  | none => exact .nil
  | token68 spaces t => exact (closed_spacesText spaces).append t.closed
  | params spaces elements =>
    exact (closed_spacesText spaces).append (closed_elementText AuthParam.closed elements.first)

/-! ### Segments -/

/-- The parameters of a challenge after its first comma. -/
def Challenge.laterParams (c : Challenge) : List AuthParam := c.data.others.filterMap (·.2.2)

/-- What stands between two commas. -/
inductive Segment
  | empty
  | challenge (c : Challenge)
  | param (p : AuthParam)

def Segment.text : Segment → GoString
  | empty => []
  | challenge c => c.headText
  | param p => p.text

theorem Segment.closed (segment : Segment) :
  Closed segment.text
  := by
  cases segment with
  | empty => exact .nil
  | challenge c => exact c.closed_headText
  | param p => exact p.closed

def paramSegment (p : Option AuthParam) : Segment := p.elim .empty .param

/-- The segments of a challenge: its head, and its parameters after the first comma. -/
def challengeSegments : Option Challenge → List Segment
  | none => [.empty]
  | some c => .challenge c :: c.data.others.map (fun other => paramSegment other.2.2)

def Elements.segments (challenges : Elements Challenge) : List Segment :=
  challengeSegments challenges.first ++
    challenges.others.flatMap (fun other => challengeSegments other.2.2)

/-- A text, and its segments between space. -/
inductive Segmented : GoString → List Segment → Prop
  | last (before after : OptionalSpace) (segment : Segment) :
      Segmented (before.text ++ (segment.text ++ after.text)) [segment]
  | cons (before after : OptionalSpace) (segment : Segment) {s : GoString}
      {segments : List Segment} (h : Segmented s segments) :
      Segmented (before.text ++ (segment.text ++ (after.text ++ (0x2C :: s)))) (segment :: segments)

def OptionalSpace.none : OptionalSpace := ⟨[], forall_mem_nil _⟩

theorem OptionalSpace.bytes_append (a b : OptionalSpace) :
  ∀ x ∈ a.text ++ b.text, x = 0x20 ∨ x = 0x09
  := by
  intro x hx
  obtain hx | hx := mem_append.mp hx
  · exact a.bytes x hx
  · exact b.bytes x hx

def OptionalSpace.append (a b : OptionalSpace) : OptionalSpace :=
  ⟨a.text ++ b.text, bytes_append a b⟩

theorem segmented_text (segment : Segment) :
  Segmented segment.text [segment]
  := by
  have h := Segmented.last .none .none segment
  rwa [OptionalSpace.none, nil_append, append_nil] at h

theorem Segmented.pad {s : GoString} {segments : List Segment} (h : Segmented s segments) :
  Segmented (space.text ++ s) segments
  := by
  cases h with
  | last before after segment =>
    rw [← append_assoc]
    exact .last (space.append before) after segment
  | cons before after segment hs =>
    rw [← append_assoc]
    exact .cons (space.append before) after segment hs

/-- Segments on both sides of a comma. -/
theorem Segmented.append {s t : GoString} {left right : List Segment} (hs : Segmented s left)
    (ht : Segmented t right) (before after : OptionalSpace) :
  Segmented (s ++ (before.text ++ (0x2C :: (after.text ++ t)))) (left ++ right)
  := by
  induction hs with
  | last before' after' segment =>
    have h := Segmented.cons before' (after'.append before) segment (ht.pad after)
    simpa only [OptionalSpace.append, append_assoc, singleton_append] using h
  | cons before' after' segment _ ih =>
    have h := Segmented.cons before' after' segment ih
    simpa only [append_assoc, cons_append] using h

/-- Segments before the further elements of a list. -/
theorem Segmented.others {text : α → GoString} {segments : Option α → List Segment}
    (hsegments : ∀ element, Segmented (elementText text element) (segments element))
    (others : List (OptionalSpace × OptionalSpace × Option α)) {s : GoString} {left : List Segment}
    (hs : Segmented s left) :
  Segmented (s ++ othersText text others) (left ++ others.flatMap (fun other => segments other.2.2))
  := by
  induction others generalizing s left with
  | nil =>
    rw [othersText, flatMap_nil, flatMap_nil, append_nil, append_nil]
    exact hs
  | cons other others ih =>
    have h := ih (hs.append (hsegments other.2.2) other.1 other.2.1)
    simpa only [othersText, flatMap_cons, append_assoc, cons_append] using h

theorem segmented_param (p : Option AuthParam) :
  Segmented (elementText AuthParam.text p) [paramSegment p]
  := by
  cases p with
  | none => exact segmented_text .empty
  | some p => exact segmented_text (.param p)

/-- A challenge is segmented at the commas between its parameters. -/
theorem segmented_challenge (c : Option Challenge) :
  Segmented (elementText Challenge.text c) (challengeSegments c)
  := by
  cases c with
  | none => exact segmented_text .empty
  | some c =>
    have h := (segmented_text (.challenge c)).others segmented_param c.data.others
    rwa [← map_eq_flatMap] at h

/-- **The segments of a field value.** -/
theorem segmented_challenges (challenges : Challenges) :
  Segmented (challenges.text Challenge.text) challenges.segments
  := (segmented_challenge challenges.first).others segmented_challenge challenges.others

end HttpMessage
