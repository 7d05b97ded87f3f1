import ActivityRelay.GoString.TrimSpace
import ActivityRelay.HttpMessage.Challenge
import ActivityRelay.HttpSignature.AcceptSignature

/-!
# Rejections of legacy signatures

What `ExplicitLegacySignatureRejection` makes of challenges that conform to their grammar. It cuts a
field value at the commas outside of quoted strings, and takes the first word of each segment for a
scheme. The first word of a parameter is its name if there is space before its equals sign, so that a
parameter with the name of the scheme is taken for a challenge.
-/

namespace HttpSignature

open GoString HttpMessage List

/-! ### Cutting -/

section Split

variable (current s : GoString) {b : UInt8}

theorem splitChallenges_comma :
  splitChallenges false false current (0x2C :: s) = current :: splitChallenges false false [] s
  := rfl

theorem splitChallenges_quote (quoted : Bool) :
  splitChallenges quoted false current (0x22 :: s) =
    splitChallenges (!quoted) false (current ++ [0x22]) s
  := by
  cases quoted with
  | false | true => rfl

theorem splitChallenges_pair :
  splitChallenges true false current (0x5C :: b :: s) =
    splitChallenges true false (current ++ [0x5C] ++ [b]) s
  := rfl

theorem splitChallenges_text (hquote : b ≠ 0x22) (hescape : b ≠ 0x5C) :
  splitChallenges true false current (b :: s) = splitChallenges true false (current ++ [b]) s
  := by
  rw [splitChallenges]
  simp [hquote, hescape]

theorem splitChallenges_byte (hquote : b ≠ 0x22) (hcomma : b ≠ 0x2C) :
  splitChallenges false false current (b :: s) = splitChallenges false false (current ++ [b]) s
  := by
  rw [splitChallenges]
  simp [hquote, hcomma]

end Split

theorem splitChallenges_quotedString (parts : List QuotedPart) (current s : GoString) :
  splitChallenges true false current (parts.flatMap QuotedPart.bytes ++ (0x22 :: s)) =
    splitChallenges false false (current ++ (parts.flatMap QuotedPart.bytes ++ [0x22])) s
  := by
  induction parts generalizing current with
  | nil => exact splitChallenges_quote current s true
  | cons part parts ih =>
    cases part with
    | text b hb =>
      obtain ⟨hquote, hescape⟩ := isQuotedText_spec hb
      rw [flatMap_cons, QuotedPart.bytes, singleton_append, cons_append,
        splitChallenges_text _ _ hquote hescape, ih, append_assoc]
      rfl
    | pair b hb =>
      rw [flatMap_cons, QuotedPart.bytes, cons_append, singleton_append,
        cons_append, cons_append, splitChallenges_pair, ih, append_assoc,
        append_assoc]
      rfl

theorem splitChallenges_closed {text : GoString} (h : Closed text) (current s : GoString) :
  splitChallenges false false current (text ++ s) = splitChallenges false false (current ++ text) s
  := by
  induction h generalizing current with
  | nil => rw [nil_append, append_nil]
  | byte hquote hcomma _ ih =>
    rw [cons_append, splitChallenges_byte _ _ hquote hcomma, ih, append_assoc]
    rfl
  | quoted parts _ ih =>
    rw [append_assoc, quotedString, cons_append, append_assoc,
      splitChallenges_quote, singleton_append, Bool.not_false, splitChallenges_quotedString, ih,
      append_assoc, append_assoc]
    rfl

/-- The segments of a text are what it is cut into, with space around them. -/
theorem any_splitAuthenticationChallenges {s : GoString} {segments : List Segment}
    (h : Segmented s segments) {p : GoString → Bool} {q : Segment → Bool}
    (hsegment : ∀ (before after : OptionalSpace) (segment : Segment),
      p (before.text ++ (segment.text ++ after.text)) = q segment) :
  (splitAuthenticationChallenges s).any p = segments.any q
  := by
  unfold splitAuthenticationChallenges
  induction h with
  | last before after segment =>
    have hclosed := before.closed.append (segment.closed.append after.closed)
    have hsplit := splitChallenges_closed hclosed [] []
    rw [append_nil, nil_append] at hsplit
    rw [hsplit, splitChallenges, any_cons, any_cons, hsegment]
    rfl
  | @cons before after segment s segments h ih =>
    have hclosed := before.closed.append (segment.closed.append after.closed)
    have hsplit := splitChallenges_closed hclosed [] (0x2C :: s)
    rw [nil_append, append_assoc, append_assoc] at hsplit
    rw [hsplit, splitChallenges_comma, any_cons, any_cons, hsegment, ih]

/-! ### First words -/

theorem decode_token_append {name : GoString} (hname : ∀ b ∈ name, validHeaderFieldByte b = true)
    (rest : GoString) :
  decode (name ++ rest) = name.map UInt8.toNat ++ decode rest
  := by
  induction name with
  | nil => rfl
  | cons b name ih =>
    rw [forall_mem_cons] at hname
    rw [cons_append, decode_cons_ascii (validHeaderFieldByte_spec hname.1).1, ih hname.2]
    rfl

theorem isSpaceRune_token {b : UInt8} (h : validHeaderFieldByte b = true) :
  isSpaceRune b.toNat = false
  := by
  revert h
  refine forall_byte (P := fun b => validHeaderFieldByte b = true → isSpaceRune b.toNat = false) ?_ b
  decide +kernel

/-- A text that begins with a token is trimmed behind it only. -/
theorem trimSpace_token (name : Token) (rest : GoString) :
  trimSpace (name.text ++ rest) = name.text ++ trimRight rest
  := by
  obtain ⟨b, text, heq⟩ := exists_cons_of_ne_nil name.ne_nil
  have hfirst := validHeaderFieldByte_spec (name.bytes b (by rw [heq]; exact mem_cons_self))
  have hleft : trimLeft (name.text ++ rest) = name.text ++ rest := by
    rw [heq, cons_append]
    exact trimLeft_cons_ascii hfirst.1 hfirst.2.1 (text ++ rest)
  have hlast := validHeaderFieldByte_spec (name.bytes _ (getLast_mem name.ne_nil))
  rw [trimSpace, hleft]
  conv_lhs => rw [← dropLast_append_getLast name.ne_nil, append_assoc, singleton_append,
    trimRight_append_ascii hlast.1 hlast.2.1]
  conv_rhs => rw [← dropLast_append_getLast name.ne_nil, append_assoc, singleton_append]

/-- The first word of a text that begins with a token. -/
theorem firstField_token (name : Token) (rest : GoString) :
  firstField (trimSpace (name.text ++ rest)) =
    name.text.map UInt8.toNat ++ (decode (trimRight rest)).takeWhile (fun r => !isSpaceRune r)
  := by
  have hspace : ∀ r ∈ name.text.map UInt8.toNat, isSpaceRune r = false := by
    rw [forall_mem_map]
    intro b hb
    exact isSpaceRune_token (name.bytes b hb)
  obtain ⟨b, text, heq⟩ := exists_cons_of_ne_nil name.ne_nil
  rw [trimSpace_token, firstField, decode_token_append name.bytes]
  have hdrop : (name.text.map UInt8.toNat ++ decode (trimRight rest)).dropWhile isSpaceRune =
      name.text.map UInt8.toNat ++ decode (trimRight rest) := by
    rw [heq] at hspace ⊢
    simp [hspace b.toNat (by simp)]
  rw [hdrop, takeWhile_append_of_pos]
  intro r hr
  rw [hspace r hr]
  rfl

/-- Nothing is added to a token by what begins with space. -/
theorem takeWhile_trimRight_space {rest : GoString} (h : ∀ b ∈ rest.head?, b = 0x20 ∨ b = 0x09) :
  (decode (trimRight rest)).takeWhile (fun r => !isSpaceRune r) = []
  := by
  obtain ⟨v, hv, -⟩ := trimRight_spec rest
  generalize trimRight rest = s at hv
  subst hv
  cases s with
  | nil => rfl
  | cons b s =>
    obtain rfl | rfl := h b rfl
    · rw [decode_cons_ascii (by decide)]
      rfl
    · rw [decode_cons_ascii (by decide)]
      rfl

/-! ### The scheme -/

def signatureScheme : GoString := lit "Signature"

theorem foldsTo_token {b c : UInt8} (hb : validHeaderFieldByte b = true) (hc : c ∈ signatureScheme) :
  foldsTo b.toNat c = true ↔ lowerByte b = lowerByte c
  := by
  have hall : ∀ c ∈ signatureScheme, ∀ n : Fin 256, validHeaderFieldByte (UInt8.ofNat n) = true →
      (foldsTo (UInt8.ofNat n).toNat c = true ↔ lowerByte (UInt8.ofNat n) = lowerByte c) := by
    decide +kernel
  exact forall_byte (P := fun b => validHeaderFieldByte b = true →
    (foldsTo b.toNat c = true ↔ lowerByte b = lowerByte c)) (hall c hc) b hb

theorem equalFold_token {name : GoString} (hname : ∀ b ∈ name, validHeaderFieldByte b = true)
    {word : GoString} (hword : ∀ c ∈ word, c ∈ signatureScheme) :
  equalFold (name.map UInt8.toNat) word = true ↔ name.map lowerByte = word.map lowerByte
  := by
  induction name generalizing word with
  | nil =>
    cases word with
    | nil | cons => simp [equalFold]
  | cons b name ih =>
    cases word with
    | nil => simp [equalFold]
    | cons c word =>
      rw [forall_mem_cons] at hname hword
      rw [map_cons, equalFold, Bool.and_eq_true, ih hname.2 hword.2,
        foldsTo_token hname.1 hword.1, map_cons, map_cons, List.cons.injEq]

theorem foldsTo_of_equalFold {rs : List ℕ} {word : GoString} (h : equalFold rs word = true) :
  ∀ r ∈ rs, ∃ c ∈ word, foldsTo r c = true
  := by
  induction rs generalizing word with
  | nil => simp
  | cons r rs ih =>
    cases word with
    | nil => cases h
    | cons c word =>
      rw [equalFold, Bool.and_eq_true] at h
      rw [forall_mem_cons]
      refine ⟨⟨c, mem_cons_self, h.1⟩, ?_⟩
      intro r' hr'
      obtain ⟨c', hc', hfolds⟩ := ih h.2 r' hr'
      exact ⟨c', mem_cons_of_mem c hc', hfolds⟩

/-- The first word of a segment is the scheme. -/
def isSignatureSegment : Segment → Bool
  | .empty => false
  | .challenge c => c.scheme.isWord signatureScheme
  | .param p => p.name.isWord signatureScheme && p.before.text != []

/-- A token before a space or the end. -/
theorem isSignatureChallenge_token (name : Token) {rest : GoString}
    (hrest : ∀ b ∈ rest.head?, b = 0x20 ∨ b = 0x09) :
  isSignatureChallenge (name.text ++ rest) = name.isWord signatureScheme
  := by
  have hfold : equalFold (name.text.map UInt8.toNat) signatureScheme = true ↔ _ :=
    equalFold_token name.bytes (fun _ => id)
  rw [Bool.eq_iff_iff, isSignatureChallenge, firstField_token, takeWhile_trimRight_space hrest,
    append_nil, Token.isWord, beq_iff_eq]
  exact hfold

/-- A token before an equals sign. -/
theorem isSignatureChallenge_equals (name : Token) (rest : GoString) :
  isSignatureChallenge (name.text ++ (0x3D :: rest)) = false
  := by
  have htrim := trimRight_append_ascii (c := 0x3D) (by decide) (by decide) [] rest
  rw [nil_append, nil_append] at htrim
  rw [isSignatureChallenge, firstField_token, htrim, decode_cons_ascii (by decide),
    takeWhile_cons_of_pos (by decide)]
  by_contra hfold
  rw [Bool.not_eq_false] at hfold
  obtain ⟨c, hc, hfolds⟩ := foldsTo_of_equalFold hfold 0x3D (by simp)
  have hnone : ∀ c ∈ lit "Signature", foldsTo 0x3D c = false := by decide +kernel
  rw [hnone c hc] at hfolds
  cases hfolds

theorem isSignatureChallenge_segment (before after : OptionalSpace) (segment : Segment) :
  isSignatureChallenge (before.text ++ (segment.text ++ after.text)) = isSignatureSegment segment
  := by
  have htrim : isSignatureChallenge (before.text ++ (segment.text ++ after.text)) =
      isSignatureChallenge segment.text := by
    unfold isSignatureChallenge
    rw [← append_assoc, trimSpace_append_blank before.blank after.blank]
  rw [htrim]
  cases segment with
  | empty => rfl
  | challenge c =>
    apply isSignatureChallenge_token
    cases c.data with
    | none => simp [ChallengeData.headText]
    | token68 | params => simp [ChallengeData.headText, spacesText]
  | param p =>
    rw [Segment.text, AuthParam.text, isSignatureSegment]
    cases hbefore : p.before.text with
    | nil =>
      rw [nil_append, isSignatureChallenge_equals]
      simp
    | cons b space =>
      rw [isSignatureChallenge_token]
      · simp
      · rintro b' ⟨⟩
        exact p.before.bytes b (by rw [hbefore]; exact mem_cons_self)

/-! ### Rejections -/

/-- A challenge has the scheme of legacy signatures. -/
def HasSignatureScheme (value : Challenges) : Prop :=
  ∃ c ∈ value.present, c.scheme.isWord signatureScheme = true

instance (value : Challenges) : Decidable (HasSignatureScheme value) :=
  inferInstanceAs (Decidable (∃ c ∈ value.present, c.scheme.isWord signatureScheme = true))

/-- A parameter after a comma has the name of the scheme, and space before its equals sign. -/
def HasSpacedParam (value : Challenges) : Prop :=
  ∃ c ∈ value.present, ∃ p ∈ c.laterParams,
    p.name.isWord signatureScheme = true ∧ p.before.text ≠ []

instance (value : Challenges) : Decidable (HasSpacedParam value) :=
  inferInstanceAs (Decidable (∃ c ∈ value.present, ∃ p ∈ c.laterParams,
    p.name.isWord signatureScheme = true ∧ p.before.text ≠ []))

theorem isSignatureSegment_param (p : Option AuthParam) :
  isSignatureSegment (paramSegment p) = true ↔
    ∃ param ∈ p, param.name.isWord signatureScheme = true ∧ param.before.text ≠ []
  := by
  cases p with
  | none | some => simp [paramSegment, isSignatureSegment]

theorem any_challengeSegments (c : Option Challenge) :
  (challengeSegments c).any isSignatureSegment = true ↔
    ∃ challenge ∈ c, challenge.scheme.isWord signatureScheme = true ∨
      ∃ p ∈ challenge.laterParams, p.name.isWord signatureScheme = true ∧ p.before.text ≠ []
  := by
  cases c with
  | none => simp [challengeSegments, isSignatureSegment]
  | some c =>
    rw [challengeSegments, any_cons, Bool.or_eq_true, any_map, any_eq_true]
    have hhead : isSignatureSegment (.challenge c) = c.scheme.isWord signatureScheme := rfl
    simp only [Function.comp_apply, isSignatureSegment_param, hhead, Option.mem_def,
      Option.some.injEq, exists_eq_left', Challenge.laterParams, mem_filterMap]
    constructor
    · rintro (hscheme | ⟨other, hother, p, hp, hparam⟩)
      · exact .inl hscheme
      · exact .inr ⟨p, ⟨other, hother, hp⟩, hparam⟩
    · rintro (hscheme | ⟨p, ⟨other, hother, hp⟩, hparam⟩)
      · exact .inl hscheme
      · exact .inr ⟨other, hother, p, hp, hparam⟩

theorem any_segments (value : Challenges) :
  value.segments.any isSignatureSegment = true ↔ HasSignatureScheme value ∨ HasSpacedParam value
  := by
  have hpresent : value.segments.any isSignatureSegment = true ↔
      ∃ c ∈ value.present, c.scheme.isWord signatureScheme = true ∨
        ∃ p ∈ c.laterParams, p.name.isWord signatureScheme = true ∧ p.before.text ≠ [] := by
    rw [Elements.segments, any_append, Bool.or_eq_true, any_challengeSegments,
      any_flatMap, any_eq_true]
    simp only [any_challengeSegments, Elements.present, mem_append, Option.mem_toList,
      mem_filterMap]
    constructor
    · rintro (⟨c, hc, hscheme⟩ | ⟨other, hother, c, hc, hscheme⟩)
      · exact ⟨c, .inl hc, hscheme⟩
      · exact ⟨c, .inr ⟨other, hother, hc⟩, hscheme⟩
    · rintro ⟨c, hc | ⟨other, hother, hc⟩, hscheme⟩
      · exact .inl ⟨c, hc, hscheme⟩
      · exact .inr ⟨other, hother, c, hc, hscheme⟩
  rw [hpresent, HasSignatureScheme, HasSpacedParam]
  constructor
  · rintro ⟨c, hc, hscheme | hparam⟩
    · exact .inl ⟨c, hc, hscheme⟩
    · exact .inr ⟨c, hc, hparam⟩
  · rintro (⟨c, hc, hscheme⟩ | ⟨c, hc, hparam⟩)
    · exact ⟨c, hc, .inl hscheme⟩
    · exact ⟨c, hc, .inr hparam⟩

section Rejected

variable {statusCode : ℤ} {header : Header} {values : List Challenges}
  (hstatus : statusCode = 401 ∨ statusCode = 403)
  (hvalues : header (lit "Www-Authenticate") = values.map (·.text Challenge.text))
include hstatus hvalues

/-- What is taken for a rejection. -/
theorem rejection_iff_scheme_or_param :
  explicitLegacySignatureRejection statusCode header = true ↔
    ∃ value ∈ values, HasSignatureScheme value ∨ HasSpacedParam value
  := by
  have hstatus : (statusCode = 401 || statusCode = 403 : Bool) = true := by simpa using hstatus
  rw [explicitLegacySignatureRejection, hstatus, Bool.true_and, hvalues, any_map,
    any_eq_true]
  refine exists_congr (fun value => and_congr_right (fun _ => ?_))
  rw [← any_segments, Function.comp_apply,
    any_splitAuthenticationChallenges (segmented_challenges value) isSignatureChallenge_segment]

/-- **Rejections of legacy signatures.** They are exactly those with a challenge of the scheme, if
there is such a challenge or no parameter that is taken for one. -/
theorem explicitLegacySignatureRejection_iff :
  (explicitLegacySignatureRejection statusCode header = true ↔
      ∃ value ∈ values, HasSignatureScheme value) ↔
    (∃ value ∈ values, HasSignatureScheme value) ∨ ¬ ∃ value ∈ values, HasSpacedParam value
  := by
  have hboth : (∃ value ∈ values, HasSignatureScheme value ∨ HasSpacedParam value) ↔
      (∃ value ∈ values, HasSignatureScheme value) ∨ ∃ value ∈ values, HasSpacedParam value := by
    simp only [and_or_left, exists_or]
  rw [rejection_iff_scheme_or_param hstatus hvalues, hboth, or_iff_left_iff_imp, imp_iff_or_not]

end Rejected

/-! ### A parameter that is taken for a challenge -/

theorem bytes_digest :
  ∀ b ∈ lit "Digest", validHeaderFieldByte b = true
  := by decide +kernel

theorem bytes_realm :
  ∀ b ∈ lit "realm", validHeaderFieldByte b = true
  := by decide +kernel

theorem bytes_signature :
  ∀ b ∈ lit "signature", validHeaderFieldByte b = true
  := by decide +kernel

theorem bytes_space :
  ∀ b ∈ lit " ", b = 0x20 ∨ b = 0x09
  := by decide +kernel

def oneSpace : OptionalSpace := ⟨lit " ", bytes_space⟩

def quotedLetter : ParamValue := .quoted [.text 0x61 rfl]

def realmParam : AuthParam where
  name := ⟨lit "realm", cons_ne_nil _ _, bytes_realm⟩
  before := .none
  after := .none
  value := quotedLetter

def signatureParam (before : OptionalSpace) : AuthParam where
  name := ⟨lit "signature", cons_ne_nil _ _, bytes_signature⟩
  before := before
  after := before
  value := quotedLetter

/-- A challenge of another scheme with two parameters. -/
def digestChallenges (before : OptionalSpace) : Challenges where
  first := some {
    scheme := ⟨lit "Digest", cons_ne_nil _ _, bytes_digest⟩
    data := .params 0 ⟨some realmParam, [(.none, oneSpace, some (signatureParam before))]⟩ }
  others := []

def challengeHeader (value : GoString) : Header :=
  fun name => if name = lit "Www-Authenticate" then [value] else []

/-- There is no challenge of the scheme, but a parameter is taken for one. -/
theorem rejection_of_parameter :
  (digestChallenges oneSpace).text Challenge.text =
      lit "Digest realm=\"a\", signature = \"a\"" ∧
    ¬ HasSignatureScheme (digestChallenges oneSpace) ∧
    explicitLegacySignatureRejection 401
      (challengeHeader ((digestChallenges oneSpace).text Challenge.text)) = true
  := by
  refine ⟨by decide, by decide, by decide +kernel⟩

/-- Without the space there is no rejection. -/
theorem rejection_iff_digest :
  explicitLegacySignatureRejection 401
      (challengeHeader ((digestChallenges .none).text Challenge.text)) = true ↔
    ∃ value ∈ [digestChallenges .none], HasSignatureScheme value
  := by
  have hspaced : ¬ ∃ value ∈ [digestChallenges .none], HasSpacedParam value := by decide
  exact (explicitLegacySignatureRejection_iff (.inl rfl) rfl).mpr (.inr hspaced)

end HttpSignature
