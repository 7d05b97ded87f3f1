import ActivityRelay.GoJson.Tokens

/-!
# The texts of a value

`IsText s v` says that `s` is a JSON text with the value `v`: its tokens are those of the grammar,
with no bound on how deeply arrays and objects are nested. The texts that Go accepts as valid are
the ones that are not nested too deeply (`parseText_eq_some_iff`).

A value has a text if each of its tokens can be read from some text (`exists_isText_iff`).
-/

namespace GoJson

open GoString List Option

/-- The text has the value. -/
def IsText (s : GoString) (v : Json) : Prop := lexFrom .between s = some (spelling v)

/-! ### The tokens that have been read -/

theorem elementSpelling_append (elements : List Json) (v : Json) :
  elementSpelling (elements ++ [v]) = elementSpelling elements ++ .comma :: spelling v
  := by
  induction elements with
  | nil => simp [elementSpelling]
  | cons w elements ih => simp [elementSpelling, ih]

variable (members : List (GoString × Json))

theorem memberSpelling_append (key : GoString) (v : Json) :
  memberSpelling (members ++ [(key, v)]) =
    memberSpelling members ++ .comma :: .string key :: .colon :: spelling v
  := by
  induction members with
  | nil => simp [memberSpelling]
  | cons m members ih => simp [memberSpelling, ih]

/-- The tokens of an open array or object, up to the end of the last value that is complete. -/
def begun : Frame → List Token
  | .array [] => [.openBracket]
  | .array (v :: elements) => .openBracket :: (spelling v ++ elementSpelling elements)
  | .object [] _ => [.openBrace]
  | .object ((key, v) :: members) _ =>
      .openBrace :: .string key :: .colon :: (spelling v ++ memberSpelling members)

/-- There is no complete value yet. -/
def Frame.Fresh : Frame → Prop
  | .array elements => elements = []
  | .object members _ => members = []

/-- What stands before the next element or member. -/
def separator : Frame → List Token
  | .array [] | .object [] _ => []
  | .array _ | .object _ _ => [.comma]

/-- The tokens of an open array or object, up to a value that is read. -/
def opened : Frame → List Token
  | .array elements => begun (.array elements) ++ separator (.array elements)
  | .object members key =>
      begun (.object members key) ++ separator (.object members key) ++ [.string key, .colon]

def openedStack : List Frame → List Token
  | [] => []
  | frame :: stack => openedStack stack ++ opened frame

/-- The tokens that have been read. -/
def readSpelling : Mode → List Frame → List Token
  | .done v, _ => spelling v
  | .value, stack => openedStack stack
  | .firstElement, frame :: stack => openedStack stack ++ begun frame
  | .firstKey, frame :: stack => openedStack stack ++ begun frame
  | .after, frame :: stack => openedStack stack ++ begun frame
  | .key, frame :: stack => openedStack stack ++ (begun frame ++ separator frame)
  | .colon, .object members key :: stack =>
      openedStack stack ++
        (begun (.object members key) ++ separator (.object members key) ++ [.string key])
  | _, _ => []

/-- Commas stand between values only: the modes agree with what the innermost array or object has
so far. -/
def Separated : Mode → List Frame → Prop
  | .firstElement, stack => ∃ below, stack = .array [] :: below
  | .firstKey, frame :: _ => frame.Fresh
  | .after, frame :: _ => ¬ frame.Fresh
  | .key, frame :: _ => ¬ frame.Fresh
  | .colon, stack => ∃ members key below, stack = .object members key :: below
  | _, _ => True

theorem separator_of_not_fresh {frame : Frame} (h : ¬ frame.Fresh) :
  separator frame = [.comma]
  := by
  match frame, h with
  | .array [], h => exact absurd rfl h
  | .array (_ :: _), _ => rfl
  | .object [] _, h => exact absurd rfl h
  | .object (_ :: _) _, _ => rfl

theorem spelling_array (elements : List Json) :
  spelling (.array elements) = begun (.array elements) ++ [.closeBracket]
  := by
  cases elements <;> simp [spelling, begun]

theorem spelling_object (key : GoString) :
  spelling (.object members) = begun (.object members key) ++ [.closeBrace]
  := by
  cases members <;> simp [spelling, begun]

theorem begun_object (key last : GoString) :
  begun (.object members key) = begun (.object members last)
  := by
  cases members <;> rfl

theorem separator_object (key last : GoString) :
  separator (.object members key) = separator (.object members last)
  := by
  cases members <;> rfl

theorem begun_array_append (elements : List Json) (v : Json) :
  begun (.array (elements ++ [v])) = opened (.array elements) ++ spelling v
  := by
  cases elements with
  | nil => simp [begun, opened, separator, elementSpelling]
  | cons w elements => simp [begun, opened, separator, elementSpelling_append]

theorem begun_object_append (key last : GoString) (v : Json) :
  begun (.object (members ++ [(key, v)]) last) = opened (.object members key) ++ spelling v
  := by
  cases members with
  | nil => simp [begun, opened, separator, memberSpelling]
  | cons m members => simp [begun, opened, separator, memberSpelling_append]

/-- A value that is complete. -/
theorem readSpelling_complete (v : Json) (stack : List Frame) :
  readSpelling (complete v stack).1 (complete v stack).2 = openedStack stack ++ spelling v
  := by
  match stack with
  | [] => rfl
  | .array elements :: stack =>
    simp only [complete, readSpelling, openedStack, begun_array_append, append_assoc]
  | .object members key :: stack =>
    simp only [complete, readSpelling, openedStack, begun_object_append, append_assoc]

theorem separated_complete (v : Json) (stack : List Frame) :
  Separated (complete v stack).1 (complete v stack).2
  := by
  match stack with
  | [] => trivial
  | .array elements :: stack => exact append_ne_nil_of_right_ne_nil _ (cons_ne_nil _ _)
  | .object members key :: stack =>
    exact append_ne_nil_of_right_ne_nil _ (cons_ne_nil _ _)

/-- The tokens `ts` have been read. -/
structure Reading (mode : Mode) (stack : List Frame) (ts : List Token) : Prop where
  separated : Separated mode stack
  eq_spelling : ts = readSpelling mode stack

theorem Reading.complete {v : Json} {stack : List Frame} {ts : List Token}
    (h : ts = openedStack stack ++ spelling v) :
  Reading (complete v stack).1 (complete v stack).2 ts
  := ⟨separated_complete v stack, h.trans (readSpelling_complete v stack).symm⟩

variable {ts : List Token} {stack : List Frame} {next : Mode × List Frame} {t : Token} {v : Json}
  {state : LexState} {b : UInt8}

theorem Reading.beginValue (hts : ts = openedStack stack) (h : beginValue t stack = some next) :
  Reading next.1 next.2 (ts ++ [t])
  := by
  subst hts
  cases t with
  | openBrace | openBracket =>
    simp only [GoJson.beginValue, ite_none_left_eq_some, Option.some.injEq] at h
    obtain ⟨-, rfl⟩ := h
    refine ⟨?_, rfl⟩
    simp [Separated, Frame.Fresh]
  | closeBrace | closeBracket | colon | comma => cases h
  | null | bool b | number raw | string s =>
    cases h
    exact Reading.complete rfl

/-- One token. -/
theorem Reading.parseStep {mode : Mode} (hreading : Reading mode stack ts)
    (h : parseStep mode stack t = some next) :
  Reading next.1 next.2 (ts ++ [t])
  := by
  obtain ⟨hseparated, rfl⟩ := hreading
  unfold GoJson.parseStep at h
  split at h
  case h_12 => cases h
  case h_3 => exact Reading.beginValue rfl h
  case h_2 =>
    obtain ⟨below, rfl⟩ := hseparated
    exact Reading.beginValue rfl h
  case h_1 | h_9 =>
    cases h
    apply Reading.complete
    rw [spelling_array, ← append_assoc]
    rfl
  case h_4 | h_11 =>
    cases h
    apply Reading.complete
    rw [spelling_object, ← append_assoc]
    rfl
  case h_5 members last below key =>
    cases h
    have hmembers : members = [] := hseparated
    subst hmembers
    refine ⟨⟨_, _, _, rfl⟩, ?_⟩
    simp [readSpelling, begun, separator]
  case h_6 members last below key =>
    cases h
    refine ⟨⟨_, _, _, rfl⟩, ?_⟩
    rw [readSpelling, readSpelling, begun_object members last key, separator_object members last key,
      append_assoc]
  case h_7 =>
    cases h
    obtain ⟨members, key, below, rfl⟩ := hseparated
    refine ⟨trivial, ?_⟩
    simp [readSpelling, openedStack, opened]
  case h_8 elements below =>
    cases h
    refine ⟨trivial, ?_⟩
    rw [readSpelling, readSpelling, openedStack, opened, separator_of_not_fresh hseparated,
      append_assoc]
  case h_10 members key below =>
    cases h
    refine ⟨hseparated, ?_⟩
    rw [readSpelling, readSpelling, separator_of_not_fresh hseparated, append_assoc]

/-- Whatever the tokens are that a value is read from: they are those of the grammar. -/
theorem Reading.parseFrom {mode : Mode} {rest : List Token} (hreading : Reading mode stack ts)
    (h : parseFrom mode stack rest = some v) :
  ts ++ rest = spelling v
  := by
  induction rest generalizing mode stack ts with
  | nil =>
    cases mode with
    | done w =>
      cases h
      rw [append_nil]
      exact hreading.eq_spelling
    | _ => cases h
  | cons t rest ih =>
    obtain ⟨next, hnext, hrest⟩ := parseFrom_cons h
    rw [← ih (hreading.parseStep hnext) hrest, append_assoc]
    rfl

theorem spelling_of_parse (h : parseFrom .value [] ts = some v) :
  ts = spelling v
  := by
  have hstart : Reading .value [] [] := ⟨trivial, rfl⟩
  exact hstart.parseFrom h

/-- A text is valid for Go if it is a JSON text that is not nested too deeply. -/
theorem parseText_eq_some_iff {s : GoString} :
  parseText s = some v ↔ IsText s v ∧ depth v ≤ maxNestingDepth
  := by
  constructor
  · intro h
    obtain ⟨ts, hlex, hparse⟩ := bind_eq_some_iff.mp h
    rw [spelling_of_parse hparse] at hlex
    exact ⟨hlex, depth_of_parse hparse⟩
  · rintro ⟨htext, hdepth⟩
    rw [IsText] at htext
    rw [parseText, htext, bind_some, parseFrom_spelling hdepth]

/-! ### Tokens without punctuation -/

theorem withoutPunctuation_append (ts ts' : List Token) :
  withoutPunctuation (ts ++ ts') = withoutPunctuation ts ++ withoutPunctuation ts'
  := filter_append ts ts'

theorem withoutPunctuation_elementSpelling {elements : List Json}
    (h : ∀ v ∈ elements, withoutPunctuation (spelling v) = tokens v) :
  withoutPunctuation (elementSpelling elements) = elementTokens elements
  := by
  induction elements with
  | nil => rfl
  | cons v elements ih =>
    rw [forall_mem_cons] at h
    calc withoutPunctuation (elementSpelling (v :: elements))
      _ = withoutPunctuation (spelling v ++ elementSpelling elements) := rfl
      _ = tokens v ++ elementTokens elements := by
            rw [withoutPunctuation_append, h.1, ih h.2]

theorem withoutPunctuation_memberSpelling {members : List (GoString × Json)}
    (h : ∀ m ∈ members, withoutPunctuation (spelling m.2) = tokens m.2) :
  withoutPunctuation (memberSpelling members) = memberTokens members
  := by
  induction members with
  | nil => rfl
  | cons m members ih =>
    obtain ⟨key, v⟩ := m
    rw [forall_mem_cons] at h
    calc withoutPunctuation (memberSpelling ((key, v) :: members))
      _ = .string key :: withoutPunctuation (spelling v ++ memberSpelling members) := rfl
      _ = .string key :: (tokens v ++ memberTokens members) := by
            rw [withoutPunctuation_append, h.1, ih h.2]

/-- Without commas and colons, the tokens of a value are those of `Decoder.Token`. -/
theorem withoutPunctuation_spelling (v : Json) :
  withoutPunctuation (spelling v) = tokens v
  := by
  induction v using Json.induct with
  | null | bool b | number raw | string s => rfl
  | array elements ih =>
    -- the first element has no comma before it, and the comma is dropped from the others
    have helements := withoutPunctuation_elementSpelling ih
    rw [spelling_array, withoutPunctuation_append, tokens, ← helements]
    cases elements <;> rfl
  | object members ih =>
    have hmembers := withoutPunctuation_memberSpelling ih
    rw [spelling_object members [], withoutPunctuation_append, tokens, ← hmembers]
    cases members <;> rfl

/-! ### Texts of tokens -/

theorem lexFrom_cons (state : LexState) (b : UInt8) (s : GoString) :
  lexFrom state (b :: s) =
    (lexStep state b).bind (fun next => (lexFrom next.2 s).map (next.1 ++ ·))
  := by
  cases state <;> rfl

/-- Some text is read as the token, whatever comes after it. -/
def Readable (t : Token) : Prop :=
  ∃ text, ∀ rest, lexFrom .between (text ++ rest) = (lexFrom .between rest).map (t :: ·)

/-- The state is reached with some text. -/
def Reached (state : LexState) : Prop :=
  ∃ text, ∀ rest, lexFrom .between (text ++ rest) = lexFrom state rest

theorem reached_between :
  Reached .between
  := ⟨[], fun _ => rfl⟩

/-- A byte that ends no token. -/
theorem Reached.step {state' : LexState} (h : Reached state)
    (hstep : lexStep state b = some ([], state')) :
  Reached state'
  := by
  obtain ⟨text, htext⟩ := h
  refine ⟨text ++ [b], ?_⟩
  intro rest
  rw [append_assoc, htext, singleton_append, lexFrom_cons, hstep, bind_some]
  exact map_id'

/-- A byte that ends a token. -/
theorem Reached.readable (h : Reached state) (hstep : lexStep state b = some ([t], .between)) :
  Readable t
  := by
  obtain ⟨text, htext⟩ := h
  refine ⟨text ++ [b], ?_⟩
  intro rest
  rw [append_assoc, htext, singleton_append, lexFrom_cons, hstep, bind_some]
  rfl

/-- A number is ended by a space. -/
theorem Reached.readable_number {raw : GoString} {number : NumberState}
    (h : Reached (.inNumber raw number)) (hfinal : number.final = true) :
  Readable (.number raw)
  := by
  have hstep : lexStep (.inNumber raw number) 0x20 = some ([.number raw], .between) := by
    cases number with
    | zero | int | frac | expDigits => rfl
    | neg | dot | exp | expSign => cases hfinal
  exact h.readable hstep

/-- A byte ends no token, or one and nothing else is begun. -/
def EndsOne (next : List Token × LexState) : Prop := next.1 = [] ∨ ∃ t, next = ([t], .between)

variable {next : List Token × LexState}

theorem lexBetween_endsOne (h : lexBetween b = some next) :
  EndsOne next
  := by
  unfold lexBetween at h
  by_cases hspace : isSpace b = true
  · rw [if_pos hspace] at h
    cases h
    exact .inl rfl
  rw [if_neg hspace] at h
  split at h
  case h_13 =>
    split_ifs at h
    cases h
    exact .inl rfl
  all_goals
    cases h
    simp [EndsOne]

/-- Only after a number, a byte may belong to the next token. -/
theorem lexStep_cases (h : lexStep state b = some next) :
  EndsOne next ∨
    ∃ raw number after, state = .inNumber raw number ∧ number.final = true ∧
      lexBetween b = some after ∧ next = (.number raw :: after.1, after.2)
  := by
  cases state with
  | between => exact .inl (lexBetween_endsOne h)
  | inString ps =>
    rw [lexStep] at h
    split_ifs at h
    all_goals
      cases h
      simp [EndsOne]
  | inEscape ps =>
    rw [lexStep] at h
    split_ifs at h
    · cases h
      exact .inl (.inl rfl)
    · obtain ⟨c, -, rfl⟩ := map_eq_some_iff.mp h
      exact .inl (.inl rfl)
  | inHex ps digits value =>
    obtain ⟨x, -, rfl⟩ := map_eq_some_iff.mp h
    split_ifs
    all_goals exact .inl (.inl rfl)
  | inNumber raw number =>
    rw [lexStep] at h
    split at h
    · cases h
      exact .inl (.inl rfl)
    · split_ifs at h with hfinal
      obtain ⟨after, hbetween, rfl⟩ := map_eq_some_iff.mp h
      exact .inr ⟨raw, number, after, rfl, hfinal, hbetween, rfl⟩
  | inLiteral token rest =>
    unfold GoJson.lexStep at h
    dsimp only at h
    split at h
    · cases h
    · split_ifs at h
      cases h
      exact .inl (.inr ⟨_, rfl⟩)
    · split_ifs at h
      cases h
      exact .inl (.inl rfl)

theorem Reached.endsOne (h : Reached state) (hstep : lexStep state b = some next)
    (hone : EndsOne next) :
  (∀ t ∈ next.1, Readable t) ∧ Reached next.2
  := by
  obtain ⟨ts, state'⟩ := next
  rcases hone with hnone | ⟨t, hone⟩
  · subst hnone
    exact ⟨by simp, h.step hstep⟩
  · cases hone
    exact ⟨forall_mem_singleton.mpr (h.readable hstep), reached_between⟩

theorem Reached.lexStep (h : Reached state) (hstep : lexStep state b = some next) :
  (∀ t ∈ next.1, Readable t) ∧ Reached next.2
  := by
  rcases lexStep_cases hstep with hone | ⟨raw, number, after, rfl, hfinal, hbetween, rfl⟩
  · exact h.endsOne hstep hone
  · obtain ⟨htokens, hafter⟩ := reached_between.endsOne hbetween (lexBetween_endsOne hbetween)
    exact ⟨forall_mem_cons.mpr ⟨h.readable_number hfinal, htokens⟩, hafter⟩

/-- The tokens of a text are readable. -/
theorem Reached.lexFrom {s : GoString} (h : Reached state) (hlex : lexFrom state s = some ts) :
  ∀ t ∈ ts, Readable t
  := by
  induction s generalizing state ts with
  | nil =>
    cases state with
    | between =>
      cases hlex
      simp
    | inNumber raw number =>
      rw [GoJson.lexFrom] at hlex
      split_ifs at hlex with hfinal
      cases hlex
      exact forall_mem_singleton.mpr (h.readable_number hfinal)
    | _ => cases hlex
  | cons b s ih =>
    rw [lexFrom_cons] at hlex
    obtain ⟨next, hnext, hlex⟩ := bind_eq_some_iff.mp hlex
    obtain ⟨rest, hrest, rfl⟩ := map_eq_some_iff.mp hlex
    obtain ⟨htokens, hstate⟩ := h.lexStep hnext
    exact forall_mem_append.mpr ⟨htokens, ih hstate hrest⟩

/-- Readable tokens have a text. -/
theorem exists_text (h : ∀ t ∈ ts, Readable t) :
  ∃ s, lexFrom .between s = some ts
  := by
  induction ts with
  | nil => exact ⟨[], rfl⟩
  | cons t ts ih =>
    rw [forall_mem_cons] at h
    obtain ⟨⟨text, htext⟩, h⟩ := h
    obtain ⟨s, hs⟩ := ih h
    refine ⟨text ++ s, ?_⟩
    rw [htext, hs]
    rfl

/-- A value has a text if its tokens are readable. -/
theorem exists_isText_iff :
  (∃ s, IsText s v) ↔ ∀ t ∈ tokens v, Readable t
  := by
  constructor
  · rintro ⟨s, hs⟩ t ht
    rw [← withoutPunctuation_spelling] at ht
    exact reached_between.lexFrom hs t (mem_filter.mp ht).1
  · intro h
    apply exists_text
    intro t ht
    cases hpunctuation : t.punctuation with
    | false =>
      apply h
      rw [← withoutPunctuation_spelling]
      exact mem_filter.mpr ⟨ht, by rw [hpunctuation]; rfl⟩
    | true =>
      cases t with
      | comma => exact ⟨[0x2C], fun _ => rfl⟩
      | colon => exact ⟨[0x3A], fun _ => rfl⟩
      | _ => cases hpunctuation

end GoJson
