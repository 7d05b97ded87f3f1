import ActivityRelay.GoJson.Value

/-!
# The tokens of a value

`tokens v` are the tokens that Go's `Decoder.Token` gives for a text with the value `v`, without
commas and colons. With commas and colons they are `spelling v`, and a value that is not nested too
deeply is read back from its spelling (`parseFrom_spelling`).
-/

namespace GoJson

open GoString List

/-- What holds for a value if it holds for its parts holds for all values. -/
theorem Json.induct {P : Json → Prop} (null : P .null) (bool : ∀ b, P (.bool b))
    (number : ∀ raw, P (.number raw)) (string : ∀ s, P (.string s))
    (array : ∀ elements, (∀ v ∈ elements, P v) → P (.array elements))
    (object : ∀ members, (∀ m ∈ members, P m.2) → P (.object members)) (v : Json) :
  P v
  := by
  refine @Json.rec P (fun elements => ∀ v ∈ elements, P v) (fun members => ∀ m ∈ members, P m.2)
    (fun m => P m.2) null bool number string array object ?nil ?cons ?noMember ?member ?pair v
  case nil => simp
  case cons =>
    intro v elements hv ih
    exact forall_mem_cons.mpr ⟨hv, ih⟩
  case noMember => simp
  case member =>
    intro m members hm ih
    exact forall_mem_cons.mpr ⟨hm, ih⟩
  case pair =>
    intro key v hv
    exact hv

theorem parseFrom_eq_bind (mode : Mode) (stack : List Frame) (t : Token) (ts : List Token) :
  parseFrom mode stack (t :: ts) =
    (parseStep mode stack t).bind (fun next => parseFrom next.1 next.2 ts)
  := by
  cases mode <;> rfl

variable {stack : List Frame} {t : Token} {v : Json} {ts : List Token} {mode : Mode}
  {elements : List Json} {members : List (GoString × Json)}

theorem parseFrom_cons (h : parseFrom mode stack (t :: ts) = some v) :
  ∃ next, parseStep mode stack t = some next ∧ parseFrom next.1 next.2 ts = some v
  := by
  rw [parseFrom_eq_bind] at h
  exact Option.bind_eq_some_iff.mp h

/-! ### Tokens without punctuation -/

mutual

/-- The tokens of a value, without commas and colons. -/
def tokens : Json → List Token
  | .null => [.null]
  | .bool b => [.bool b]
  | .number raw => [.number raw]
  | .string s => [.string s]
  | .array elements => .openBracket :: (elementTokens elements ++ [.closeBracket])
  | .object members => .openBrace :: (memberTokens members ++ [.closeBrace])

def elementTokens : List Json → List Token
  | [] => []
  | v :: elements => tokens v ++ elementTokens elements

def memberTokens : List (GoString × Json) → List Token
  | [] => []
  | (key, v) :: members => .string key :: (tokens v ++ memberTokens members)

end

/-- A comma or a colon. -/
def Token.punctuation : Token → Bool
  | .comma | .colon => true
  | _ => false

/-- The tokens without commas and colons. -/
def withoutPunctuation (ts : List Token) : List Token := ts.filter (fun t => !t.punctuation)

theorem mem_elementTokens :
  t ∈ elementTokens elements ↔ ∃ v ∈ elements, t ∈ tokens v
  := by
  induction elements with
  | nil => simp [elementTokens]
  | cons v elements ih => simp [elementTokens, ih]

theorem mem_memberTokens :
  t ∈ memberTokens members ↔ ∃ m ∈ members, t = .string m.1 ∨ t ∈ tokens m.2
  := by
  induction members with
  | nil => simp [memberTokens]
  | cons m members ih => simp [memberTokens, ih, or_assoc]

/-! ### Nesting -/

mutual

/-- How deeply arrays and objects are nested in a value. -/
def depth : Json → ℕ
  | .array elements => elementsDepth elements + 1
  | .object members => membersDepth members + 1
  | .null | .bool _ | .number _ | .string _ => 0

def elementsDepth : List Json → ℕ
  | [] => 0
  | v :: elements => max (depth v) (elementsDepth elements)

def membersDepth : List (GoString × Json) → ℕ
  | [] => 0
  | (_, v) :: members => max (depth v) (membersDepth members)

end

theorem elementsDepth_le_iff {n : ℕ} :
  elementsDepth elements ≤ n ↔ ∀ v ∈ elements, depth v ≤ n
  := by
  induction elements with
  | nil => simp [elementsDepth]
  | cons v elements ih => simp [elementsDepth, ih]

theorem membersDepth_le_iff {n : ℕ} :
  membersDepth members ≤ n ↔ ∀ m ∈ members, depth m.2 ≤ n
  := by
  induction members with
  | nil => simp [membersDepth]
  | cons m members ih => simp [membersDepth, ih]

/-- The nesting of what a frame has so far. -/
def Frame.depth : Frame → ℕ
  | .array elements => elementsDepth elements
  | .object members _ => membersDepth members

/-- Open arrays and objects that are not nested too deeply. -/
def StackFits : List Frame → Prop
  | [] => True
  | frame :: stack =>
      StackFits stack ∧ stack.length + 1 + frame.depth ≤ maxNestingDepth

/-- A state in which nothing is nested too deeply. -/
def ModeFits : Mode → List Frame → Prop
  | .done v, _ => depth v ≤ maxNestingDepth
  | _, stack => StackFits stack

theorem modeFits_complete (hstack : StackFits stack)
    (hv : stack.length + depth v ≤ maxNestingDepth) :
  ModeFits (complete v stack).1 (complete v stack).2
  := by
  match stack, hstack with
  | [], _ =>
    rw [length_nil, Nat.zero_add] at hv
    exact hv
  | .array elements :: stack, ⟨hstack, hframe⟩ =>
    refine ⟨hstack, ?_⟩
    rw [length_cons] at hv
    have hdepth : elementsDepth (elements ++ [v]) ≤ maxNestingDepth - (stack.length + 1) := by
      rw [elementsDepth_le_iff]
      intro w hw
      rcases mem_append.mp hw with hw | hw
      · have hle := elementsDepth_le_iff.mp le_rfl w hw
        have hframe' : stack.length + 1 + elementsDepth elements ≤ maxNestingDepth := hframe
        omega
      · rw [mem_singleton.mp hw]
        omega
    change stack.length + 1 + elementsDepth (elements ++ [v]) ≤ maxNestingDepth
    omega
  | .object members key :: stack, ⟨hstack, hframe⟩ =>
    refine ⟨hstack, ?_⟩
    rw [length_cons] at hv
    have hdepth : membersDepth (members ++ [(key, v)]) ≤
        maxNestingDepth - (stack.length + 1) := by
      rw [membersDepth_le_iff]
      intro m hm
      rcases mem_append.mp hm with hm | hm
      · have hle := membersDepth_le_iff.mp le_rfl m hm
        have hframe' : stack.length + 1 + membersDepth members ≤ maxNestingDepth := hframe
        omega
      · rw [mem_singleton.mp hm]
        change depth v ≤ _
        omega
    change stack.length + 1 + membersDepth (members ++ [(key, v)]) ≤ maxNestingDepth
    omega

theorem StackFits.length_le (h : StackFits stack) :
  stack.length ≤ maxNestingDepth
  := by
  match stack, h with
  | [], _ => exact Nat.zero_le _
  | frame :: stack, ⟨_, hframe⟩ =>
    rw [length_cons]
    omega

variable {next : Mode × List Frame}

theorem modeFits_beginValue (hstack : StackFits stack) (h : beginValue t stack = some next) :
  ModeFits next.1 next.2
  := by
  have hscalar : ∀ v, depth v = 0 → ModeFits (complete v stack).1 (complete v stack).2 := by
    intro v hv
    have hlength := hstack.length_le
    exact modeFits_complete hstack (by omega)
  unfold beginValue at h
  split at h
  case h_5 | h_6 =>
    rw [Option.ite_none_left_eq_some] at h
    obtain ⟨hlength, h⟩ := h
    cases h
    refine ⟨hstack, ?_⟩
    rw [not_le] at hlength
    exact hlength
  case h_7 => cases h
  all_goals
    cases h
    exact hscalar _ rfl

theorem modeFits_parseStep (hfits : ModeFits mode stack) (h : parseStep mode stack t = some next) :
  ModeFits next.1 next.2
  := by
  unfold parseStep at h
  split at h
  case h_2 => exact modeFits_beginValue hfits h
  case h_3 => exact modeFits_beginValue hfits h
  case h_12 => cases h
  case h_1 | h_4 | h_9 | h_11 =>
    cases h
    obtain ⟨hstack, hframe⟩ := hfits
    refine modeFits_complete hstack ?_
    rw [Nat.add_right_comm, Nat.add_assoc] at hframe
    exact hframe
  all_goals
    cases h
    exact hfits

/-- Values that are read are not nested too deeply. -/
theorem depth_parseFrom (hfits : ModeFits mode stack) (h : parseFrom mode stack ts = some v) :
  depth v ≤ maxNestingDepth
  := by
  induction ts generalizing mode stack with
  | nil =>
    cases mode with
    | done w =>
      cases h
      exact hfits
    | _ => cases h
  | cons t ts ih =>
    obtain ⟨next, hnext, hrest⟩ := parseFrom_cons h
    exact ih (modeFits_parseStep hfits hnext) hrest

theorem depth_of_parse (h : parseFrom .value [] ts = some v) :
  depth v ≤ maxNestingDepth
  := by
  have hfits : ModeFits .value [] := trivial
  exact depth_parseFrom hfits h

/-! ### Tokens with punctuation -/

mutual

/-- The tokens of a value, with commas and colons. -/
def spelling : Json → List Token
  | .null => [.null]
  | .bool b => [.bool b]
  | .number raw => [.number raw]
  | .string s => [.string s]
  | .array [] => [.openBracket, .closeBracket]
  | .array (v :: elements) =>
      .openBracket :: (spelling v ++ (elementSpelling elements ++ [.closeBracket]))
  | .object [] => [.openBrace, .closeBrace]
  | .object ((key, v) :: members) =>
      .openBrace :: .string key :: .colon ::
        (spelling v ++ (memberSpelling members ++ [.closeBrace]))

/-- The elements after the first one. -/
def elementSpelling : List Json → List Token
  | [] => []
  | v :: elements => .comma :: (spelling v ++ elementSpelling elements)

/-- The members after the first one. -/
def memberSpelling : List (GoString × Json) → List Token
  | [] => []
  | (key, v) :: members =>
      .comma :: .string key :: .colon :: (spelling v ++ memberSpelling members)

end

/-- The value is read back from its spelling, at any place where it is not nested too deeply. -/
def ReadsBack (v : Json) : Prop :=
  ∀ stack ts, stack.length + depth v ≤ maxNestingDepth →
    parseFrom .value stack (spelling v ++ ts) =
      parseFrom (complete v stack).1 (complete v stack).2 ts

theorem parseFrom_elementSpelling (h : ∀ v ∈ elements, ReadsBack v) (before : List Json)
    (stack : List Frame) (ts : List Token)
    (hdepth : stack.length + 1 + elementsDepth elements ≤ maxNestingDepth) :
  parseFrom .after (.array before :: stack) (elementSpelling elements ++ .closeBracket :: ts) =
    parseFrom (complete (.array (before ++ elements)) stack).1
      (complete (.array (before ++ elements)) stack).2 ts
  := by
  induction elements generalizing before with
  | nil =>
    rw [append_nil]
    rfl
  | cons v elements ih =>
    rw [forall_mem_cons] at h
    rw [elementsDepth] at hdepth
    calc parseFrom .after (.array before :: stack)
          (elementSpelling (v :: elements) ++ .closeBracket :: ts)
      _ = parseFrom .value (.array before :: stack)
          (spelling v ++ (elementSpelling elements ++ .closeBracket :: ts)) := by
            rw [elementSpelling, cons_append, parseFrom_eq_bind, append_assoc]
            rfl
      _ = parseFrom .after (.array (before ++ [v]) :: stack)
          (elementSpelling elements ++ .closeBracket :: ts) :=
            h.1 _ _ (by rw [length_cons]; omega)
      _ = _ := by
            rw [ih h.2 _ (by omega), append_assoc]
            rfl

theorem parseFrom_memberSpelling (h : ∀ m ∈ members, ReadsBack m.2)
    (before : List (GoString × Json)) (last : GoString) (stack : List Frame) (ts : List Token)
    (hdepth : stack.length + 1 + membersDepth members ≤ maxNestingDepth) :
  parseFrom .after (.object before last :: stack) (memberSpelling members ++ .closeBrace :: ts) =
    parseFrom (complete (.object (before ++ members)) stack).1
      (complete (.object (before ++ members)) stack).2 ts
  := by
  induction members generalizing before last with
  | nil =>
    rw [append_nil]
    rfl
  | cons m members ih =>
    obtain ⟨key, v⟩ := m
    rw [forall_mem_cons] at h
    rw [membersDepth] at hdepth
    calc parseFrom .after (.object before last :: stack)
          (memberSpelling ((key, v) :: members) ++ .closeBrace :: ts)
      _ = parseFrom .value (.object before key :: stack)
          (spelling v ++ (memberSpelling members ++ .closeBrace :: ts)) := by
            rw [memberSpelling, cons_append, cons_append, cons_append,
              append_assoc]
            rfl
      _ = parseFrom .after (.object (before ++ [(key, v)]) key :: stack)
          (memberSpelling members ++ .closeBrace :: ts) :=
            h.1 _ _ (by rw [length_cons]; change _ + depth v ≤ _; omega)
      _ = _ := by
            rw [ih h.2 _ _ (by omega), append_assoc]
            rfl

/-- No spelling starts with the end of an array. -/
theorem parseFrom_firstElement (v : Json) (stack : List Frame) (ts : List Token) :
  parseFrom .firstElement (.array [] :: stack) (spelling v ++ ts) =
    parseFrom .value (.array [] :: stack) (spelling v ++ ts)
  := by
  have hhead : ∃ t rest, spelling v = t :: rest ∧ t ≠ .closeBracket := by
    cases v with
    | array elements => cases elements <;> exact ⟨_, _, rfl, by simp⟩
    | object members => cases members <;> exact ⟨_, _, rfl, by simp⟩
    | _ => exact ⟨_, _, rfl, by simp⟩
  obtain ⟨t, rest, hspelling, hne⟩ := hhead
  rw [hspelling, cons_append, parseFrom_eq_bind, parseFrom_eq_bind]
  congr 1
  cases t with
  | closeBracket => exact absurd rfl hne
  | _ => rfl

/-- Spelling a value and reading it. -/
theorem readsBack (v : Json) :
  ReadsBack v
  := by
  induction v using Json.induct with
  | null | bool b | number raw | string s =>
    intro stack ts hdepth
    rfl
  | array elements ih =>
    intro stack ts hdepth
    rw [depth] at hdepth
    have hopen : parseStep .value stack .openBracket =
        some (.firstElement, .array [] :: stack) := if_neg (by omega)
    cases elements with
    | nil =>
      rw [spelling, cons_append, parseFrom_eq_bind, hopen]
      rfl
    | cons v elements =>
      rw [forall_mem_cons] at ih
      rw [elementsDepth] at hdepth
      rw [spelling, cons_append, parseFrom_eq_bind, hopen, Option.bind_some,
        append_assoc, append_assoc, parseFrom_firstElement,
        ih.1 _ _ (by rw [length_cons]; omega)]
      exact parseFrom_elementSpelling ih.2 [v] stack ts (by omega)
  | object members ih =>
    intro stack ts hdepth
    rw [depth] at hdepth
    have hopen : parseStep .value stack .openBrace =
        some (.firstKey, .object [] [] :: stack) := if_neg (by omega)
    cases members with
    | nil =>
      rw [spelling, cons_append, parseFrom_eq_bind, hopen]
      rfl
    | cons m members =>
      obtain ⟨key, v⟩ := m
      rw [forall_mem_cons] at ih
      rw [membersDepth] at hdepth
      have hkey : ∀ ts, parseFrom .firstKey (.object [] [] :: stack)
          (.string key :: .colon :: ts) = parseFrom .value (.object [] key :: stack) ts :=
        fun _ => rfl
      rw [spelling, cons_append, parseFrom_eq_bind, hopen, Option.bind_some,
        cons_append, cons_append, append_assoc, append_assoc, hkey,
        ih.1 _ _ (by rw [length_cons]; change _ + depth v ≤ _; omega)]
      exact parseFrom_memberSpelling ih.2 [(key, v)] key stack ts (by omega)

theorem parseFrom_spelling (h : depth v ≤ maxNestingDepth) :
  parseFrom .value [] (spelling v) = some v
  := by
  have hread := readsBack v [] [] (by rwa [length_nil, Nat.zero_add])
  rw [append_nil] at hread
  rw [hread]
  rfl

end GoJson
