import ActivityRelay.Directory.Origin

/-!
# Documents of the configuration file

The configuration file is a YAML document, which is edited as a tree of nodes: the entry of a
directory is disabled or removed, and everything else stays. The parser and the printer of YAML are
given by a `Codec`; what is assumed of it is that a printed tree is read back as it was.
-/

namespace DirectoryConfig

open GoString List

/-! ### Nodes -/

inductive Kind
  | document
  | sequence
  | mapping
  | scalar
  | alias
  deriving DecidableEq, Repr

/-- `yaml.Node`, without its layout. The keys and the values of a mapping take turns in its content.
-/
inductive Node
  | mk (kind : Kind) (tag value anchor : GoString) (content : List Node)

namespace Node

def kind : Node → Kind
  | mk kind _ _ _ _ => kind

def tag : Node → GoString
  | mk _ tag _ _ _ => tag

def value : Node → GoString
  | mk _ _ value _ _ => value

def content : Node → List Node
  | mk _ _ _ _ content => content

/-- The node with another content. -/
def setContent (content : List Node) : Node → Node
  | mk kind tag value anchor _ => mk kind tag value anchor content

@[simp]
theorem content_setContent (content : List Node) (node : Node) :
  (node.setContent content).content = content
  := by
  cases node
  rfl

@[simp]
theorem kind_setContent (content : List Node) (node : Node) :
  (node.setContent content).kind = node.kind
  := by
  cases node
  rfl

end Node

mutual

/-- Whether two trees are the same. -/
def Node.decEq : (a b : Node) → Decidable (a = b)
  | .mk kind tag value anchor content, .mk kind' tag' value' anchor' content' =>
      match Node.decEqs content content' with
      | .isTrue h =>
          decidable_of_iff (kind = kind' ∧ tag = tag' ∧ value = value' ∧ anchor = anchor')
            (by simp only [Node.mk.injEq, h, and_true])
      | .isFalse h => .isFalse (by simp only [Node.mk.injEq, h, and_false, not_false_eq_true])

def Node.decEqs : (l m : List Node) → Decidable (l = m)
  | [], [] => .isTrue rfl
  | [], _ :: _ => .isFalse nofun
  | _ :: _, [] => .isFalse nofun
  | a :: l, b :: m =>
      match Node.decEq a b, Node.decEqs l m with
      | .isTrue h, .isTrue h' => .isTrue (by rw [h, h'])
      | .isFalse h, _ => .isFalse (fun heq => h (List.cons.inj heq).1)
      | _, .isFalse h' => .isFalse (fun heq => h' (List.cons.inj heq).2)

end

instance : DecidableEq Node := Node.decEq

/-! ### Mappings -/

/-- The value of a name in the content of a mapping. -/
def valueOf (name : GoString) : List Node → Option Node
  | key :: value :: rest => if key.value = name then some value else valueOf name rest
  | _ => none

/-- The content with another value of a name that it has. -/
def setValueOf (name : GoString) (new : Node) : List Node → List Node
  | key :: value :: rest =>
      if key.value = name then key :: new :: rest else key :: value :: setValueOf name new rest
  | rest => rest

def mappingValue (node : Node) (name : GoString) : Option Node :=
  if node.kind = .mapping then valueOf name node.content else none

/-- The check of the keys of a mapping, with the names that have been seen. -/
def validateKeys (seen : List GoString) : List Node → Bool
  | [] => true
  | [_] => false
  | key :: _ :: rest =>
      key.kind = .scalar && !seen.contains key.value && validateKeys (key.value :: seen) rest

mutual

/-- `validateNode`: there are no aliases and no anchors, and a mapping has scalar keys without
duplicates. -/
def validateNode : Node → Bool
  | .mk kind _ _ anchor content =>
      kind ≠ .alias && anchor = [] && (kind ≠ .mapping || validateKeys [] content) &&
        validateNodes content

def validateNodes : List Node → Bool
  | [] => true
  | node :: nodes => validateNode node && validateNodes nodes

end

section Mappings

variable {name name' : GoString} {new : Node} {l : List Node} {seen : List GoString}

/-- Induction over the pairs of a content. -/
theorem pairs_induction {motive : List Node → Prop} (nil : motive [])
    (single : ∀ node, motive [node])
    (cons : ∀ key value rest, motive rest → motive (key :: value :: rest)) :
  ∀ l, motive l
  | [] => nil
  | [node] => single node
  | key :: value :: rest => cons key value rest (pairs_induction nil single cons rest)

theorem valueOf_setValueOf_self (h : (valueOf name l).isSome) :
  valueOf name (setValueOf name new l) = some new
  := by
  induction l using pairs_induction with
  | nil | single => cases h
  | cons key value rest ih =>
    rw [valueOf] at h
    rw [setValueOf]
    split
    · rename_i hkey
      rw [valueOf, if_pos hkey]
    · rename_i hkey
      rw [if_neg hkey] at h
      rw [valueOf, if_neg hkey, ih h]

theorem valueOf_setValueOf_of_ne (hne : name' ≠ name) :
  valueOf name' (setValueOf name new l) = valueOf name' l
  := by
  induction l using pairs_induction with
  | nil | single => rfl
  | cons key value rest ih =>
    rw [setValueOf]
    split
    · rename_i hkey
      have hother : key.value ≠ name' := by
        rw [hkey]
        exact hne.symm
      rw [valueOf, valueOf, if_neg hother, if_neg hother]
    · rw [valueOf, valueOf, ih]

theorem validateKeys_setValueOf (seen : List GoString) :
  validateKeys seen (setValueOf name new l) = validateKeys seen l
  := by
  induction l using pairs_induction generalizing seen with
  | nil | single => rfl
  | cons key value rest ih =>
    rw [setValueOf]
    split
    · rfl
    · rw [validateKeys, validateKeys, ih]

theorem validateNodes_iff :
  validateNodes l = true ↔ ∀ node ∈ l, validateNode node = true
  := by
  induction l with
  | nil => simp only [validateNodes, not_mem_nil, false_imp_iff, implies_true]
  | cons node l ih => rw [validateNodes, Bool.and_eq_true, ih, forall_mem_cons]

theorem mem_setValueOf {node : Node} (h : node ∈ setValueOf name new l) :
  node = new ∨ node ∈ l
  := by
  induction l using pairs_induction with
  | nil | single => exact .inr h
  | cons key value rest ih =>
    rw [setValueOf] at h
    split at h
    · rcases mem_cons.mp h with rfl | h
      · exact .inr mem_cons_self
      · rcases mem_cons.mp h with rfl | h
        · exact .inl rfl
        · exact .inr (mem_cons_of_mem _ (mem_cons_of_mem _ h))
    · rcases mem_cons.mp h with rfl | h
      · exact .inr mem_cons_self
      · rcases mem_cons.mp h with rfl | h
        · exact .inr (mem_cons_of_mem _ mem_cons_self)
        · exact (ih h).imp_right
            (fun hmem => mem_cons_of_mem _ (mem_cons_of_mem _ hmem))

/-- A value of a mapping is in its content. -/
theorem mem_of_valueOf {node : Node} (h : valueOf name l = some node) :
  node ∈ l
  := by
  induction l using pairs_induction with
  | nil | single => cases h
  | cons key value rest ih =>
    rw [valueOf] at h
    split at h
    · cases h
      exact mem_cons_of_mem _ mem_cons_self
    · exact mem_cons_of_mem _ (mem_cons_of_mem _ (ih h))

/-- Lookup in a content with a pair at the end. -/
theorem valueOf_append (hl : validateKeys seen l = true) (key value : Node) :
  valueOf name (l ++ [key, value]) = (valueOf name l).or (valueOf name [key, value])
  := by
  induction l using pairs_induction generalizing seen with
  | nil => rfl
  | single node => cases hl
  | cons k v rest ih =>
    simp only [validateKeys, Bool.and_eq_true] at hl
    rw [cons_append, cons_append, valueOf, valueOf]
    split
    · rfl
    · exact ih hl.2

/-- A pair with a new name may be put at the end of a mapping. -/
theorem validateKeys_append {key value : Node} (hl : validateKeys seen l = true)
    (hscalar : key.kind = .scalar) (hseen : key.value ∉ seen) (hnew : valueOf key.value l = none) :
  validateKeys seen (l ++ [key, value]) = true
  := by
  induction l using pairs_induction generalizing seen with
  | nil =>
    simp only [nil_append, validateKeys, hscalar, contains_eq_mem, hseen, decide_true,
      decide_false, Bool.not_false, Bool.and_self]
  | single node => cases hl
  | cons k v rest ih =>
    simp only [validateKeys, Bool.and_eq_true] at hl
    rw [valueOf] at hnew
    split at hnew
    · cases hnew
    · rename_i hne
      rw [cons_append, cons_append, validateKeys, hl.1.1, hl.1.2, Bool.true_and,
        Bool.true_and]
      apply ih hl.2 _ hnew
      intro hmem
      rcases mem_cons.mp hmem with heq | hmem
      · exact hne heq.symm
      · exact hseen hmem

end Mappings

/-- A mapping that is valid has valid children and keys. -/
theorem validateNode_mapping {node : Node} (hkind : node.kind = .mapping)
    (h : validateNode node = true) :
  validateKeys [] node.content = true ∧ ∀ child ∈ node.content, validateNode child = true
  := by
  obtain ⟨kind, tag, value, anchor, content⟩ := node
  subst hkind
  simp only [validateNode, Bool.and_eq_true, validateNodes_iff] at h
  refine ⟨?_, h.2⟩
  have hkeys := h.1.2
  exact hkeys

/-- A valid node stays valid with another valid content. -/
theorem validateNode_setContent {node : Node} {content : List Node} (h : validateNode node = true)
    (hkeys : node.kind = .mapping → validateKeys [] content = true)
    (hcontent : ∀ child ∈ content, validateNode child = true) :
  validateNode (node.setContent content) = true
  := by
  obtain ⟨kind, tag, value, anchor, old⟩ := node
  simp only [validateNode, Bool.and_eq_true] at h
  simp only [Node.setContent, validateNode, Bool.and_eq_true, validateNodes_iff]
  refine ⟨⟨h.1.1, ?_⟩, hcontent⟩
  by_cases hkind : kind = .mapping
  · rw [hkeys hkind, Bool.or_true]
  · rw [decide_eq_true hkind, Bool.true_or]

/-! ### Entries -/

/-- The boolean that a scalar is decoded to. -/
def decodeBool (value : GoString) : Option Bool :=
  if value = lit "true" ∨ value = lit "True" ∨ value = lit "TRUE" then some true
  else if value = lit "false" ∨ value = lit "False" ∨ value = lit "FALSE" then some false
  else none

/-- `setEnabled`, to `false`. -/
def setEnabled (item : Node) : Node :=
  match mappingValue item (lit "enabled") with
  | none =>
      item.setContent (item.content ++
        [.mk .scalar (lit "!!str") (lit "enabled") [] [],
          .mk .scalar (lit "!!bool") (lit "false") [] []])
  | some (.mk _ _ _ anchor content) =>
      item.setContent (setValueOf (lit "enabled")
        (.mk .scalar (lit "!!bool") (lit "false") anchor content) item.content)

/-- The text of the origin of an entry. -/
def itemOrigin (item : Node) : Option GoString := (mappingValue item (lit "origin")).map Node.value

/-- Whether an entry is enabled. -/
def itemEnabled (item : Node) : Bool :=
  match mappingValue item (lit "enabled") with
  | none => false
  | some node => (decodeBool node.value).getD false

/-- An entry of `parseDirectorySequence`. -/
def parseItem (item : Node) : Option Directory.Entry :=
  if item.kind ≠ .mapping then none
  else
    match mappingValue item (lit "origin") with
    | none => none
    | some origin =>
        if origin.kind ≠ .scalar ∨ origin.tag ≠ lit "!!str" then none
        else
          match mappingValue item (lit "enabled") with
          | none => some ⟨origin.value, false⟩
          | some enabled =>
              if enabled.kind ≠ .scalar ∨ enabled.tag ≠ lit "!!bool" then none
              else (decodeBool enabled.value).map (fun b => ⟨origin.value, b⟩)

def parseDirectorySequence (U : CaseTable) (node : Node) : Option (List Directory.Entry) :=
  if node.kind ≠ .sequence then none
  else
    (node.content.mapM parseItem).bind (fun entries =>
      if Directory.validDirectories U entries then some entries else none)

variable {item : Node}

theorem parseItem_eq_some {e : Directory.Entry} (h : parseItem item = some e) :
  item.kind = .mapping ∧ itemOrigin item = some e.origin ∧ itemEnabled item = e.enabled
  := by
  unfold parseItem at h
  split at h
  · cases h
  · rename_i hkind
    refine ⟨not_not.mp hkind, ?_⟩
    unfold itemOrigin itemEnabled
    split at h
    · cases h
    · rename_i origin horigin
      rw [horigin]
      split at h
      · cases h
      · split at h
        · cases h
          exact ⟨rfl, rfl⟩
        · split at h
          · cases h
          · obtain ⟨b, hb, rfl⟩ := Option.map_eq_some_iff.mp h
            rw [hb]
            exact ⟨rfl, rfl⟩

section

variable (hkind : item.kind = .mapping)
include hkind

/-- Looking up a name in an entry that has been disabled. -/
theorem mappingValue_setEnabled (hvalid : validateNode item = true)
    {name : GoString} (hname : name ≠ lit "enabled") :
  mappingValue (setEnabled item) name = mappingValue item name
  := by
  have hkeys := (validateNode_mapping hkind hvalid).1
  unfold setEnabled
  split
  · simp only [mappingValue, Node.kind_setContent, hkind, if_true, Node.content_setContent]
    rw [valueOf_append hkeys, valueOf, if_neg (fun h => hname h.symm)]
    exact Option.or_none
  · simp only [mappingValue, Node.kind_setContent, hkind, if_true, Node.content_setContent]
    exact valueOf_setValueOf_of_ne hname

theorem itemOrigin_setEnabled (hvalid : validateNode item = true) :
  itemOrigin (setEnabled item) = itemOrigin item
  := by
  unfold itemOrigin
  rw [mappingValue_setEnabled hkind hvalid (by decide)]

theorem itemEnabled_setEnabled (hvalid : validateNode item = true) :
  itemEnabled (setEnabled item) = false
  := by
  have hkeys := (validateNode_mapping hkind hvalid).1
  have hvalue : ∃ anchor content, mappingValue (setEnabled item) (lit "enabled") =
      some (.mk .scalar (lit "!!bool") (lit "false") anchor content) := by
    unfold setEnabled
    split
    · rename_i hnone
      simp only [mappingValue, hkind, if_true] at hnone
      simp only [mappingValue, Node.kind_setContent, hkind, if_true, Node.content_setContent]
      rw [valueOf_append hkeys, hnone]
      exact ⟨[], [], rfl⟩
    · rename_i anchor content hsome
      simp only [mappingValue, hkind, if_true] at hsome
      simp only [mappingValue, Node.kind_setContent, hkind, if_true, Node.content_setContent]
      rw [valueOf_setValueOf_self (by rw [hsome]; rfl)]
      exact ⟨anchor, content, rfl⟩
  obtain ⟨anchor, content, hvalue⟩ := hvalue
  unfold itemEnabled
  rw [hvalue]
  rfl

theorem validateNode_setEnabled (hvalid : validateNode item = true) :
  validateNode (setEnabled item) = true
  := by
  obtain ⟨hkeys, hchildren⟩ := validateNode_mapping hkind hvalid
  unfold setEnabled
  split
  · rename_i hnone
    simp only [mappingValue, hkind, if_true] at hnone
    apply validateNode_setContent hvalid
    · intro _
      exact validateKeys_append hkeys rfl (not_mem_nil) hnone
    · intro child hchild
      rcases mem_append.mp hchild with hchild | hchild
      · exact hchildren child hchild
      · rcases mem_pair.mp hchild with rfl | rfl <;> rfl
  · rename_i kind tag value anchor content hsome
    simp only [mappingValue, hkind, if_true] at hsome
    apply validateNode_setContent hvalid
    · intro _
      rw [validateKeys_setValueOf]
      exact hkeys
    · intro child hchild
      rcases mem_setValueOf hchild with rfl | hchild
      · have hold := hchildren _ (mem_of_valueOf hsome)
        simp only [validateNode, Bool.and_eq_true] at hold ⊢
        exact ⟨⟨⟨rfl, hold.1.1.2⟩, rfl⟩, hold.2⟩
      · exact hchildren child hchild

end

/-! ### Edits -/

/-- The parser and the printer of YAML. `decode` gives the root of a text with exactly one document.
A valid tree is read back as it was printed. -/
structure Codec where
  decode : GoString → Option Node
  encode : Node → Option GoString
  decode_encode : ∀ root text, root.kind = .mapping → validateNode root = true →
    encode root = some text → decode text = some root

/-- The codec of finitely many documents. -/
def Codec.ofTable (table : List (GoString × Node)) (h : (table.map Prod.fst).Nodup) : Codec where
  decode text := (table.find? (fun e => e.1 = text)).map Prod.snd
  encode root := (table.find? (fun e => e.2 = root)).map Prod.fst
  decode_encode := by
    intro root text _ _ hencode
    obtain ⟨e, he, rfl⟩ := Option.map_eq_some_iff.mp hencode
    have hroot := List.find?_some he
    obtain rfl := of_decide_eq_true hroot
    have hmem := mem_of_find?_eq_some he
    clear he hencode hroot
    induction table with
    | nil => cases hmem
    | cons e' table ih =>
        rw [map_cons, nodup_cons] at h
        rcases mem_cons.mp hmem with rfl | hmem
        · simp only [decide_true, List.find?_cons_of_pos, Option.map_some]
        · have hne : e'.1 ≠ e.1 := by
            intro heq
            apply h.1
            rw [heq]
            exact mem_map_of_mem hmem
          simp only [hne, decide_false, List.find?_cons, ih h.2 hmem]

/-- The errors of the package. -/
inductive EditError
  | configuration
  | notFound
  deriving DecidableEq, Repr

inductive Action
  | disable
  | remove
  deriving DecidableEq, Repr

/-- A call of `DisableFile` or `RemoveFile` for the origin of an entry. -/
structure Call where
  action : Action
  origin : GoString
  deriving DecidableEq, Repr

/-- The edited tree, and whether an entry that is disabled was enabled. -/
structure Prepared where
  wasEnabled : Bool
  root : Node
  deriving DecidableEq

/-- The first entry with the origin, with the entries before and after it. -/
def findEntry (origin : GoString) : List Node → Option (List Node × Node × List Node)
  | [] => none
  | item :: items =>
      if itemOrigin item = some origin then some ([], item, items)
      else (findEntry origin items).map (fun r => (item :: r.1, r.2))

/-- The entries that an edit leaves. -/
def editItems (action : Action) (before : List Node) (item : Node) (after : List Node) :
    List Node :=
  match action with
  | .disable => before ++ setEnabled item :: after
  | .remove => before ++ after

/-- The tree with other entries. -/
def setItems (root directories : Node) (items : List Node) : Node :=
  root.setContent (setValueOf (lit "DIRECTORIES") (directories.setContent items) root.content)

variable (U : CaseTable) (codec : Codec)

def decodeYAML (text : GoString) : Option Node :=
  (codec.decode text).bind (fun root =>
    if root.kind = .mapping ∧ validateNode root = true then some root else none)

/-- The part of `editFile` between the snapshot and the look at the backup. -/
def prepare (call : Call) (text : GoString) : Except EditError Prepared :=
  match decodeYAML codec text with
  | none => .error .configuration
  | some root =>
      match mappingValue root (lit "DIRECTORIES") with
      | none => .error .notFound
      | some directories =>
          if directories.kind ≠ .sequence then .error .notFound
          else if parseDirectorySequence U directories = none then .error .configuration
          else
            match findEntry call.origin directories.content with
            | none => .error .notFound
            | some (before, item, after) =>
                .ok ⟨call.action = .disable && itemEnabled item,
                  setItems root directories (editItems call.action before item after)⟩

/-- The entries of a tree. -/
def items (root : Node) : List Node :=
  match mappingValue root (lit "DIRECTORIES") with
  | none => []
  | some directories => if directories.kind = .sequence then directories.content else []

/-- The entry is for the origin. -/
def hasOrigin (origin : GoString) (item : Node) : Bool := itemOrigin item = some origin

/-- The entry of an origin in a text. -/
def entry (text origin : GoString) : Option Node :=
  (decodeYAML codec text).bind (fun root =>
    (items root).find? (hasOrigin origin))

variable {U codec} {origin text : GoString}

theorem hasOrigin_iff :
  hasOrigin origin item = true ↔ itemOrigin item = some origin
  := decide_eq_true_iff

theorem find_hasOrigin_eq_none {l : List Node} (h : ∀ node ∈ l, itemOrigin node ≠ some origin) :
  l.find? (hasOrigin origin) = none
  := by
  rw [List.find?_eq_none]
  intro node hnode
  rw [hasOrigin_iff]
  exact h node hnode

theorem findEntry_eq_some {l before after : List Node}
    (h : findEntry origin l = some (before, item, after)) :
  l = before ++ item :: after ∧ itemOrigin item = some origin ∧
    ∀ node ∈ before, itemOrigin node ≠ some origin
  := by
  induction l generalizing before with
  | nil => cases h
  | cons node l ih =>
    rw [findEntry] at h
    split at h
    · rename_i horigin
      obtain ⟨rfl, rfl, rfl⟩ := h
      exact ⟨rfl, horigin, by simp only [not_mem_nil, false_imp_iff, implies_true]⟩
    · rename_i hne
      obtain ⟨⟨before', rest⟩, hrest, heq⟩ := Option.map_eq_some_iff.mp h
      cases heq
      obtain ⟨rfl, horigin, hbefore⟩ := ih hrest
      refine ⟨rfl, horigin, ?_⟩
      intro other hother
      rcases mem_cons.mp hother with rfl | hother
      · exact hne
      · exact hbefore other hother

/-- What is known of a tree in which an entry has been found. -/
structure Found (root directories : Node) (before : List Node) (item : Node) (after : List Node)
    (origin : GoString) : Prop where
  mapping : root.kind = .mapping
  valid : validateNode root = true
  lookup : valueOf (lit "DIRECTORIES") root.content = some directories
  sequence : directories.kind = .sequence
  content : directories.content = before ++ item :: after
  item_kind : item.kind = .mapping
  item_origin : itemOrigin item = some origin
  before_ne : ∀ node ∈ before, itemOrigin node ≠ some origin
  after_ne : ∀ node ∈ after, itemOrigin node ≠ some origin

theorem mapM_parseItem {l : List Node} {entries : List Directory.Entry}
    (h : l.mapM parseItem = some entries) :
  (∀ item ∈ l, item.kind = .mapping) ∧
    l.map itemOrigin = entries.map (fun e => some e.origin)
  := by
  induction l generalizing entries with
  | nil =>
    cases h
    exact ⟨by simp only [not_mem_nil, false_imp_iff, implies_true], rfl⟩
  | cons item l ih =>
    rw [mapM_cons] at h
    obtain ⟨e, he, hrest⟩ := Option.bind_eq_some_iff.mp h
    obtain ⟨es, hes, heq⟩ := Option.bind_eq_some_iff.mp hrest
    cases heq
    obtain ⟨hkind, horigin, -⟩ := parseItem_eq_some he
    obtain ⟨hkinds, horigins⟩ := ih hes
    refine ⟨forall_mem_cons.mpr ⟨hkind, hkinds⟩, ?_⟩
    rw [map_cons, map_cons, horigin, horigins]

/-- The entries of a sequence that is accepted are mappings with different origins. -/
theorem parseDirectorySequence_ne_none {directories : Node}
    (h : parseDirectorySequence U directories ≠ none) :
  (∀ item ∈ directories.content, item.kind = .mapping) ∧
    (directories.content.map itemOrigin).Nodup
  := by
  obtain ⟨entries, h⟩ := Option.ne_none_iff_exists'.mp h
  unfold parseDirectorySequence at h
  split at h
  · cases h
  · obtain ⟨es, hes, hvalid⟩ := Option.bind_eq_some_iff.mp h
    obtain ⟨hkinds, horigins⟩ := mapM_parseItem hes
    refine ⟨hkinds, ?_⟩
    split at hvalid
    · rename_i hdirectories
      simp only [Directory.validDirectories, Bool.and_eq_true, decide_eq_true_eq] at hdirectories
      have hnodup := hdirectories.2.map (Option.some_injective GoString)
      rw [map_map] at hnodup
      rw [horigins]
      exact hnodup
    · cases hvalid

theorem decodeYAML_eq_some {root : Node} :
  decodeYAML codec text = some root ↔
    codec.decode text = some root ∧ root.kind = .mapping ∧ validateNode root = true
  := by
  unfold decodeYAML
  rw [Option.bind_eq_some_iff]
  constructor
  · rintro ⟨root', hdecode, hroot⟩
    split at hroot
    · rename_i hvalid
      cases hroot
      exact ⟨hdecode, hvalid⟩
    · cases hroot
  · rintro ⟨hdecode, hvalid⟩
    exact ⟨root, hdecode, if_pos hvalid⟩

theorem prepare_eq_ok {call : Call} {p : Prepared} (h : prepare U codec call text = .ok p) :
  ∃ root directories before item after, decodeYAML codec text = some root ∧
    Found root directories before item after call.origin ∧
    p = ⟨call.action = .disable && itemEnabled item,
      setItems root directories (editItems call.action before item after)⟩
  := by
  unfold prepare at h
  split at h
  · cases h
  · rename_i root hroot
    obtain ⟨-, hmapping, hvalid⟩ := decodeYAML_eq_some.mp hroot
    split at h
    · cases h
    · rename_i directories hdirectories
      simp only [mappingValue, hmapping, if_true] at hdirectories
      split at h
      · cases h
      · rename_i hsequence
        split at h
        · cases h
        · rename_i hparsed
          obtain ⟨hkinds, hnodup⟩ := parseDirectorySequence_ne_none hparsed
          split at h
          · cases h
          · rename_i before item after hfound
            obtain ⟨hcontent, horigin, hbefore⟩ := findEntry_eq_some hfound
            rw [hcontent] at hkinds hnodup
            refine ⟨root, directories, before, item, after, hroot, ?_, (Except.ok.inj h).symm⟩
            refine ⟨hmapping, hvalid, hdirectories, not_not.mp hsequence, hcontent, ?_, horigin,
              hbefore, ?_⟩
            · apply hkinds
              exact mem_append_right _ mem_cons_self
            · intro node hnode heq
              rw [map_append, map_cons] at hnodup
              have hcons := (nodup_append.mp hnodup).2.1
              apply (nodup_cons.mp hcons).1
              rw [horigin, ← heq]
              exact mem_map_of_mem hnode

/-! ### What an edit leaves -/

namespace Found

variable {root directories item : Node} {before after : List Node} {origin : GoString}

variable (h : Found root directories before item after origin)
include h

theorem items_eq :
  items root = before ++ item :: after
  := by
  unfold items
  simp only [mappingValue, h.mapping, if_true, h.lookup, h.sequence, h.content]

theorem items_setItems (l : List Node) :
  items (setItems root directories l) = l
  := by
  unfold items setItems
  simp only [mappingValue, Node.kind_setContent, h.mapping, if_true, Node.content_setContent]
  rw [valueOf_setValueOf_self (by rw [h.lookup]; rfl)]
  simp only [Node.kind_setContent, h.sequence, if_true, Node.content_setContent]

theorem valid_item :
  validateNode directories = true ∧ ∀ node ∈ before ++ item :: after, validateNode node = true
  := by
  obtain ⟨-, hchildren⟩ := validateNode_mapping h.mapping h.valid
  have hdirectories := hchildren _ (mem_of_valueOf h.lookup)
  refine ⟨hdirectories, ?_⟩
  rw [← h.content]
  cases directories with
  | mk kind tag value anchor content =>
    simp only [validateNode, Bool.and_eq_true, validateNodes_iff] at hdirectories
    exact hdirectories.2

/-- The edited tree is valid. -/
theorem valid_setItems (action : Action) :
  (setItems root directories (editItems action before item after)).kind = .mapping ∧
    validateNode (setItems root directories (editItems action before item after)) = true
  := by
  obtain ⟨hkeys, hchildren⟩ := validateNode_mapping h.mapping h.valid
  obtain ⟨hdirectories, hitems⟩ := h.valid_item
  refine ⟨by rw [setItems, Node.kind_setContent, h.mapping], ?_⟩
  have hedited : ∀ node ∈ editItems action before item after, validateNode node = true := by
    intro node hnode
    cases action with
    | disable =>
      rcases mem_append.mp hnode with hnode | hnode
      · exact hitems node (mem_append_left _ hnode)
      · rcases mem_cons.mp hnode with rfl | hnode
        · apply validateNode_setEnabled h.item_kind
          exact hitems item (mem_append_right _ mem_cons_self)
        · exact hitems node (mem_append_right _ (mem_cons_of_mem _ hnode))
    | remove =>
      rcases mem_append.mp hnode with hnode | hnode
      · exact hitems node (mem_append_left _ hnode)
      · exact hitems node (mem_append_right _ (mem_cons_of_mem _ hnode))
  apply validateNode_setContent h.valid
  · intro _
    rw [validateKeys_setValueOf]
    exact hkeys
  · intro child hchild
    rcases mem_setValueOf hchild with rfl | hchild
    · apply validateNode_setContent hdirectories _ hedited
      rw [h.sequence]
      rintro ⟨⟩
    · exact hchildren child hchild

/-- The entry that has been found. -/
theorem find_self :
  (before ++ item :: after).find? (hasOrigin origin) = some item
  := by
  rw [List.find?_append, find_hasOrigin_eq_none h.before_ne,
    List.find?_cons_of_pos (hasOrigin_iff.mpr h.item_origin), Option.none_or]

/-- The entries of other origins are left as they are. -/
theorem find_of_ne (action : Action)
    {other : GoString} (hne : other ≠ origin) :
  (editItems action before item after).find? (hasOrigin other) =
    (before ++ item :: after).find? (hasOrigin other)
  := by
  have hitem : ¬ hasOrigin other item = true := by
    rw [hasOrigin_iff, h.item_origin]
    exact fun heq => hne (Option.some.inj heq).symm
  have hvalid := h.valid_item.2 item (mem_append_right _ mem_cons_self)
  have hedited : ¬ hasOrigin other (setEnabled item) = true := by
    rw [hasOrigin_iff, itemOrigin_setEnabled h.item_kind hvalid, ← hasOrigin_iff]
    exact hitem
  rw [List.find?_append, List.find?_cons_of_neg hitem]
  cases action with
  | disable => rw [editItems, List.find?_append, List.find?_cons_of_neg hedited]
  | remove => rw [editItems, List.find?_append]

/-- The entry that is disabled. -/
theorem find_disable :
  (editItems .disable before item after).find? (hasOrigin origin) = some (setEnabled item)
  := by
  have hvalid := h.valid_item.2 item (mem_append_right _ mem_cons_self)
  have hedited : hasOrigin origin (setEnabled item) = true := by
    rw [hasOrigin_iff, itemOrigin_setEnabled h.item_kind hvalid, h.item_origin]
  rw [editItems, List.find?_append, find_hasOrigin_eq_none h.before_ne,
    List.find?_cons_of_pos hedited, Option.none_or]

/-- The entry that is removed was the only one. -/
theorem find_remove :
  (editItems .remove before item after).find? (hasOrigin origin) = none
  := by
  rw [editItems, List.find?_append, find_hasOrigin_eq_none h.before_ne,
    find_hasOrigin_eq_none h.after_ne, Option.none_or]

end Found

/-- The text of the edited tree, and the text it was made from. -/
structure Edited (U : CaseTable) (codec : Codec) (call : Call) (text text' : GoString) : Prop where
  exists_prepared : ∃ p, prepare U codec call text = .ok p ∧ codec.encode p.root = some text'

/-- The entry is disabled. -/
def Disabled (codec : Codec) (origin text : GoString) : Prop :=
  ∃ item, entry codec text origin = some item ∧ itemEnabled item = false

/-- What a call is for: the entry is disabled or absent after `DisableFile`, and absent after
`RemoveFile`. -/
def Settled (codec : Codec) (call : Call) (text : GoString) : Prop :=
  match call.action with
  | .disable => ∀ item, entry codec text call.origin = some item → itemEnabled item = false
  | .remove => entry codec text call.origin = none

section Edited

variable {call : Call} {text text' : GoString}

variable (h : Edited U codec call text text')
include h

/-- The entries of the text after an edit. -/
theorem Edited.entry_eq :
  ∃ root directories before item after, Found root directories before item after call.origin ∧
    (∀ origin, entry codec text origin =
      (before ++ item :: after).find? (hasOrigin origin)) ∧
    ∀ origin, entry codec text' origin =
      (editItems call.action before item after).find? (hasOrigin origin)
  := by
  obtain ⟨p, hp, hencode⟩ := h.exists_prepared
  obtain ⟨root, directories, before, item, after, hroot, hfound, rfl⟩ := prepare_eq_ok hp
  obtain ⟨hmapping, hvalid⟩ := hfound.valid_setItems call.action
  have hroot' : decodeYAML codec text' =
      some (setItems root directories (editItems call.action before item after)) :=
    decodeYAML_eq_some.mpr ⟨codec.decode_encode _ _ hmapping hvalid hencode, hmapping, hvalid⟩
  refine ⟨root, directories, before, item, after, hfound, ?_, ?_⟩
  · intro origin
    rw [entry, hroot, Option.bind_some, hfound.items_eq]
  · intro origin
    rw [entry, hroot', Option.bind_some, hfound.items_setItems]

/-- An edit leaves the entries of other origins. -/
theorem Edited.entry_of_ne (hne : origin ≠ call.origin) :
  entry codec text' origin = entry codec text origin
  := by
  obtain ⟨root, directories, before, item, after, hfound, htext, htext'⟩ := h.entry_eq
  rw [htext, htext', hfound.find_of_ne call.action hne]

/-- `DisableFile` disables its entry. -/
theorem Edited.disabled (haction : call.action = .disable) :
  Disabled codec call.origin text'
  := by
  obtain ⟨root, directories, before, item, after, hfound, -, htext'⟩ := h.entry_eq
  have hvalid := hfound.valid_item.2 item (mem_append_right _ mem_cons_self)
  use setEnabled item
  rw [htext', haction, hfound.find_disable]
  exact ⟨rfl, itemEnabled_setEnabled hfound.item_kind hvalid⟩

/-- The text that an edit leaves is settled for its call. -/
theorem Edited.settled :
  Settled codec call text'
  := by
  unfold Settled
  split
  · rename_i haction
    obtain ⟨item, hitem, hdisabled⟩ := h.disabled haction
    intro item' hitem'
    rw [hitem] at hitem'
    rw [← Option.some.inj hitem']
    exact hdisabled
  · rename_i haction
    obtain ⟨root, directories, before, item, after, hfound, -, htext'⟩ := h.entry_eq
    rw [htext', haction, hfound.find_remove]

/-- An edit by any call keeps what another call has settled. -/
theorem Edited.settled_of_settled {call' : Call}
    (hsettled : Settled codec call' text) :
  Settled codec call' text'
  := by
  by_cases hne : call'.origin = call.origin
  · obtain ⟨root, directories, before, item, after, hfound, htext, htext'⟩ := h.entry_eq
    unfold Settled at hsettled ⊢
    split
    · intro item' hitem'
      have hown := h.settled
      unfold Settled at hown
      rw [← hne] at hown
      split at hown
      · exact hown item' hitem'
      · rw [hown] at hitem'
        cases hitem'
    · rename_i haction
      rw [haction, hne, htext, hfound.find_self] at hsettled
      cases hsettled
  · unfold Settled at hsettled ⊢
    rw [h.entry_of_ne hne]
    exact hsettled

/-- A call of `DisableFile` keeps entries disabled. -/
theorem Edited.disabled_of_disabled
    (haction : call.action = .disable) (hdisabled : Disabled codec origin text) :
  Disabled codec origin text'
  := by
  by_cases hne : origin = call.origin
  · rw [hne]
    exact h.disabled haction
  · unfold Disabled
    rw [h.entry_of_ne hne]
    exact hdisabled

end Edited

/-- An entry that is found disabled. -/
theorem disabled_of_prepare {call : Call} {p : Prepared} (h : prepare U codec call text = .ok p)
    (haction : call.action = .disable) (hdisabled : p.wasEnabled = false) :
  Disabled codec call.origin text
  := by
  obtain ⟨root, directories, before, item, after, hroot, hfound, rfl⟩ := prepare_eq_ok h
  use item
  rw [entry, hroot, Option.bind_some, hfound.items_eq, hfound.find_self]
  rw [haction] at hdisabled
  exact ⟨rfl, hdisabled⟩

/-! ### A sample -/

def boolText (b : Bool) : GoString := if b then lit "true" else lit "false"

def firstOrigin : GoString := lit "https://a.example"

def secondOrigin : GoString := lit "https://b.example"

/-- An entry of a document, as it is encoded with an indent of two. -/
def sampleEntry (origin : GoString) (enabled : Bool) : GoString :=
  lit "  - origin: " ++ origin ++ lit "\n    enabled: " ++ boolText enabled ++ lit "\n"

/-- The text of a document with two directories. -/
def sampleText (first second : Bool) : GoString :=
  lit "DIRECTORIES:\n" ++ sampleEntry firstOrigin first ++ sampleEntry secondOrigin second

def sampleItem (origin : GoString) (enabled : Bool) : Node :=
  .mk .mapping (lit "!!map") [] []
    [.mk .scalar (lit "!!str") (lit "origin") [] [], .mk .scalar (lit "!!str") origin [] [],
      .mk .scalar (lit "!!str") (lit "enabled") [] [],
      .mk .scalar (lit "!!bool") (boolText enabled) [] []]

/-- The tree of a document with some directories. -/
def sampleTree (items : List Node) : Node :=
  .mk .mapping (lit "!!map") [] []
    [.mk .scalar (lit "!!str") (lit "DIRECTORIES") [] [], .mk .sequence (lit "!!seq") [] [] items]

/-- The codec of the documents with the two directories, and of one without the second. -/
def sampleCodec : Codec :=
  .ofTable
    [(sampleText true true,
        sampleTree [sampleItem firstOrigin true, sampleItem secondOrigin true]),
      (sampleText false true,
        sampleTree [sampleItem firstOrigin false, sampleItem secondOrigin true]),
      (sampleText true false,
        sampleTree [sampleItem firstOrigin true, sampleItem secondOrigin false]),
      (sampleText false false,
        sampleTree [sampleItem firstOrigin false, sampleItem secondOrigin false]),
      (lit "DIRECTORIES:\n" ++ sampleEntry firstOrigin false,
        sampleTree [sampleItem firstOrigin false])]
    (by decide +kernel)

end DirectoryConfig
