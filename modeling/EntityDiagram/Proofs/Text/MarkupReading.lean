import EntityDiagram.Text.Markup
import Mathlib.Data.List.TakeWhile

/-!
# Reading markup

A reader of documents that consist of a declaration and nested elements: attribute values stand
between double quotes, and in them the five entities are decoded and nothing else. It is as strict as
it can be, so that what it reads cannot be read in another way: it refuses an open angle bracket or a
stray ampersand in a value, an attribute given twice, an end tag that does not fit the last open start
tag, and any text between tags but white space.

What an escaped text decodes to is the text. So a document that is spelled with escaped values is
read back, whatever its values are.
-/

namespace EntityDiagram.Text.Markup

/-! ## The reader -/

/-- White space between tags and between attributes. -/
def isSpace : Character → Bool :=
  Character.isIn fun c => c == ' ' || c == '\n' || c == '\t' || c == '\r'

theorem eq_of_isSpace
    {c : Character} (h : isSpace c = true) :
    c = .scalar ' ' ∨ c = .scalar '\n' ∨ c = .scalar '\t' ∨ c = .scalar '\r' := by
  cases c with
  | surrogate index => cases h
  | scalar c => simpa [isSpace, or_assoc] using h

/-- A character of the name of an element or an attribute. -/
def isNamePart : Character → Bool :=
  Character.isIn fun c => c.isAlphanum || c == '_' || c == '-' || c == '.' || c == ':'

/-- The text that an attribute value stands for. -/
def decode : List Character → Option (List Character)
  | [] => some []
  | .scalar '&' :: .scalar 'a' :: .scalar 'm' :: .scalar 'p' :: .scalar ';' :: rest =>
    (decode rest).map (.scalar '&' :: ·)
  | .scalar '&' :: .scalar 'l' :: .scalar 't' :: .scalar ';' :: rest =>
    (decode rest).map (.scalar '<' :: ·)
  | .scalar '&' :: .scalar 'g' :: .scalar 't' :: .scalar ';' :: rest =>
    (decode rest).map (.scalar '>' :: ·)
  | .scalar '&' :: .scalar 'q' :: .scalar 'u' :: .scalar 'o' :: .scalar 't' :: .scalar ';' :: rest =>
    (decode rest).map (.scalar '"' :: ·)
  | .scalar '&' :: .scalar 'a' :: .scalar 'p' :: .scalar 'o' :: .scalar 's' :: .scalar ';' :: rest =>
    (decode rest).map (.scalar '\'' :: ·)
  | c :: rest => if c = .scalar '&' ∨ c = .scalar '<' then none else (decode rest).map (c :: ·)

/-- Attributes in the order in which they are given. -/
abbrev Attributes := List (Text × Text)

/-- The attribute at the start of a text, and the text behind it. -/
def readAttribute (cs : List Character) : Option ((Text × Text) × List Character) :=
  let name := cs.takeWhile isNamePart
  match cs.drop name.length with
  | .scalar '=' :: .scalar '"' :: rest =>
    let value := rest.takeWhile (· ≠ .scalar '"')
    match decode value, rest.drop value.length with
    | some text, .scalar '"' :: behind => some ((ofList name, ofList text), behind)
    | _, _ => none
  | _ => none

theorem readAttribute_length
    {cs behind : List Character} {entry : Text × Text}
    (h : readAttribute cs = some (entry, behind)) :
    behind.length < cs.length := by
  simp only [readAttribute] at h
  split at h
  · rename_i rest hrest
    split at h
    · rename_i hbehind
      obtain ⟨-, rfl⟩ := Prod.mk.inj (Option.some.inj h)
      have houter := congrArg List.length hrest
      have hinner := congrArg List.length hbehind
      simp only [List.length_drop, List.length_cons] at houter hinner
      omega
    · cases h
  · cases h

/-- Attributes with white space in front of each of them, and the text behind them and behind further
white space. -/
def readAttributes (cs : List Character) : Option (Attributes × List Character) :=
  let inner := cs.dropWhile isSpace
  if cs.head?.any isSpace && inner.head?.any isNamePart then
    match _h : readAttribute inner with
    | none => none
    | some (entry, behind) =>
      (readAttributes behind).map fun (more, left) => (entry :: more, left)
  else some ([], inner)
termination_by cs.length
decreasing_by
  have hinner : inner.length ≤ cs.length := (List.dropWhile_sublist isSpace).length_le
  exact Nat.lt_of_lt_of_le (readAttribute_length _h) hinner

/-- A tag; an empty one starts and ends an element at once. -/
inductive Tag where
  | opening (name : Text) (attributes : Attributes)
  | closing (name : Text)
  | empty (name : Text) (attributes : Attributes)
  deriving DecidableEq, Repr

/-- The tag at the start of a text, and the text behind it. -/
def readTag : List Character → Option (Tag × List Character)
  | .scalar '<' :: .scalar '/' :: rest =>
    let name := rest.takeWhile isNamePart
    match rest.drop name.length with
    | .scalar '>' :: behind => some (.closing (ofList name), behind)
    | _ => none
  | .scalar '<' :: rest =>
    let name := rest.takeWhile isNamePart
    match readAttributes (rest.drop name.length) with
    | none => none
    | some (attributes, left) =>
      if name = [] ∨ ¬ (attributes.map Prod.fst).Nodup then none
      else
        match left with
        | .scalar '>' :: behind => some (.opening (ofList name) attributes, behind)
        | .scalar '/' :: .scalar '>' :: behind => some (.empty (ofList name) attributes, behind)
        | _ => none
  | _ => none

theorem readAttributes_eq
    (cs : List Character) :
    readAttributes cs =
      if cs.head?.any isSpace && (cs.dropWhile isSpace).head?.any isNamePart then
        match readAttribute (cs.dropWhile isSpace) with
        | none => none
        | some (entry, behind) =>
          (readAttributes behind).map fun (more, left) => (entry :: more, left)
      else some ([], cs.dropWhile isSpace) := by
  rw [readAttributes]
  simp only
  split
  · split <;> simp_all
  · rfl

theorem readAttributes_length
    {cs left : List Character} {attributes : Attributes}
    (h : readAttributes cs = some (attributes, left)) :
    left.length ≤ cs.length := by
  have hspace : ∀ cs : List Character, (cs.dropWhile isSpace).length ≤ cs.length :=
    fun _ => (List.dropWhile_sublist isSpace).length_le
  fun_induction readAttributes cs generalizing attributes with
  | case1 => cases h
  | case2 cs inner _ entry behind hread =>
    rename_i ih
    obtain ⟨⟨more, rest⟩, hmore, heq⟩ := Option.map_eq_some_iff.mp h
    obtain ⟨-, rfl⟩ := Prod.mk.inj heq
    exact ((ih hmore).trans (readAttribute_length hread).le).trans (hspace cs)
  | case3 cs inner =>
    obtain ⟨-, rfl⟩ := Prod.mk.inj (Option.some.inj h)
    exact hspace cs

theorem readTag_length
    {cs behind : List Character} {tag : Tag} (h : readTag cs = some (tag, behind)) :
    behind.length < cs.length := by
  unfold readTag at h
  split at h
  · rename_i rest
    simp only at h
    split at h
    · rename_i hrest
      obtain ⟨-, rfl⟩ := Prod.mk.inj (Option.some.inj h)
      have hlength := congrArg List.length hrest
      simp only [List.length_drop, List.length_cons] at hlength ⊢
      omega
    · cases h
  · rename_i rest _
    simp only at h
    split at h
    · cases h
    · rename_i left hread
      have hleft := readAttributes_length hread
      simp only [List.length_drop] at hleft
      split at h
      · cases h
      · split at h
        · obtain ⟨-, rfl⟩ := Prod.mk.inj (Option.some.inj h)
          simp only [List.length_cons] at hleft ⊢
          omega
        · obtain ⟨-, rfl⟩ := Prod.mk.inj (Option.some.inj h)
          simp only [List.length_cons] at hleft ⊢
          omega
        · cases h
  · cases h

/-- The tags of a text with nothing but white space between them. -/
def readTags (cs : List Character) : Option (List Tag) :=
  let inner := cs.dropWhile isSpace
  if inner = [] then some []
  else
    match _h : readTag inner with
    | none => none
    | some (tag, behind) => (readTags behind).map (tag :: ·)
termination_by cs.length
decreasing_by
  have hinner : inner.length ≤ cs.length := (List.dropWhile_sublist isSpace).length_le
  exact Nat.lt_of_lt_of_le (readTag_length _h) hinner

theorem readTags_eq
    (cs : List Character) :
    readTags cs =
      if cs.dropWhile isSpace = [] then some []
      else
        match readTag (cs.dropWhile isSpace) with
        | none => none
        | some (tag, behind) => (readTags behind).map (tag :: ·) := by
  rw [readTags]
  split
  · rfl
  · split <;> simp_all

/-- A tree of elements. -/
inductive Element where
  | node (name : Text) (attributes : Attributes) (children : List Element)

/-- An element whose end tag has not come yet, with the elements in front of it. -/
structure Started where
  name : Text
  attributes : Attributes
  before : List Element

/-- The elements that tags form behind those that are done, inside those that are started. -/
def gather (started : List Started) (done : List Element) : List Tag → Option (List Element)
  | [] => if started.isEmpty then some done else none
  | .empty name attributes :: rest => gather started (done ++ [.node name attributes []]) rest
  | .opening name attributes :: rest => gather (⟨name, attributes, done⟩ :: started) [] rest
  | .closing name :: rest =>
    match started with
    | [] => none
    | last :: more =>
      if last.name = name then
        gather more (last.before ++ [.node name last.attributes done]) rest
      else none

/-- A declaration and the one element behind it. -/
structure Document where
  declaration : Attributes
  root : Element

/-- The document that a text is. -/
def readDocument : List Character → Option Document
  | .scalar '<' :: .scalar '?' :: .scalar 'x' :: .scalar 'm' :: .scalar 'l' :: rest =>
    match readAttributes rest with
    | some (declaration, .scalar '?' :: .scalar '>' :: behind) =>
      match (readTags behind).bind (gather [] []) with
      | some [root] => some ⟨declaration, root⟩
      | _ => none
    | _ => none
  | _ => none

/-! ## Escaped values -/

/-- Whether a character stands for itself in an attribute value. -/
def isPlain (c : Character) : Bool :=
  c != .scalar '&' && c != .scalar '<' && c != .scalar '>' && c != .scalar '"' &&
    c != .scalar '\''

theorem escapeMarkupChars_append
    (a b : List Character) :
    escapeMarkupChars (a ++ b) = escapeMarkupChars a ++ escapeMarkupChars b := by
  simp only [escapeMarkupChars, markupEntities, List.foldl_cons, List.foldl_nil,
    replaceChar_append]

theorem replaceChar_singleton
    {c old : Character} (h : c ≠ old) (new : List Character) :
    replaceChar old new [c] = [c] := by
  rw [replaceChar, List.flatMap_singleton, if_neg h]

theorem escapeMarkupChars_singleton
    {c : Character} (h : isPlain c = true) :
    escapeMarkupChars [c] = [c] := by
  simp only [isPlain, Bool.and_eq_true, bne_iff_ne] at h
  obtain ⟨⟨⟨⟨hamp, hlt⟩, hgt⟩, hquote⟩, hapos⟩ := h
  simp only [escapeMarkupChars, markupEntities, List.foldl_cons, List.foldl_nil,
    replaceChar_singleton hamp, replaceChar_singleton hlt, replaceChar_singleton hgt,
    replaceChar_singleton hquote, replaceChar_singleton hapos]

/-- A text without special characters is its own value. -/
theorem escapeMarkupChars_eq_self
    {cs : List Character} (h : ∀ c ∈ cs, isPlain c = true) :
    escapeMarkupChars cs = cs := by
  induction cs with
  | nil => rfl
  | cons c rest ih =>
    obtain ⟨hc, hrest⟩ := List.forall_mem_cons.mp h
    rw [← List.singleton_append, escapeMarkupChars_append, escapeMarkupChars_singleton hc, ih hrest]

/-- A character is plain or one of five. -/
theorem isPlain_or
    (c : Character) :
    isPlain c = true ∨ c = .scalar '&' ∨ c = .scalar '<' ∨ c = .scalar '>' ∨ c = .scalar '"' ∨
      c = .scalar '\'' := by
  simp only [isPlain, Bool.and_eq_true, bne_iff_ne]
  grind

theorem decode_cons
    {c : Character} (h : isPlain c = true) (rest : List Character) :
    decode (c :: rest) = (decode rest).map (c :: ·) := by
  simp only [isPlain, Bool.and_eq_true, bne_iff_ne] at h
  obtain ⟨⟨⟨⟨hamp, hlt⟩, -⟩, -⟩, -⟩ := h
  rw [decode, if_neg (by simp [hamp, hlt])]
  all_goals
    rintro _ rfl
    exact absurd rfl hamp

/-- Decoding undoes escaping. -/
theorem decode_escapeMarkupChars
    (cs : List Character) :
    decode (escapeMarkupChars cs) = some cs := by
  induction cs with
  | nil => rfl
  | cons c rest ih =>
    rw [← List.singleton_append, escapeMarkupChars_append]
    obtain hplain | rfl | rfl | rfl | rfl | rfl := isPlain_or c
    · rw [escapeMarkupChars_singleton hplain, List.singleton_append, decode_cons hplain, ih]
      rfl
    all_goals exact congrArg (Option.map (_ :: ·)) ih

/-- No escaped text contains a quote. -/
theorem quote_notMem_escapeMarkupChars
    (cs : List Character) :
    .scalar '"' ∉ escapeMarkupChars cs := by
  induction cs with
  | nil => decide
  | cons c rest ih =>
    have hc : .scalar '"' ∉ escapeMarkupChars [c] := by
      obtain hplain | rfl | rfl | rfl | rfl | rfl := isPlain_or c
      · rw [escapeMarkupChars_singleton hplain, List.mem_singleton]
        rintro rfl
        exact absurd hplain (by decide)
      all_goals decide
    rw [← List.singleton_append, escapeMarkupChars_append, List.mem_append, not_or]
    exact ⟨hc, ih⟩

/-! ## Spelled documents -/

/-- Whether a text may be the name of an element or an attribute. -/
def isName (name : Text) : Bool :=
  name.toList != [] && name.toList.all isNamePart

/-- An attribute with a blank in front. -/
def attributeChars (entry : Text × Text) : List Character :=
  .scalar ' ' :: entry.1.toList ++
    .scalar '=' :: .scalar '"' :: escapeMarkupChars entry.2.toList ++ [.scalar '"']

/-- Attributes as they stand in a tag. -/
def attributesChars (attributes : Attributes) : List Character :=
  attributes.flatMap attributeChars

/-- The text of a tag. -/
def Tag.chars : Tag → List Character
  | opening name attributes => .scalar '<' :: name.toList ++ attributesChars attributes ++ [.scalar '>']
  | closing name => .scalar '<' :: .scalar '/' :: name.toList ++ [.scalar '>']
  | empty name attributes =>
    .scalar '<' :: name.toList ++ attributesChars attributes ++
      [.scalar ' ', .scalar '/', .scalar '>']

/-- The texts are names, and no two of them are the same. -/
def areNames (names : List Text) : Bool :=
  names.all isName && decide names.Nodup

/-- A text of tags and white space spells elements. -/
inductive Spells : List Character → List Element → Prop
  | nil : Spells [] []
  | space {c : Character} {cs : List Character} {elements : List Element} (hspace : isSpace c = true)
      (hrest : Spells cs elements) :
    Spells (c :: cs) elements
  | empty {name : Text} {attributes : Attributes} {cs : List Character} {elements : List Element}
      (hname : isName name = true) (hattributes : areNames (attributes.map Prod.fst) = true)
      (hrest : Spells cs elements) :
    Spells ((Tag.empty name attributes).chars ++ cs) (.node name attributes [] :: elements)
  | nested {name : Text} {attributes : Attributes} {inner cs : List Character}
      {children elements : List Element} (hname : isName name = true)
      (hattributes : areNames (attributes.map Prod.fst) = true) (hinner : Spells inner children)
      (hrest : Spells cs elements) :
    Spells ((Tag.opening name attributes).chars ++ inner ++ (Tag.closing name).chars ++ cs)
      (.node name attributes children :: elements)

theorem Spells.append
    {a b : List Character} {front back : List Element} (ha : Spells a front) (hb : Spells b back) :
    Spells (a ++ b) (front ++ back) := by
  induction ha with
  | nil => exact hb
  | space hspace _ ih => exact .space hspace ih
  | empty hname hattributes _ ih =>
    rw [List.append_assoc]
    exact .empty hname hattributes ih
  | nested hname hattributes hinner _ _ ih =>
    rw [List.append_assoc]
    exact .nested hname hattributes hinner ih

/-! ## Reading what is spelled -/

theorem takeWhile_name
    {name : Text} (hname : isName name = true) {rest : List Character}
    (hrest : rest.head?.any isNamePart = false) :
    (name.toList ++ rest).takeWhile isNamePart = name.toList := by
  simp only [isName, Bool.and_eq_true, List.all_eq_true] at hname
  rw [List.takeWhile_append_of_pos hname.2]
  cases rest with
  | nil => exact List.append_nil _
  | cons c more =>
    rw [List.takeWhile_cons_of_neg (by simpa using hrest), List.append_nil]

/-- A name starts with a character that is no white space. -/
theorem dropWhile_name
    {name : Text} (hname : isName name = true) (rest : List Character) :
    (name.toList ++ rest).dropWhile isSpace = name.toList ++ rest ∧
      (name.toList ++ rest).head?.any isNamePart = true := by
  simp only [isName, Bool.and_eq_true, bne_iff_ne, List.all_eq_true] at hname
  obtain ⟨hnonempty, hparts⟩ := hname
  obtain ⟨c, more, hcs⟩ := List.exists_cons_of_ne_nil hnonempty
  have hc : isNamePart c = true := hparts c (hcs ▸ List.mem_cons_self)
  have hspace : isSpace c = false := by
    rw [Bool.eq_false_iff]
    intro hspace
    obtain rfl | rfl | rfl | rfl := eq_of_isSpace hspace <;> exact absurd hc (by decide)
  rw [hcs, List.cons_append, List.dropWhile_cons_of_neg (by simp [hspace])]
  exact ⟨rfl, hc⟩

theorem readAttribute_append
    {entry : Text × Text} (hname : isName entry.1 = true) (rest : List Character) :
    readAttribute ((attributeChars entry).tail ++ rest) = some (entry, rest) := by
  obtain ⟨name, value⟩ := entry
  have hvalue : (escapeMarkupChars value.toList ++ .scalar '"' :: rest).takeWhile (· ≠ .scalar '"') =
      escapeMarkupChars value.toList := by
    rw [List.takeWhile_append_of_pos, List.takeWhile_cons_of_neg (by simp), List.append_nil]
    intro c hc
    simp only [ne_eq, decide_not, Bool.not_eq_true', decide_eq_false_iff_not]
    rintro rfl
    exact quote_notMem_escapeMarkupChars _ hc
  have hchars : (attributeChars (name, value)).tail ++ rest =
      name.toList ++
        .scalar '=' :: .scalar '"' :: (escapeMarkupChars value.toList ++ .scalar '"' :: rest) := by
    simp [attributeChars]
  have hword := takeWhile_name hname
    (show (.scalar '=' :: .scalar '"' ::
        (escapeMarkupChars value.toList ++ .scalar '"' :: rest)).head?.any isNamePart =
      false from rfl)
  rw [hchars, readAttribute]
  simp only [hword, List.drop_left, hvalue, decode_escapeMarkupChars]

theorem readAttributes_append
    {attributes : Attributes} (h : ∀ entry ∈ attributes, isName entry.1 = true) {rest : List Character}
    (hrest : (rest.dropWhile isSpace).head?.any isNamePart = false) :
    readAttributes (attributesChars attributes ++ rest) =
      some (attributes, rest.dropWhile isSpace) := by
  induction attributes with
  | nil =>
    rw [attributesChars, List.flatMap_nil, List.nil_append, readAttributes_eq, hrest, Bool.and_false]
    rfl
  | cons entry more ih =>
    obtain ⟨hname, hmore⟩ := List.forall_mem_cons.mp h
    have hchars : attributesChars (entry :: more) ++ rest =
        .scalar ' ' :: ((attributeChars entry).tail ++ (attributesChars more ++ rest)) := by
      simp [attributesChars, attributeChars]
    have hinner : ((attributeChars entry).tail ++ (attributesChars more ++ rest)) =
        entry.1.toList ++
          (.scalar '=' :: .scalar '"' :: escapeMarkupChars entry.2.toList ++ [.scalar '"'] ++
          (attributesChars more ++ rest)) := by
      simp [attributeChars]
    obtain ⟨hdrop, hhead⟩ := dropWhile_name hname
      (.scalar '=' :: .scalar '"' :: escapeMarkupChars entry.2.toList ++
      [.scalar '"'] ++ (attributesChars more ++ rest))
    rw [← hinner] at hdrop hhead
    rw [hchars, readAttributes_eq, List.dropWhile_cons_of_pos (by decide), hdrop, hhead,
      List.head?_cons, Option.any_some, if_pos (by decide), readAttribute_append hname]
    simp only [ih hmore, Option.map_some]

theorem forall_isName
    {attributes : Attributes} (h : areNames (attributes.map Prod.fst) = true) :
    (∀ entry ∈ attributes, isName entry.1 = true) ∧ (attributes.map Prod.fst).Nodup := by
  rw [areNames, Bool.and_eq_true, List.all_eq_true, decide_eq_true_iff] at h
  exact ⟨fun entry hentry => h.1 _ (List.mem_map_of_mem hentry), h.2⟩

/-- A start tag is read up to where its attributes end. -/
theorem readTag_start
    {name : Text} {attributes : Attributes} (hname : isName name = true)
    (hattributes : areNames (attributes.map Prod.fst) = true) {rest : List Character}
    (hrest : (rest.dropWhile isSpace).head?.any isNamePart = false)
    (hend : rest.head?.any isNamePart = false) :
    readTag (.scalar '<' :: name.toList ++ attributesChars attributes ++ rest) =
      match rest.dropWhile isSpace with
      | .scalar '>' :: behind => some (.opening name attributes, behind)
      | .scalar '/' :: .scalar '>' :: behind => some (.empty name attributes, behind)
      | _ => none := by
  obtain ⟨hnames, hnodup⟩ := forall_isName hattributes
  have htail : (attributesChars attributes ++ rest).head?.any isNamePart = false := by
    cases attributes with
    | nil => exact hend
    | cons entry more => rfl
  have hword := takeWhile_name hname htail
  have hnonempty : name.toList ≠ [] := by
    simp only [isName, Bool.and_eq_true, bne_iff_ne] at hname
    exact hname.1
  rw [List.cons_append, List.cons_append, List.append_assoc, readTag]
  · simp only [hword, List.drop_left, readAttributes_append hnames hrest, hnonempty, hnodup,
      not_true_eq_false, or_self, if_false]
  · -- An end tag would start with a slash, which is no part of a name.
    intro more hslash
    obtain ⟨-, hhead⟩ := dropWhile_name hname (attributesChars attributes ++ rest)
    rw [hslash] at hhead
    exact absurd hhead Bool.false_ne_true

/-- Every tag is read as itself. -/
theorem readTag_append
    {name : Text} {attributes : Attributes} (hname : isName name = true)
    (hattributes : areNames (attributes.map Prod.fst) = true) (rest : List Character) :
    readTag ((Tag.opening name attributes).chars ++ rest) =
        some (.opening name attributes, rest) ∧
      readTag ((Tag.empty name attributes).chars ++ rest) = some (.empty name attributes, rest) ∧
      readTag ((Tag.closing name).chars ++ rest) = some (.closing name, rest) := by
  refine ⟨?_, ?_, ?_⟩
  · rw [Tag.chars, List.append_assoc]
    exact readTag_start hname hattributes rfl rfl
  · rw [Tag.chars, List.append_assoc]
    exact readTag_start hname hattributes rfl rfl
  · have hchars : (Tag.closing name).chars ++ rest =
        .scalar '<' :: .scalar '/' :: (name.toList ++ .scalar '>' :: rest) := by
      simp [Tag.chars]
    have hword := takeWhile_name hname
      (show (.scalar '>' :: rest).head?.any isNamePart = false from rfl)
    rw [hchars, readTag]
    simp only [hword, List.drop_left]

theorem readTags_cons
    {tag : Tag} {cs rest : List Character} (hhead : cs.head? = some (.scalar '<'))
    (h : readTag (cs ++ rest) = some (tag, rest)) :
    readTags (cs ++ rest) = (readTags rest).map (tag :: ·) := by
  obtain ⟨more, rfl⟩ := List.head?_eq_some_iff.mp hhead
  rw [readTags_eq, List.cons_append, List.dropWhile_cons_of_neg (by decide), ← List.cons_append,
    if_neg (by simp), h]

theorem readTags_space
    {c : Character} (hc : isSpace c = true) (cs : List Character) :
    readTags (c :: cs) = readTags cs := by
  rw [readTags_eq, readTags_eq cs, List.dropWhile_cons_of_pos hc]

/-- Elements that are spelled are read as their tags, which form them wherever they stand. -/
theorem Spells.exists_tags
    {cs : List Character} {elements : List Element} (h : Spells cs elements) :
    ∃ tags, (∀ rest, readTags (cs ++ rest) = (readTags rest).map (tags ++ ·)) ∧
      ∀ started done rest, gather started done (tags ++ rest) =
        gather started (done ++ elements) rest := by
  induction h with
  | nil =>
    refine ⟨[], fun rest => ?_, fun started done rest => ?_⟩
    · simp
    · simp
  | space hspace _ ih =>
    obtain ⟨tags, hread, hgather⟩ := ih
    refine ⟨tags, fun rest => ?_, hgather⟩
    rw [List.cons_append, readTags_space hspace, hread]
  | @empty name attributes cs elements hname hattributes _ ih =>
    obtain ⟨tags, hread, hgather⟩ := ih
    refine ⟨.empty name attributes :: tags, fun rest => ?_, fun started done rest => ?_⟩
    · obtain ⟨-, htag, -⟩ := readTag_append hname hattributes (cs ++ rest)
      rw [List.append_assoc, readTags_cons rfl htag, hread, Option.map_map]
      rfl
    · rw [List.cons_append, gather, hgather, List.append_assoc]
      rfl
  | @nested name attributes inner cs children elements hname hattributes _ _ ihInner ihRest =>
    obtain ⟨innerTags, hreadInner, hgatherInner⟩ := ihInner
    obtain ⟨tags, hread, hgather⟩ := ihRest
    refine ⟨.opening name attributes :: (innerTags ++ .closing name :: tags), fun rest => ?_,
      fun started done rest => ?_⟩
    · obtain ⟨hopening, -, -⟩ := readTag_append hname hattributes
        (inner ++ ((Tag.closing name).chars ++ (cs ++ rest)))
      obtain ⟨-, -, hclosing⟩ := readTag_append hname hattributes (cs ++ rest)
      simp only [List.append_assoc]
      rw [readTags_cons rfl hopening, hreadInner, readTags_cons rfl hclosing, hread,
        Option.map_map, Option.map_map, Option.map_map]
      congr 1
      funext more
      simp
    · simp only [List.cons_append, List.append_assoc, gather, hgatherInner, if_true, hgather,
        List.nil_append]

/-- A document that is spelled is read back. -/
theorem readDocument_append
    {declaration : Attributes} (hdeclaration : ∀ entry ∈ declaration, isName entry.1 = true)
    {cs : List Character} {root : Element} (h : Spells cs [root]) :
    readDocument (scalars "<?xml".toList ++ attributesChars declaration ++ scalars "?>".toList ++ cs) =
      some ⟨declaration, root⟩ := by
  obtain ⟨tags, hread, hgather⟩ := h.exists_tags
  have htags : readTags cs = some tags := by
    have hnil : readTags [] = some [] := by
      rw [readTags]
      rfl
    simpa [hnil] using hread []
  have hroot : gather [] [] tags = some [root] := by
    simpa [gather] using hgather [] [] []
  have hattributes := readAttributes_append hdeclaration
    (show ((.scalar '?' :: .scalar '>' :: cs).dropWhile isSpace).head?.any isNamePart = false from rfl)
  simp only [List.append_assoc]
  change (match readAttributes (attributesChars declaration ++ .scalar '?' :: .scalar '>' :: cs) with
    | some (declaration, .scalar '?' :: .scalar '>' :: behind) =>
      match (readTags behind).bind (gather [] []) with
      | some [root] => some (Document.mk declaration root)
      | _ => none
    | _ => none) = _
  rw [hattributes, List.dropWhile_cons_of_neg (by decide)]
  simp only [htags, Option.bind_some, hroot]

end EntityDiagram.Text.Markup
