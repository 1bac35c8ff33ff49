import EntityDiagram.Proofs.Render.LineStructure

/-!
# Reading back the blocks of D2 text

A block is read line by line as keys and texts. A key is a plain name, or stands between double quotes,
and there a backslash escapes a quote or another backslash. The names of attributes are written
between quotes as they are. So a name is read back exactly if nothing in it is an escape, a quote or a
line break to the reader; then every attribute has one line. The key of the line for the shape is a
plain name too, and an attribute may have the same.
-/

namespace EntityDiagram.Render.D2

open Model (Attribute Diagram Entity)
open Text (breaks breaks_eq_zero_iff lines)

/-! ## A reader for blocks -/

/-- A key, as it is spelled. -/
inductive Key where
  | bare (name : List Character)
  | quoted (name : List Character)
  deriving DecidableEq, Repr

/-- The name that a key stands for. -/
def Key.name : Key → List Character
  | bare name | quoted name => name

/-- A line inside a block. -/
structure Entry where
  key : Key
  text : List Character
  deriving DecidableEq, Repr

/-- What a block says. -/
structure Block where
  name : List Character
  entries : List Entry
  deriving DecidableEq, Repr

/-- A result with one more character in front of what was read. -/
def prepended (c : Character) :
    Option (List Character × List Character) → Option (List Character × List Character)
  | none => none
  | some (name, behind) => some (c :: name, behind)

/-- What stands in front of the closing quote, and what stands behind it. A backslash in front of a
quote or of a backslash is an escape, and an ordinary character otherwise. -/
def readQuoted : List Character → Option (List Character × List Character)
  | [] => none
  | .scalar '"' :: rest => some ([], rest)
  | .scalar '\\' :: .scalar '"' :: rest => prepended '"' (readQuoted rest)
  | .scalar '\\' :: .scalar '\\' :: rest => prepended '\\' (readQuoted rest)
  | c :: rest => prepended c (readQuoted rest)

/-- An ASCII letter or an underscore, and others or ASCII digits behind it. -/
def isBareName : List Character → Bool
  | [] => false
  | first :: rest => (first.isIn Char.isAlpha || first == .scalar '_') && rest.all Mermaid.isPlain

/-- A key, and what stands behind it. -/
def readKey : List Character → Option (Key × List Character)
  | .scalar '"' :: rest => (readQuoted rest).map fun (name, behind) => (.quoted name, behind)
  | cs =>
    if isBareName (cs.takeWhile Mermaid.isPlain) then
      some (.bare (cs.takeWhile Mermaid.isPlain), cs.dropWhile Mermaid.isPlain)
    else none

/-- A line inside a block: two spaces, a key, a colon, a space and a text. -/
def readEntry : List Character → Option Entry
  | .scalar ' ' :: .scalar ' ' :: line =>
    match readKey line with
    | some (key, .scalar ':' :: .scalar ' ' :: text) => some ⟨key, text⟩
    | _ => none
  | _ => none

/-- The lines up to the closing brace, and the lines behind it. -/
def readEntries : List (List Character) → Option (List Entry × List (List Character))
  | [] => none
  | line :: rest =>
    if line = [.scalar '\x7d'] then some ([], rest)
    else
      match readEntry line, readEntries rest with
      | some entry, some (entries, behind) => some (entry :: entries, behind)
      | _, _ => none

/-- A block, and the lines behind it. The name stands in front of a colon, a space and the opening
brace. -/
def readBlock : List (List Character) → Option (Block × List (List Character))
  | [] => none
  | header :: rest =>
    if [.scalar ':', .scalar ' ', .scalar '\x7b'].isSuffixOf header then
      (readEntries rest).map fun (entries, behind) =>
        (⟨header.take (header.length - 3), entries⟩, behind)
    else none

/-! ## What a block should say -/

/-- Between quotes the text stands for itself: there is no quote in it, and behind every backslash
there is a character other than a backslash. -/
inductive IsVerbatim : List Character → Prop
  | nil : IsVerbatim []
  | plain {c : Character} {rest : List Character} (hquote : c ≠ .scalar '"')
      (hslash : c ≠ .scalar '\\') (h : IsVerbatim rest) :
    IsVerbatim (c :: rest)
  | slash {c : Character} {rest : List Character} (hslash : c ≠ .scalar '\\')
      (h : IsVerbatim (c :: rest)) :
    IsVerbatim (.scalar '\\' :: c :: rest)

/-- The name can be read back. -/
structure IsLegible (name : List Character) : Prop where
  oneLine : .scalar '\n' ∉ name
  verbatim : IsVerbatim name

/-- The text of the line of an attribute: its type, and the constraint of its key. -/
def fieldText (options : D2Options) (field : Attribute) : List Character :=
  (typeText field.type ++
    match if options.showConstraints then field.key.bind constraint? else none with
    | some text => (" \x7bconstraint: " ++ text ++ "\x7d" : Text)
    | none => "").toList

/-- The line of an attribute, with its name as the key. -/
def fieldEntry (options : D2Options) (field : Attribute) : Entry :=
  let name := field.name.toList
  ⟨if isBareName name then .bare name else .quoted name, fieldText options field⟩

/-- The line of the shape, and one line for every attribute. -/
def blockOf (options : D2Options) (entity : Entity) : Block where
  name := entity.name.toList
  entries := ⟨.bare ("shape" : Text).toList, (options.shape : Text).toList⟩ ::
    entity.attributes.map (fieldEntry options)

theorem name_key_fieldEntry
    (options : D2Options) (field : Attribute) :
    (fieldEntry options field).key.name = field.name.toList := by
  unfold fieldEntry
  dsimp only
  split <;> rfl

/-! ## Quoted names -/

theorem prepended_eq_some_iff
    {c : Character} {read : Option (List Character × List Character)} {name behind : List Character} :
    prepended c read = some (name, behind) ↔ ∃ rest, read = some (rest, behind) ∧ name = c :: rest := by
  cases read with
  | none => simp [prepended]
  | some read => grind [prepended]

theorem IsVerbatim.ne_quote
    {c : Character} {rest : List Character} (h : IsVerbatim (c :: rest)) :
    c ≠ .scalar '"' := by
  cases h with
  | plain hquote => exact hquote
  | slash => decide

theorem readQuoted_of_isVerbatim
    {name : List Character} (h : IsVerbatim name) (behind : List Character) :
    readQuoted (name ++ .scalar '"' :: behind) = some (name, behind) := by
  induction h with
  | nil => rfl
  | plain hquote hslash _ ih =>
    rw [List.cons_append, readQuoted, ih]
    · rfl
    · exact hquote
    · exact fun _ h => absurd h hslash
    · exact fun _ h => absurd h hslash
  | @slash c rest hslash h ih =>
    rw [List.cons_append, readQuoted, ih]
    · rfl
    · decide
    · exact fun _ _ hc => h.ne_quote (List.cons.inj hc).1
    · exact fun _ _ hc => hslash (List.cons.inj hc).1

/-- A name is not longer than its spelling, and the same only if it is verbatim. -/
theorem exists_spelling_of_readQuoted
    {cs name behind : List Character} (h : readQuoted cs = some (name, behind)) :
    ∃ spelling, cs = spelling ++ .scalar '"' :: behind ∧ name.length ≤ spelling.length ∧
      (name = spelling → IsVerbatim name) := by
  fun_induction readQuoted cs generalizing name with
  | case1 => cases h
  | case2 rest =>
    obtain ⟨rfl, rfl⟩ := Prod.mk.inj (Option.some.inj h)
    exact ⟨[], rfl, Nat.le_refl _, fun _ => .nil⟩
  -- An escape is one character longer than what it stands for.
  | case3 rest ih =>
    obtain ⟨name, hread, rfl⟩ := prepended_eq_some_iff.mp h
    obtain ⟨spelling, rfl, hlength, -⟩ := ih hread
    refine ⟨.scalar '\\' :: .scalar '"' :: spelling, rfl,
      by simp only [List.length_cons]; omega, fun hsame => ?_⟩
    exact absurd (List.cons.inj hsame).1 (by decide)
  | case4 rest ih =>
    obtain ⟨name, hread, rfl⟩ := prepended_eq_some_iff.mp h
    obtain ⟨spelling, rfl, hlength, -⟩ := ih hread
    refine ⟨.scalar '\\' :: .scalar '\\' :: spelling, rfl,
      by simp only [List.length_cons]; omega, fun hsame => ?_⟩
    obtain rfl := (List.cons.inj hsame).2
    rw [List.length_cons] at hlength
    omega
  | case5 c rest hclosing hquote hslash ih =>
    obtain ⟨name, hread, rfl⟩ := prepended_eq_some_iff.mp h
    obtain ⟨spelling, rfl, hlength, hverbatim⟩ := ih hread
    refine ⟨c :: spelling, rfl, Nat.succ_le_succ hlength, fun hsame => ?_⟩
    obtain rfl := (List.cons.inj hsame).2
    have hname := hverbatim rfl
    by_cases hc : c = .scalar '\\'
    · subst hc
      cases name with
      | nil => exact absurd rfl (hquote behind rfl)
      | cons d name => exact .slash (fun hd => hslash _ rfl (congrArg (· :: _) hd)) hname
    · exact .plain hclosing hc hname

theorem readQuoted_eq_some_iff
    {name behind : List Character} :
    readQuoted (name ++ .scalar '"' :: behind) = some (name, behind) ↔ IsVerbatim name := by
  refine ⟨fun h => ?_, fun h => readQuoted_of_isVerbatim h behind⟩
  obtain ⟨spelling, hsame, -, hverbatim⟩ := exists_spelling_of_readQuoted h
  exact hverbatim (List.append_cancel_right hsame)

instance (name : List Character) : Decidable (IsVerbatim name) :=
  decidable_of_iff (readQuoted (name ++ [.scalar '"']) = some (name, [])) readQuoted_eq_some_iff

instance (name : List Character) : Decidable (IsLegible name) :=
  decidable_of_iff (.scalar '\n' ∉ name ∧ IsVerbatim name)
    ⟨fun h => ⟨h.1, h.2⟩, fun h => ⟨h.oneLine, h.verbatim⟩⟩

theorem mem_of_mem_readQuoted
    {cs name behind : List Character} (h : readQuoted cs = some (name, behind)) :
    ∀ c ∈ name, c ∈ cs := by
  fun_induction readQuoted cs generalizing name with
  | case1 => cases h
  | case2 rest =>
    obtain ⟨rfl, rfl⟩ := Prod.mk.inj (Option.some.inj h)
    exact nofun
  | case3 rest ih | case4 rest ih | case5 c rest _ _ _ ih =>
    obtain ⟨name, hread, rfl⟩ := prepended_eq_some_iff.mp h
    have hname := ih hread
    simp only [List.mem_cons]
    grind

/-! ## Keys -/

theorem isIdentifier_eq_isBareName
    (cs : List Character) :
    Mermaid.isIdentifier cs = isBareName (Mermaid.withoutFinalBreak cs) := by
  unfold Mermaid.isIdentifier
  cases Mermaid.withoutFinalBreak cs <;> rfl

theorem isPlain_of_isBareName
    {name : List Character} (h : isBareName name = true) :
    ∀ c ∈ name, Mermaid.isPlain c = true := by
  have hname : Mermaid.withoutFinalBreak (name ++ [.scalar '\n']) = name := by
    simp [Mermaid.withoutFinalBreak]
  have hidentifier : Mermaid.isIdentifier (name ++ [.scalar '\n']) = true := by
    rw [isIdentifier_eq_isBareName, hname, h]
  exact hname ▸ Mermaid.isPlain_of_isIdentifier hidentifier

theorem IsVerbatim.of_isPlain
    {name : List Character} (h : ∀ c ∈ name, Mermaid.isPlain c = true) :
    IsVerbatim name := by
  induction name with
  | nil => exact .nil
  | cons c name ih =>
    obtain ⟨hc, hname⟩ := List.forall_mem_cons.mp h
    exact .plain (Mermaid.ne_of_isPlain hc (by decide)) (Mermaid.ne_of_isPlain hc (by decide))
      (ih hname)

theorem IsLegible.of_isBareName
    {name : List Character} (h : isBareName name = true) :
    IsLegible name where
  oneLine := Mermaid.newline_notMem_of_isPlain (isPlain_of_isBareName h)
  verbatim := .of_isPlain (isPlain_of_isBareName h)

theorem readKey_bare
    {name : List Character} (h : isBareName name = true) (behind : List Character) :
    readKey (name ++ .scalar ':' :: behind) = some (.bare name, .scalar ':' :: behind) := by
  have hplain := isPlain_of_isBareName h
  have hcolon : ¬Mermaid.isPlain ':' = true := by decide
  have hname : (name ++ .scalar ':' :: behind).takeWhile Mermaid.isPlain = name := by
    rw [List.takeWhile_append_of_pos hplain, List.takeWhile_cons_of_neg hcolon, List.append_nil]
  have hbehind : (name ++ .scalar ':' :: behind).dropWhile Mermaid.isPlain = .scalar ':' :: behind := by
    rw [List.dropWhile_append_of_pos hplain, List.dropWhile_cons_of_neg hcolon]
  have hquote : ∀ rest, name ++ .scalar ':' :: behind ≠ .scalar '"' :: rest := by
    intro rest hsame
    cases name with
    | nil => exact absurd (List.cons.inj hsame).1 (by decide)
    | cons first name =>
      exact Mermaid.ne_of_isPlain (hplain first List.mem_cons_self) (by decide) (List.cons.inj hsame).1
  rw [readKey, hname, hbehind, if_pos h]
  exact hquote

theorem mem_of_mem_readKey
    {cs behind : List Character} {key : Key} (h : readKey cs = some (key, behind)) :
    ∀ c ∈ key.name, c ∈ cs := by
  unfold readKey at h
  split at h
  · obtain ⟨⟨name, _⟩, hread, hkey⟩ := Option.map_eq_some_iff.mp h
    obtain ⟨rfl, -⟩ := Prod.mk.inj hkey
    exact fun c hc => List.mem_cons_of_mem _ (mem_of_mem_readQuoted hread c hc)
  · split_ifs at h
    obtain ⟨rfl, -⟩ := Prod.mk.inj (Option.some.inj h)
    exact (List.takeWhile_prefix _).subset

/-! ## Lines of attributes -/

theorem readEntry_eq_some_iff
    {line : List Character} {entry : Entry} :
    readEntry line = some entry ↔ ∃ rest, line = .scalar ' ' :: .scalar ' ' :: rest ∧
      readKey rest = some (entry.key, .scalar ':' :: .scalar ' ' :: entry.text) := by
  constructor
  · intro h
    unfold readEntry at h
    split at h
    · rename_i rest
      split at h
      · rename_i hkey
        obtain rfl := Option.some.inj h
        exact ⟨rest, rfl, hkey⟩
      · cases h
    · cases h
  · rintro ⟨rest, rfl, hkey⟩
    simp only [readEntry, hkey]

theorem toList_attributeLine
    (options : D2Options) (field : Attribute) :
    (attributeLine options field).toList =
      .scalar ' ' :: .scalar ' ' ::
        ((quoteName field.name).toList ++ .scalar ':' :: .scalar ' ' :: fieldText options field) := by
  have hindent : ("  " : Text).toList = [.scalar ' ', .scalar ' '] := by decide
  have hcolon : (": " : Text).toList = [.scalar ':', .scalar ' '] := by decide
  simp only [attributeLine, fieldText, Text.toList_append, hindent, hcolon, List.append_assoc]
  rfl

theorem toList_quoteName
    {name : Text} (h : .scalar '\n' ∉ name.toList) :
    (quoteName name).toList =
      if isBareName name.toList then name.toList else .scalar '"' :: name.toList ++ [.scalar '"'] := by
  have hquote : ("\"" : Text).toList = [.scalar '"'] := by decide
  have hlast : name.toList.getLast? ≠ some (.scalar '\n') := fun hlast =>
    h (List.mem_of_getLast? hlast)
  rw [quoteName, isIdentifier_eq_isBareName, Mermaid.withoutFinalBreak, if_neg hlast]
  split
  · rfl
  · simp only [Text.toList_append, hquote]
    rfl

/-- The line of an attribute without a line break in its name is read back if the name is legible. -/
theorem readEntry_attributeLine_iff
    (options : D2Options) {field : Attribute} (h : .scalar '\n' ∉ field.name.toList) :
    readEntry (attributeLine options field).toList = some (fieldEntry options field) ↔
      IsLegible field.name.toList := by
  have hkey : readEntry (attributeLine options field).toList = some (fieldEntry options field) ↔
      readKey ((quoteName field.name).toList ++ .scalar ':' :: .scalar ' ' :: fieldText options field) =
        some ((fieldEntry options field).key,
          .scalar ':' :: .scalar ' ' :: fieldText options field) := by
    rw [readEntry_eq_some_iff, toList_attributeLine]
    exact ⟨fun ⟨_, hline, hkey⟩ => (List.cons.inj (List.cons.inj hline).2).2 ▸ hkey,
      fun hkey => ⟨_, rfl, hkey⟩⟩
  rw [hkey, toList_quoteName h]
  by_cases hbare : isBareName field.name.toList = true
  · have hentry : (fieldEntry options field).key = .bare field.name.toList := if_pos hbare
    rw [if_pos hbare, hentry]
    exact ⟨fun _ => .of_isBareName hbare, fun _ => readKey_bare hbare _⟩
  · have hentry : (fieldEntry options field).key = .quoted field.name.toList := if_neg hbare
    rw [if_neg hbare, hentry, List.cons_append, List.cons_append, List.append_assoc, readKey]
    rw [Option.map_eq_some_iff]
    constructor
    · rintro ⟨⟨name, behind⟩, hread, hsame⟩
      obtain ⟨hname, rfl⟩ := Prod.mk.inj hsame
      obtain rfl := Key.quoted.inj hname
      exact ⟨h, readQuoted_eq_some_iff.mp hread⟩
    · intro hlegible
      exact ⟨_, readQuoted_eq_some_iff.mpr hlegible.verbatim, rfl⟩

/-! ## Blocks -/

theorem newline_notMem_of_readEntry
    {options : D2Options} {field : Attribute} {line : List Character} (hline : .scalar '\n' ∉ line)
    (h : readEntry line = some (fieldEntry options field)) :
    .scalar '\n' ∉ field.name.toList := by
  obtain ⟨rest, rfl, hkey⟩ := readEntry_eq_some_iff.mp h
  intro hmem
  rw [← name_key_fieldEntry options] at hmem
  have hrest := mem_of_mem_readKey hkey _ hmem
  exact hline (List.mem_cons_of_mem _ (List.mem_cons_of_mem _ hrest))

theorem fieldLines_of_notMem
    (options : D2Options) {field : Attribute} (hfield : field.IsOneLine)
    (h : .scalar '\n' ∉ field.name.toList) :
    fieldLines options field = [(attributeLine options field).toList] := by
  rw [fieldLines]
  apply Text.lines_of_breaks
  rw [breaks_attributeLine options hfield, breaks_eq_zero_iff]
  exact h

theorem readEntries_cons_eq_some_iff
    {line : List Character} {rest behind : List (List Character)} {entry : Entry} {entries : List Entry} :
    readEntries (line :: rest) = some (entry :: entries, behind) ↔
      line ≠ [.scalar '\x7d'] ∧ readEntry line = some entry ∧
        readEntries rest = some (entries, behind) := by
  rw [readEntries]
  by_cases hclose : line = [.scalar '\x7d']
  · rw [if_pos hclose]
    exact ⟨nofun, fun h => absurd hclose h.1⟩
  · rw [if_neg hclose]
    cases readEntry line <;> cases readEntries rest <;> grind

theorem readEntries_fields_iff
    (options : D2Options) (behind : List (List Character)) {fields : List Attribute}
    (hfields : ∀ field ∈ fields, field.IsOneLine) :
    readEntries (fields.flatMap (fieldLines options) ++ [.scalar '\x7d'] :: behind) =
        some (fields.map (fieldEntry options), behind) ↔
      ∀ field ∈ fields, IsLegible field.name.toList := by
  induction fields with
  | nil => exact ⟨fun _ => List.forall_mem_nil _, fun _ => if_pos rfl⟩
  | cons field fields ih =>
    obtain ⟨hfield, hrest⟩ := List.forall_mem_cons.mp hfields
    rw [List.flatMap_cons, List.append_assoc, List.map_cons, List.forall_mem_cons, ← ih hrest]
    obtain ⟨line, more, hlines⟩ :=
      List.exists_cons_of_ne_nil (Text.lines_ne_nil (attributeLine options field).toList)
    -- The first line cuts a name with a line break off, so it cannot say the name.
    by_cases hname : .scalar '\n' ∈ field.name.toList
    · have hline : .scalar '\n' ∉ line :=
        Text.newline_notMem_of_mem_lines (hlines ▸ List.mem_cons_self)
      rw [fieldLines, hlines, List.cons_append, readEntries_cons_eq_some_iff]
      exact ⟨fun h => absurd hname (newline_notMem_of_readEntry hline h.2.1),
        fun h => absurd hname h.1.oneLine⟩
    · have hclose : (attributeLine options field).toList ≠ [.scalar '\x7d'] := by
        rw [toList_attributeLine]
        intro h
        cases h
      rw [fieldLines_of_notMem options hfield hname, List.cons_append, List.nil_append]
      rw [readEntries_cons_eq_some_iff, readEntry_attributeLine_iff options hname]
      exact and_iff_right hclose

theorem readBlock_cons_eq_some_iff
    {name : List Character} {rest behind : List (List Character)} {entries : List Entry} :
    readBlock ((name ++ [.scalar ':', .scalar ' ', .scalar '\x7b']) :: rest) =
        some (⟨name, entries⟩, behind) ↔
      readEntries rest = some (entries, behind) := by
  have hopen : List.isSuffixOf [.scalar ':', .scalar ' ', .scalar '\x7b']
      (name ++ [.scalar ':', .scalar ' ', .scalar '\x7b']) = true :=
    List.isSuffixOf_iff_suffix.mpr (List.suffix_append _ _)
  have hname : ∀ mark : List Character, mark.length = 3 →
      (name ++ mark).take ((name ++ mark).length - 3) = name := by
    intro mark hmark
    simp [hmark]
  rw [readBlock, if_pos hopen, hname _ rfl]
  cases readEntries rest <;> simp [Prod.ext_iff]

theorem readEntry_shape
    (shape : List Character) :
    readEntry (("  shape: " : Text).toList ++ shape) =
      some ⟨.bare ("shape" : Text).toList, shape⟩ := by
  rw [readEntry_eq_some_iff]
  have hline : ("  shape: " : Text).toList = .scalar ' ' :: .scalar ' ' ::
      (("shape" : Text).toList ++ [.scalar ':', .scalar ' ']) := by decide
  refine ⟨("shape" : Text).toList ++ .scalar ':' :: .scalar ' ' :: shape, ?_,
    readKey_bare (by decide) _⟩
  rw [hline]
  simp only [List.cons_append, List.append_assoc, List.nil_append]

/-- A block is read back if and only if the names of all attributes are legible. -/
theorem readBlock_blockLines_iff
    (options : D2Options) {entity : Entity} (hentity : entity.IsNamed)
    (behind : List (List Character)) :
    readBlock (blockLines options entity ++ behind) =
        some (blockOf options entity, [] :: behind) ↔
      ∀ field ∈ entity.attributes, IsLegible field.name.toList := by
  have hfields := readEntries_fields_iff options ([] :: behind) hentity.attributes
  have hclose : ("\x7d" : Text).toList = [.scalar '\x7d'] := by decide
  have hopen : (": \x7b" : Text).toList = [.scalar ':', .scalar ' ', .scalar '\x7b'] := by decide
  have hshape : ("  shape: " ++ options.shape : Text).toList ≠ [.scalar '\x7d'] := by
    rw [Text.toList_append]
    exact nofun
  rw [blockLines, Text.toList_append, hopen, hclose, List.cons_append, List.cons_append]
  rw [List.cons_append, blockOf, readBlock_cons_eq_some_iff, List.cons_append]
  rw [readEntries_cons_eq_some_iff, List.append_assoc]
  rw [and_iff_right hshape, and_iff_right (Text.toList_append _ _ ▸ readEntry_shape _)]
  exact hfields

theorem key_fieldEntry_eq_shape_iff
    (options : D2Options) (field : Attribute) :
    (fieldEntry options field).key = .bare ("shape" : Text).toList ↔ field.name = "shape" := by
  constructor
  · intro h
    rw [← Text.toList_inj, ← name_key_fieldEntry options field, h]
    rfl
  · intro h
    have hbare : isBareName ("shape" : Text).toList = true := by decide
    simp only [fieldEntry, h, if_pos hbare]

/-- The D2 text of a diagram that was read, with attributes, has the lines of its blocks. The block of an
entity is read back as the line of the shape and one line for every attribute if and only if the names of
the attributes have no line break, no quote, no pair of backslashes and no backslash at the end. Then the
keys are the names, and the key of the shape comes again for an attribute of that name and for no
other. -/
theorem readBlock_ofText
    {fileName text : String} {diagram : Diagram}
    (hdiagram : Diagram.ofText fileName text = .ok diagram) {formatName : String}
    {given : Option Options} {renderer : Renderer}
    (hrenderer : Renderer.create formatName given = .ok renderer) {options : D2Options}
    (hoptions : renderer.options = .d2 options) (hshown : options.showProperties = true)
    (engine : Layout.DrawingEngine) (now : String) :
    ∃ output blanks, renderer.render engine now diagram = .ok output ∧
      (∀ c ∈ blanks, c.isIn Text.isBlank = true) ∧
      lines (output.toList ++ blanks) =
        ("direction: " ++ options.direction : Text).toList :: [] ::
          (diagram.entities.flatMap (blockLines options) ++
            diagram.relationships.flatMap linkLines) ∧
      ∀ entity ∈ diagram.entities,
        (∀ behind, readBlock (blockLines options entity ++ behind) =
            some (blockOf options entity, [] :: behind) ↔
          ∀ field ∈ entity.attributes, IsLegible field.name.toList) ∧
        ∀ field ∈ entity.attributes,
          (fieldEntry options field).key.name = field.name.toList ∧
            ((fieldEntry options field).key = .bare ("shape" : Text).toList ↔ field.name = "shape") := by
  have hnamed := Diagram.isNamed_of_ofText hdiagram
  have hvalid := Renderer.fault?_of_create hrenderer
  rw [hoptions] at hvalid
  obtain ⟨blanks, hblanks, hlines⟩ := (hasLines_render hvalid hnamed).lines_eq
  rw [if_pos hshown] at hlines
  refine ⟨render options diagram, blanks, ?_, hblanks, hlines, fun entity hentity => ?_⟩
  · rw [Renderer.render, hoptions]
  · refine ⟨readBlock_blockLines_iff options (hnamed.entities entity hentity), fun field _ => ?_⟩
    exact ⟨name_key_fieldEntry options field, key_fieldEntry_eq_shape_iff options field⟩

/-- The name of an attribute is that of the shape, and another one is a quote. -/
def quotedText : String :=
  "interface A \x7b shape \x7d interface B \x7b '\"' \x7d"

def quotedTokens : List Source.Token :=
  [⟨.ident "interface", ⟨⟨1, 1⟩, false, []⟩⟩, ⟨.ident "A", ⟨⟨1, 11⟩, false, []⟩⟩,
    ⟨.punct "\x7b", ⟨⟨1, 13⟩, false, []⟩⟩, ⟨.ident "shape", ⟨⟨1, 15⟩, false, []⟩⟩,
    ⟨.punct "\x7d", ⟨⟨1, 21⟩, false, []⟩⟩, ⟨.ident "interface", ⟨⟨1, 23⟩, false, []⟩⟩,
    ⟨.ident "B", ⟨⟨1, 33⟩, false, []⟩⟩, ⟨.punct "\x7b", ⟨⟨1, 35⟩, false, []⟩⟩,
    ⟨.string "\"", ⟨⟨1, 37⟩, false, []⟩⟩, ⟨.punct "\x7d", ⟨⟨1, 41⟩, false, []⟩⟩]

theorem tokens_quotedText :
    Source.TokenStream.ofText quotedText = .ok ⟨quotedTokens, ⟨⟨1, 42⟩, false, []⟩⟩ := by
  have hkeyword : Source.readGap ⟨.start, false, []⟩
      "interface A \x7b shape \x7d interface B \x7b '\"' \x7d".toList =
        .ok (⟨⟨1, 1⟩, false, []⟩, "interface A \x7b shape \x7d interface B \x7b '\"' \x7d".toList) := by cbv
  have hname : Source.readGap ⟨⟨1, 10⟩, false, []⟩
      " A \x7b shape \x7d interface B \x7b '\"' \x7d".toList =
        .ok (⟨⟨1, 11⟩, false, []⟩, "A \x7b shape \x7d interface B \x7b '\"' \x7d".toList) := by cbv
  have hopen : Source.readGap ⟨⟨1, 12⟩, false, []⟩
      " \x7b shape \x7d interface B \x7b '\"' \x7d".toList =
        .ok (⟨⟨1, 13⟩, false, []⟩, "\x7b shape \x7d interface B \x7b '\"' \x7d".toList) := by cbv
  have hfield : Source.readGap ⟨⟨1, 14⟩, false, []⟩
      " shape \x7d interface B \x7b '\"' \x7d".toList =
        .ok (⟨⟨1, 15⟩, false, []⟩, "shape \x7d interface B \x7b '\"' \x7d".toList) := by cbv
  have hclose : Source.readGap ⟨⟨1, 20⟩, false, []⟩ " \x7d interface B \x7b '\"' \x7d".toList =
      .ok (⟨⟨1, 21⟩, false, []⟩, "\x7d interface B \x7b '\"' \x7d".toList) := by cbv
  have hsecond : Source.readGap ⟨⟨1, 22⟩, false, []⟩ " interface B \x7b '\"' \x7d".toList =
      .ok (⟨⟨1, 23⟩, false, []⟩, "interface B \x7b '\"' \x7d".toList) := by cbv
  have hsecondName : Source.readGap ⟨⟨1, 32⟩, false, []⟩ " B \x7b '\"' \x7d".toList =
      .ok (⟨⟨1, 33⟩, false, []⟩, "B \x7b '\"' \x7d".toList) := by cbv
  have hsecondOpen : Source.readGap ⟨⟨1, 34⟩, false, []⟩ " \x7b '\"' \x7d".toList =
      .ok (⟨⟨1, 35⟩, false, []⟩, "\x7b '\"' \x7d".toList) := by cbv
  have hsecondField : Source.readGap ⟨⟨1, 36⟩, false, []⟩ " '\"' \x7d".toList =
      .ok (⟨⟨1, 37⟩, false, []⟩, "'\"' \x7d".toList) := by cbv
  have hquote : Source.readLexeme (some (.punct "\x7b")) ⟨1, 37⟩ '\'' "\"' \x7d".toList =
      .ok ⟨.string "\"", ⟨1, 37⟩, ⟨1, 40⟩, " \x7d".toList⟩ := by
    have hread : Source.readString '\'' "\"' \x7d".toList =
        .ok (("\"" : Text).toList, " \x7d".toList) := by
      simp [Source.readString, Except.map, Source.prepend]
    rw [Source.readLexeme_quote (.inl rfl) hread]
    rfl
  have hsecondClose : Source.readGap ⟨⟨1, 40⟩, false, []⟩ " \x7d".toList =
      .ok (⟨⟨1, 41⟩, false, []⟩, "\x7d".toList) := by cbv
  have hending : Source.readGap ⟨⟨1, 42⟩, false, []⟩ [] = .ok (⟨⟨1, 42⟩, false, []⟩, []) := by cbv
  exact Source.readTokens_token hkeyword rfl (Source.readTokens_token hname rfl
    (Source.readTokens_token hopen rfl (Source.readTokens_token hfield rfl
      (Source.readTokens_token hclose rfl (Source.readTokens_token hsecond rfl
        (Source.readTokens_token hsecondName rfl (Source.readTokens_token hsecondOpen rfl
          (Source.readTokens_token hsecondField hquote (Source.readTokens_token hsecondClose rfl
            (Source.readTokens_ending hending))))))))))

def shapedEntity : Entity where
  name := "A"
  attributes := [{ name := "shape", type := .unknown }]
  file := some "a.ts"

def illegibleEntity : Entity where
  name := "B"
  attributes := [{ name := "\"", type := .unknown }]
  file := some "a.ts"

def quotedDiagram : Diagram where
  entities := [shapedEntity, illegibleEntity]
  sources := ["a.ts"]

theorem ofText_quotedText :
    Diagram.ofText "a.ts" quotedText = .ok quotedDiagram := by
  rw [Diagram.ofText, Declaration.SourceFile.ofText_eq tokens_quotedText]
  rfl

theorem readBlock_quotedText :
    (∀ behind, readBlock (blockLines {} shapedEntity ++ behind) =
      some (blockOf {} shapedEntity, [] :: behind)) ∧
    ∀ behind, readBlock (blockLines {} illegibleEntity ++ behind) ≠
      some (blockOf {} illegibleEntity, [] :: behind) := by
  have hcreate : Renderer.create "d2" none = .ok ⟨.d2 {}⟩ := rfl
  obtain ⟨-, -, -, -, -, hblocks⟩ :=
    readBlock_ofText ofText_quotedText hcreate rfl rfl (fun _ _ => []) ""
  have hshaped := (hblocks shapedEntity List.mem_cons_self).1
  have hillegible := (hblocks illegibleEntity (List.mem_cons_of_mem _ List.mem_cons_self)).1
  have hnames : ∀ field ∈ shapedEntity.attributes, IsLegible field.name.toList := by
    decide
  have hname : ¬∀ field ∈ illegibleEntity.attributes, IsLegible field.name.toList := by
    decide
  exact ⟨fun behind => (hshaped behind).mpr hnames, fun behind h => hname ((hillegible behind).mp h)⟩

/-- The key of the shape comes twice in the block of `A`, the block of `B` cannot be read, and two names
are read back as the same key. -/
theorem exists_illegible_quotedText :
    Diagram.ofText "a.ts" quotedText = .ok quotedDiagram ∧
      quotedDiagram.entities = [shapedEntity, illegibleEntity] ∧
      (readBlock (blockLines {} shapedEntity)).map (fun (block, _) => block.entries.map Entry.key) =
        some [.bare ("shape" : Text).toList, .bare ("shape" : Text).toList] ∧
      readBlock (blockLines {} illegibleEntity) = none ∧
      readKey (quoteName "a\\b").toList = some (.quoted ("a\\b" : Text).toList, []) ∧
      readKey (quoteName "a\\\\b").toList = some (.quoted ("a\\b" : Text).toList, []) :=
  ⟨ofText_quotedText, rfl, by decide +kernel, by decide +kernel, by decide, by decide⟩

end EntityDiagram.Render.D2
