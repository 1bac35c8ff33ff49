import EntityDiagram.Proofs.Model.EntityNames
import EntityDiagram.Proofs.Source.Tiling
import EntityDiagram.Proofs.Text.Lines
import EntityDiagram.Render.Renderer

/-!
# The lines of Mermaid and D2 text

A diagram that is read from a text is drawn line by line. The names of entities and the types of
attributes consist of names, so no line break gets into a line through them. The names of attributes
may be any strings, and they are the labels of relationships too. The label of a relationship takes
its line breaks along in both formats, and so does the name of an attribute in D2. In Mermaid such a
name is reduced to plain characters, but for one thing: a line break at the end of an identifier stays.
-/

namespace EntityDiagram.Model

/-- A character that is no part of names is not in the name of a record. -/
theorem IsRecordName.notMem
    {name : Text} (h : IsRecordName name) {c : Char} (hc : Source.isNamePart c = false) :
    .scalar c ∉ name.toList := by
  obtain ⟨declared, rfl, hname⟩ := h
  rw [Text.toList_ofString, Text.scalar_mem_scalars]
  exact hname.notMem hc

theorem IsRecordName.breaks
    {name : Text} (h : IsRecordName name) :
    Text.breaks name = 0 :=
  Text.breaks_eq_zero_iff.mpr (h.notMem (by decide +kernel))

end EntityDiagram.Model

namespace EntityDiagram.Render

open Layout (DrawingEngine)
open Model (Attribute AttributeType Diagram Entity IsRecordName KeyRole Relationship)
open Text (breaks breaks_append breaks_eq_zero_iff lines)

/-! ## Mermaid -/

namespace Mermaid

theorem isIn_isAlphanum_of_isIn_isAlpha
    {c : Character} (h : c.isIn Char.isAlpha = true) :
    c.isIn Char.isAlphanum = true := by
  cases c with
  | scalar c =>
    rw [Character.isIn_scalar] at h ⊢
    rw [Char.isAlphanum, h, Bool.true_or]
  | surrogate offset => cases h

theorem ne_of_isPlain
    {c d : Character} (hc : isPlain c = true) (hd : isPlain d = false) :
    c ≠ d := by
  rintro rfl
  rw [hc] at hd
  cases hd

theorem newline_notMem_of_isPlain
    {cs : List Character} (h : ∀ c ∈ cs, isPlain c = true) :
    .scalar '\n' ∉ cs := by
  intro hmem
  exact absurd (h _ hmem) (by decide)

theorem isPlain_of_isIdentifier
    {cs : List Character} (h : isIdentifier cs = true) :
    ∀ c ∈ withoutFinalBreak cs, isPlain c = true := by
  unfold isIdentifier at h
  split at h
  · cases h
  · rename_i first rest hcs
    obtain ⟨hfirst, hrest⟩ := Bool.and_eq_true_iff.mp h
    rw [hcs]
    refine List.forall_mem_cons.mpr ⟨?_, List.all_eq_true.mp hrest⟩
    rw [Bool.or_eq_true] at hfirst
    rw [isPlain, Bool.or_eq_true]
    exact hfirst.imp_left isIn_isAlphanum_of_isIn_isAlpha

/-- How many line breaks of a name are left in its reduced form. -/
def breaksLeft (name : Text) : Nat :=
  if isIdentifier name.toList ∧ name.toList.getLast? = some (.scalar '\n') then 1 else 0

theorem breaks_sanitizeName
    (name : Text) :
    breaks (sanitizeName name) = breaksLeft name := by
  unfold sanitizeName breaksLeft
  by_cases hname : isIdentifier name.toList = true
  · have hplain := newline_notMem_of_isPlain (isPlain_of_isIdentifier hname)
    rw [if_pos hname]
    by_cases hlast : name.toList.getLast? = some (.scalar '\n')
    · rw [if_pos ⟨hname, hlast⟩]
      rw [withoutFinalBreak, if_pos hlast] at hplain
      rw [breaks, ← List.dropLast_append_getLast? _ hlast, List.count_append,
        List.count_eq_zero.mpr hplain]
      rfl
    · rw [if_neg fun h => hlast h.2]
      rw [withoutFinalBreak, if_neg hlast] at hplain
      exact breaks_eq_zero_iff.mpr hplain
  · rw [if_neg hname, if_neg fun h => hname h.1]
    rw [breaks_eq_zero_iff]
    apply newline_notMem_of_isPlain
    intro c hc
    obtain ⟨d, -, rfl⟩ := List.mem_map.mp hc
    split
    · assumption
    · rfl

mutual

theorem isTypeChar_typeText :
    (type : AttributeType) → ∀ c ∈ (typeText type).toList, isTypeChar c = true
  | { name, isArray, arguments, .. } => by
    intro c hc
    have harguments := isTypeChar_argumentsText arguments c
    have hbrackets : ("[]" : Text).toList.all isTypeChar = true := by decide
    simp only [typeText, Text.toList_append, List.mem_append] at hc
    obtain (hname | hargument) | hbracket := hc
    · rw [sanitizeTypeName] at hname
      exact (List.mem_filter.mp hname).2
    · exact harguments hargument
    · split at hbracket
      · exact List.all_eq_true.mp hbrackets c hbracket
      · cases hbracket

theorem isTypeChar_argumentsText :
    (arguments : Option (List AttributeType)) →
      ∀ c ∈ (argumentsText arguments).toList, isTypeChar c = true
  | none | some [] => nofun
  | some (first :: rest) => by
    intro c hc
    have hfirst := isTypeChar_typeText first c
    have hrest := isTypeChar_furtherText rest c
    have htilde : ("~" : Text).toList.all isTypeChar = true := by decide
    simp only [argumentsText, Text.toList_append, List.mem_append] at hc
    obtain ((hopen | hmem) | hmem) | hclose := hc
    · exact List.all_eq_true.mp htilde c hopen
    · exact hfirst hmem
    · exact hrest hmem
    · exact List.all_eq_true.mp htilde c hclose

theorem isTypeChar_furtherText :
    (types : List AttributeType) → ∀ c ∈ (furtherText types).toList, isTypeChar c = true
  | [] => nofun
  | type :: rest => by
    intro c hc
    have htype := isTypeChar_typeText type c
    have hrest := isTypeChar_furtherText rest c
    have hhyphen : ("-" : Text).toList.all isTypeChar = true := by decide
    simp only [furtherText, Text.toList_append, List.mem_append] at hc
    obtain (hsign | hmem) | hmem := hc
    · exact List.all_eq_true.mp hhyphen c hsign
    · exact htype hmem
    · exact hrest hmem

end

theorem breaks_typeText
    (type : AttributeType) :
    breaks (typeText type) = 0 := by
  rw [breaks_eq_zero_iff]
  intro hmem
  exact absurd (isTypeChar_typeText type _ hmem) (by decide)

theorem breaks_commentText
    (description : Text) :
    breaks (commentText description) = 0 := by
  rw [breaks_eq_zero_iff]
  rw [commentText]
  intro hmem
  exact Text.notMem_replaceChar (by decide) _ (List.mem_of_mem_take hmem)

theorem breaks_formatLabel
    (label : Text) :
    breaks (formatLabel label) = breaks label := by
  unfold formatLabel
  split
  · have hquote : breaks "\"" = 0 := by decide
    have hescaped : breaks (escapeQuotes label) = breaks label := by
      rw [breaks, escapeQuotes]
      exact Text.count_replaceChar (by decide) (by decide) label.toList
    rw [breaks_append, breaks_append, hquote, hescaped, Nat.zero_add, Nat.add_zero]
  · rfl

/-- What the line of a relationship has in front of the label. -/
def linkHead (link : Relationship) : Text :=
  let stroke : Text := if link.isIdentifying then "--" else ".."
  "    " ++ link.source ++ " " ++ sourceMark link.cardinality ++ stroke ++
    targetMark link.cardinality ++ " " ++ link.target ++ " : "

theorem relationshipLine_eq
    (link : Relationship) :
    relationshipLine link = linkHead link ++ formatLabel link.label :=
  rfl

theorem breaks_linkHead
    {link : Relationship} (hsource : IsRecordName link.source)
    (htarget : IsRecordName link.target) :
    breaks (linkHead link) = 0 := by
  have hstart : breaks (sourceMark link.cardinality) = 0 := by
    unfold sourceMark
    split <;> decide
  have hend : breaks (targetMark link.cardinality) = 0 := by
    unfold targetMark
    split <;> decide
  have hstroke : breaks (if link.isIdentifying then "--" else ".." : Text) = 0 := by
    cases link.isIdentifying <;> decide
  have hindent : breaks "    " = 0 := by decide
  have hspace : breaks " " = 0 := by decide
  have hcolon : breaks " : " = 0 := by decide
  simp only [linkHead, breaks_append, hsource.breaks, htarget.breaks, hstart, hend, hstroke,
    hindent, hspace, hcolon]

theorem breaks_keyMark
    {field : Attribute} (hfield : field.IsOneLine) {mark : Text}
    (h : keyMark? field.key = some mark) :
    breaks mark = 0 := by
  obtain ⟨role, hrole, hmark⟩ := Option.bind_eq_some_iff.mp h
  unfold Text.nonempty? at hmark
  split at hmark
  · cases hmark
  · obtain rfl := Option.some.inj hmark
    exact breaks_eq_zero_iff.mpr (hfield.key role hrole)

theorem breaks_attributeLine
    (options : MermaidOptions) {field : Attribute} (hfield : field.IsOneLine) :
    breaks (attributeLine options field) = breaksLeft field.name := by
  have hindent : breaks "        " = 0 := by decide
  have hspace : breaks " " = 0 := by decide
  have hnone : breaks "" = 0 := by decide
  have hopen : breaks " \"" = 0 := by decide
  have hclose : breaks "\"" = 0 := by decide
  simp only [attributeLine, breaks_append, breaks_typeText, breaks_sanitizeName, hindent, hspace,
    Nat.zero_add, Nat.add_assoc]
  rw [Nat.add_eq_left, Nat.add_eq_zero_iff]
  constructor
  · split
    · rename_i mark hmark
      split_ifs at hmark
      rw [breaks_append, hspace, breaks_keyMark hfield hmark]
    · exact hnone
  · split
    · rw [breaks_append, breaks_append, hopen, hclose, breaks_commentText]
    · exact hnone

/-- The lines of a relationship. -/
def linkLines (link : Relationship) : List (List Character) :=
  lines (relationshipLine link).toList

/-- The lines of an attribute. -/
def fieldLines (options : MermaidOptions) (field : Attribute) : List (List Character) :=
  lines (attributeLine options field).toList

/-- The lines of an entity: one in front of its attributes and one behind them. -/
def blockLines (options : MermaidOptions) (entity : Entity) : List (List Character) :=
  ("    " ++ entity.name ++ " \x7b" : Text).toList ::
    entity.attributes.flatMap (fieldLines options) ++ [("    \x7d" : Text).toList]

/-- The lines of a text are those of a diagram. A relationship takes one line, and one more for every
line break in its label; an attribute takes one line, and one more if a line break is left in its
name. -/
structure HasLines (options : MermaidOptions) (diagram : Diagram) (output : Text) : Prop where
  lines_eq : lines output.toList =
    ("erDiagram" : Text).toList :: diagram.relationships.flatMap linkLines ++
      if options.showProperties && options.showAttributes then
        diagram.entities.flatMap (blockLines options)
      else []
  links : ∀ link ∈ diagram.relationships, (linkLines link).length = 1 + breaks link.label
  fields : ∀ entity ∈ diagram.entities, ∀ field ∈ entity.attributes,
    (fieldLines options field).length = 1 + breaksLeft field.name

theorem lines_entityLines
    (options : MermaidOptions) {entity : Entity} (hentity : entity.IsNamed) :
    ((entityLines options entity).flatMap fun text => lines text.toList) =
      blockLines options entity := by
  have hindent : breaks "    " = 0 := by decide
  have hopen : breaks " \x7b" = 0 := by decide
  have hlast : breaks "    \x7d" = 0 := by decide
  have hfirst : breaks ("    " ++ entity.name ++ " \x7b") = 0 := by
    rw [breaks_append, breaks_append, hindent, hentity.name.breaks, hopen]
  rw [entityLines, List.cons_append, List.flatMap_cons, Text.lines_of_breaks hfirst,
    List.flatMap_append, List.flatMap_map, List.flatMap_singleton, Text.lines_of_breaks hlast]
  rfl

theorem hasLines_render
    (options : MermaidOptions) {diagram : Diagram} (hdiagram : diagram.IsNamed) :
    HasLines options diagram (render options diagram) where
  lines_eq := by
    have hblocks : (diagram.entities.flatMap (entityLines options)).flatMap
          (fun text => lines text.toList) =
        diagram.entities.flatMap (blockLines options) := by
      rw [List.flatMap_assoc]
      exact List.flatMap_congr fun entity hentity =>
        lines_entityLines options (hdiagram.entities entity hentity)
    have hheader : lines ("erDiagram" : Text).toList = [("erDiagram" : Text).toList] :=
      Text.lines_of_breaks (by decide)
    rw [render, diagramLines, List.cons_append, Text.lines_unlines (List.cons_ne_nil _ _),
      List.flatMap_cons, hheader, List.flatMap_append, List.flatMap_map]
    split
    · rw [hblocks]
      rfl
    · rfl
  links link hlink := by
    have hhead := breaks_linkHead (hdiagram.sources link hlink) (hdiagram.targets link hlink)
    rw [linkLines, Text.length_lines, relationshipLine_eq, breaks_append, hhead,
      breaks_formatLabel, Nat.zero_add]
  fields entity hentity field hfield := by
    have hone := (hdiagram.entities entity hentity).attributes field hfield
    rw [fieldLines, Text.length_lines, breaks_attributeLine options hone]

end Mermaid

/-! ## D2 -/

namespace D2

theorem breaks_quoteName
    (name : Text) :
    breaks (quoteName name) = breaks name := by
  have hquote : breaks "\"" = 0 := by decide
  unfold quoteName
  split
  · rfl
  · rw [breaks_append, breaks_append, hquote, Nat.zero_add, Nat.add_zero]

mutual

theorem breaks_typeText :
    (type : AttributeType) → type.IsOneLine → breaks (typeText type) = 0
  | { name, isArray, isOptional, arguments, .. }, h => by
    have hname : breaks name = 0 := breaks_eq_zero_iff.mpr h.name
    have harguments := breaks_argumentsText arguments h.arguments
    have hbrackets : breaks (if isArray = true then "[]" else "" : Text) = 0 := by
      cases isArray <;> decide
    have hmark : breaks (if isOptional = true then "?" else "" : Text) = 0 := by
      cases isOptional <;> decide
    simp only [typeText, breaks_append, hname, harguments, hbrackets, hmark]

theorem breaks_argumentsText :
    (arguments : Option (List AttributeType)) →
      (∀ types ∈ arguments, ∀ type ∈ types, type.IsOneLine) → breaks (argumentsText arguments) = 0
  | none, _ | some [], _ => rfl
  | some (first :: rest), h => by
    obtain ⟨hfirst, hrest⟩ := List.forall_mem_cons.mp (h _ rfl)
    have hopen : breaks "<" = 0 := by decide
    have hclose : breaks ">" = 0 := by decide
    simp only [argumentsText, breaks_append, hopen, hclose, breaks_typeText first hfirst,
      breaks_furtherText rest hrest]

theorem breaks_furtherText :
    (types : List AttributeType) → (∀ type ∈ types, type.IsOneLine) →
      breaks (furtherText types) = 0
  | [], _ => rfl
  | type :: rest, h => by
    obtain ⟨htype, hrest⟩ := List.forall_mem_cons.mp h
    have hcomma : breaks ", " = 0 := by decide
    simp only [furtherText, breaks_append, hcomma, breaks_typeText type htype,
      breaks_furtherText rest hrest]

end

theorem breaks_attributeLine
    (options : D2Options) {field : Attribute} (hfield : field.IsOneLine) :
    breaks (attributeLine options field) = breaks field.name := by
  have hindent : breaks "  " = 0 := by decide
  have hcolon : breaks ": " = 0 := by decide
  have hnone : breaks "" = 0 := by decide
  simp only [attributeLine, breaks_append, breaks_quoteName, breaks_typeText _ hfield.type, hindent,
    hcolon, Nat.zero_add, Nat.add_zero]
  rw [Nat.add_eq_left]
  split
  · rename_i text htext
    split_ifs at htext
    obtain ⟨role, -, hrole⟩ := Option.bind_eq_some_iff.mp htext
    cases role <;> cases hrole <;> decide
  · exact hnone

theorem breaks_relationshipLine
    {link : Relationship} (hsource : IsRecordName link.source)
    (htarget : IsRecordName link.target) :
    breaks (relationshipLine link) = breaks link.label := by
  have harrow : breaks " -> " = 0 := by decide
  have hcolon : breaks ": " = 0 := by decide
  simp only [relationshipLine, breaks_append, hsource.breaks, htarget.breaks, harrow, Nat.zero_add]
  split
  · rename_i hempty
    rw [Text.isEmpty_iff.mp hempty]
  · rw [breaks_append, hcolon, Nat.zero_add]

/-- The lines of a relationship. -/
def linkLines (link : Relationship) : List (List Character) :=
  lines (relationshipLine link).toList

/-- The lines of an attribute. -/
def fieldLines (options : D2Options) (field : Attribute) : List (List Character) :=
  lines (attributeLine options field).toList

/-- The lines of an entity with its attributes: two in front of them, one behind them, and an empty
one. -/
def blockLines (options : D2Options) (entity : Entity) : List (List Character) :=
  (entity.name ++ ": \x7b").toList :: ("  shape: " ++ options.shape : Text).toList ::
    entity.attributes.flatMap (fieldLines options) ++ [("\x7d" : Text).toList, []]

/-- The lines of a text, with white space behind it that was trimmed, are those of a diagram. A
relationship takes one line, and one more for every line break in its label; an attribute takes one
line, and one more for every line break in its name. -/
structure HasLines (options : D2Options) (diagram : Diagram) (output : Text) : Prop where
  lines_eq : ∃ blanks, (∀ c ∈ blanks, c.isIn Text.isBlank = true) ∧
    lines (output.toList ++ blanks) =
      ("direction: " ++ options.direction : Text).toList :: [] ::
        ((if options.showProperties then diagram.entities.flatMap (blockLines options)
          else diagram.entities.map (·.name.toList) ++ [[]]) ++
        diagram.relationships.flatMap linkLines)
  links : ∀ link ∈ diagram.relationships, (linkLines link).length = 1 + breaks link.label
  fields : ∀ entity ∈ diagram.entities, ∀ field ∈ entity.attributes,
    (fieldLines options field).length = 1 + breaks field.name

theorem breaks_settings
    {options : D2Options} (hvalid : (Options.d2 options).fault? = none) :
    breaks options.direction = 0 ∧ breaks options.shape = 0 := by
  have hdirections : ∀ direction ∈ directions, breaks direction = 0 := by decide
  have hshapes : ∀ shape ∈ shapes, breaks shape = 0 := by decide
  simp only [Options.fault?] at hvalid
  split_ifs at hvalid with hdirection hshape
  rw [Bool.not_eq_true, Bool.not_eq_false', List.contains_iff_mem] at hdirection hshape
  exact ⟨hdirections _ hdirection, hshapes _ hshape⟩

theorem lines_entityLines
    {options : D2Options} (hshape : breaks options.shape = 0) {entity : Entity}
    (hentity : entity.IsNamed) :
    ((entityLines options entity ++ [("" : Text)]).flatMap fun text => lines text.toList) =
      blockLines options entity := by
  have hopen : breaks ": \x7b" = 0 := by decide
  have hkey : breaks "  shape: " = 0 := by decide
  have hlast : breaks "\x7d" = 0 := by decide
  have hfirst : breaks (entity.name ++ ": \x7b") = 0 := by
    rw [breaks_append, hentity.name.breaks, hopen]
  have hsecond : breaks ("  shape: " ++ options.shape) = 0 := by
    rw [breaks_append, hkey, hshape]
  simp only [entityLines, List.cons_append, List.append_assoc, List.flatMap_cons,
    List.flatMap_append, List.flatMap_map, List.flatMap_nil, Text.lines_of_breaks hfirst,
    Text.lines_of_breaks hsecond, Text.lines_of_breaks hlast]
  rfl

theorem hasLines_render
    {options : D2Options} (hvalid : (Options.d2 options).fault? = none) {diagram : Diagram}
    (hdiagram : diagram.IsNamed) :
    HasLines options diagram (render options diagram) where
  lines_eq := by
    obtain ⟨hdirection, hshape⟩ := breaks_settings hvalid
    have hkey : breaks "direction: " = 0 := by decide
    have hheader : breaks ("direction: " ++ options.direction) = 0 := by
      rw [breaks_append, hkey, hdirection]
    have hentities : ((if options.showProperties then
          diagram.entities.flatMap fun entity => entityLines options entity ++ [("" : Text)]
        else diagram.entities.map Entity.name ++ [("" : Text)]).flatMap fun text => lines text.toList) =
        if options.showProperties then diagram.entities.flatMap (blockLines options)
        else diagram.entities.map (·.name.toList) ++ [[]] := by
      split
      · rw [List.flatMap_assoc]
        exact List.flatMap_congr fun entity hentity =>
          lines_entityLines hshape (hdiagram.entities entity hentity)
      · rw [List.flatMap_append, List.flatMap_map, List.flatMap_singleton]
        rw [List.map_eq_flatMap]
        congr 1
        exact List.flatMap_congr fun entity hentity =>
          Text.lines_of_breaks (hdiagram.entities entity hentity).name.breaks
    have htext : lines (Text.unlines (diagramLines options diagram)).toList =
        ("direction: " ++ options.direction : Text).toList :: [] ::
          ((if options.showProperties then diagram.entities.flatMap (blockLines options)
            else diagram.entities.map (·.name.toList) ++ [[]]) ++
          diagram.relationships.flatMap linkLines) := by
      rw [diagramLines, List.cons_append, List.cons_append,
        Text.lines_unlines (List.cons_ne_nil _ _), List.flatMap_cons, List.flatMap_cons,
        List.flatMap_append, List.flatMap_map, hentities, Text.lines_of_breaks hheader]
      rfl
    have hfirst : ("direction: " ++ options.direction : Text).toList =
        .scalar 'd' :: ("irection: " : Text).toList ++ (options.direction : Text).toList :=
      Text.toList_append _ _
    obtain ⟨rest, hstart⟩ := Text.exists_eq_cons_of_lines (hfirst ▸ htext)
    obtain ⟨blanks, hblanks, htrim⟩ :=
      Text.exists_trimEnd_append (Text.unlines (diagramLines options diagram)).toList
    refine ⟨blanks, hblanks, ?_⟩
    rw [render, Text.trim, hstart, Text.trimStart_of_not_blank (by decide), ← hstart,
      htrim, htext]
  links link hlink := by
    have hlabel := breaks_relationshipLine (hdiagram.sources link hlink) (hdiagram.targets link hlink)
    rw [linkLines, Text.length_lines, hlabel]
  fields entity hentity field hfield := by
    have hone := (hdiagram.entities entity hentity).attributes field hfield
    rw [fieldLines, Text.length_lines, breaks_attributeLine options hone]

end D2

/-! ## Diagrams that are read -/

theorem Renderer.fault?_of_create
    {formatName : String} {given : Option Options} {renderer : Renderer}
    (h : Renderer.create formatName given = .ok renderer) :
    renderer.options.fault? = none := by
  unfold Renderer.create at h
  split at h
  · cases h
  · simp only at h
    split_ifs at h
    split at h
    · cases h
    · rename_i hvalid
      obtain rfl := Except.ok.inj h
      exact hvalid

/-- What is drawn of a diagram that was read has the lines of the diagram: the header, the lines of the
relationships and of the entities in their order, and no others. -/
theorem Renderer.hasLines_ofText
    {fileName text : String} {diagram : Diagram}
    (hdiagram : Diagram.ofText fileName text = .ok diagram) {formatName : String}
    {given : Option Options} {renderer : Renderer}
    (hrenderer : Renderer.create formatName given = .ok renderer) (engine : DrawingEngine)
    (now : String) :
    (∀ options, renderer.options = .mermaid options →
        ∃ output, renderer.render engine now diagram = .ok output ∧
          Mermaid.HasLines options diagram output) ∧
      ∀ options, renderer.options = .d2 options →
        ∃ output, renderer.render engine now diagram = .ok output ∧
          D2.HasLines options diagram output := by
  have hnamed := Diagram.isNamed_of_ofText hdiagram
  have hvalid := fault?_of_create hrenderer
  constructor
  · intro options hoptions
    refine ⟨Mermaid.render options diagram, ?_, Mermaid.hasLines_render options hnamed⟩
    rw [render, hoptions]
  · intro options hoptions
    rw [hoptions] at hvalid
    refine ⟨D2.render options diagram, ?_, D2.hasLines_render hvalid hnamed⟩
    rw [render, hoptions]

/-- The name of the attribute is an identifier and an escaped line break. -/
def brokenText : String :=
  "interface A \x7b \"b\\n\": A \x7d"

def brokenTokens : List Source.Token :=
  [⟨.ident "interface", ⟨⟨1, 1⟩, false, []⟩⟩, ⟨.ident "A", ⟨⟨1, 11⟩, false, []⟩⟩,
    ⟨.punct "\x7b", ⟨⟨1, 13⟩, false, []⟩⟩, ⟨.string "b\n", ⟨⟨1, 15⟩, false, []⟩⟩,
    ⟨.punct ":", ⟨⟨1, 20⟩, false, []⟩⟩, ⟨.ident "A", ⟨⟨1, 22⟩, false, []⟩⟩,
    ⟨.punct "\x7d", ⟨⟨1, 24⟩, false, []⟩⟩]

theorem tokens_brokenText :
    Source.TokenStream.ofText brokenText = .ok ⟨brokenTokens, ⟨⟨1, 25⟩, false, []⟩⟩ := by
  have hkeyword : Source.readGap ⟨.start, false, []⟩ brokenText.toList =
      .ok (⟨⟨1, 1⟩, false, []⟩, brokenText.toList) := by cbv
  have hname : Source.readGap ⟨⟨1, 10⟩, false, []⟩ " A \x7b \"b\\n\": A \x7d".toList =
      .ok (⟨⟨1, 11⟩, false, []⟩, "A \x7b \"b\\n\": A \x7d".toList) := by cbv
  have hopen : Source.readGap ⟨⟨1, 12⟩, false, []⟩ " \x7b \"b\\n\": A \x7d".toList =
      .ok (⟨⟨1, 13⟩, false, []⟩, "\x7b \"b\\n\": A \x7d".toList) := by cbv
  have hfield : Source.readGap ⟨⟨1, 14⟩, false, []⟩ " \"b\\n\": A \x7d".toList =
      .ok (⟨⟨1, 15⟩, false, []⟩, "\"b\\n\": A \x7d".toList) := by cbv
  have hstring : Source.readLexeme (some (.punct "\x7b")) ⟨1, 15⟩ '"' "b\\n\": A \x7d".toList =
      .ok ⟨.string "b\n", ⟨1, 15⟩, ⟨1, 20⟩, ": A \x7d".toList⟩ := by
    have hread : Source.readString '"' "b\\n\": A \x7d".toList =
        .ok (("b\n" : Text).toList, ": A \x7d".toList) := by
      simp [Source.readString, Except.map, Source.prepend, Source.plainEscape]
    rw [Source.readLexeme_quote (.inr rfl) hread]
    rfl
  have hcolon : Source.readGap ⟨⟨1, 20⟩, false, []⟩ ": A \x7d".toList =
      .ok (⟨⟨1, 20⟩, false, []⟩, ": A \x7d".toList) := by cbv
  have htype : Source.readGap ⟨⟨1, 21⟩, false, []⟩ " A \x7d".toList =
      .ok (⟨⟨1, 22⟩, false, []⟩, "A \x7d".toList) := by cbv
  have hclose : Source.readGap ⟨⟨1, 23⟩, false, []⟩ " \x7d".toList =
      .ok (⟨⟨1, 24⟩, false, []⟩, "\x7d".toList) := by cbv
  have hending : Source.readGap ⟨⟨1, 25⟩, false, []⟩ [] = .ok (⟨⟨1, 25⟩, false, []⟩, []) := by cbv
  exact Source.readTokens_token hkeyword rfl (Source.readTokens_token hname rfl
    (Source.readTokens_token hopen rfl (Source.readTokens_token hfield hstring
      (Source.readTokens_token hcolon rfl (Source.readTokens_token htype rfl
        (Source.readTokens_token hclose rfl (Source.readTokens_ending hending)))))))

/-- The one entity refers to itself. -/
def brokenDiagram : Diagram where
  entities := [
    { name := "A"
      attributes := [
        { name := "b\n"
          type := { name := "A", isReference := true, target := some "A" } }]
      file := some "a.ts" }]
  relationships := [⟨"A", "A", .oneToOne, "b\n", true⟩]
  sources := ["a.ts"]

theorem ofText_brokenText :
    Diagram.ofText "a.ts" brokenText = .ok brokenDiagram := by
  rw [Diagram.ofText, Declaration.SourceFile.ofText_eq tokens_brokenText]
  rfl

theorem Renderer.hasLines_brokenText :
    ∃ output, Renderer.render (fun _ _ => []) ⟨.mermaid {}⟩ "" brokenDiagram = .ok output ∧
      Mermaid.HasLines {} brokenDiagram output ∧ (lines output.toList).length = 7 := by
  have hcreate : Renderer.create "mermaid" none = .ok ⟨.mermaid {}⟩ := rfl
  obtain ⟨output, houtput, hlines⟩ :=
    (hasLines_ofText ofText_brokenText hcreate (fun _ _ => []) "").1 {} rfl
  refine ⟨output, houtput, hlines, ?_⟩
  rw [hlines.lines_eq]
  decide +kernel

/-- For one relationship and one entity with one attribute there are more lines than a line for
everything that is drawn: the line break is left in the label and in the name. -/
theorem more_lines_brokenText :
    Diagram.ofText "a.ts" brokenText = .ok brokenDiagram ∧
      brokenDiagram.relationships.length = 1 ∧
      brokenDiagram.entities.map (fun entity => entity.attributes.length) = [1] ∧
      (∃ output, Renderer.render (fun _ _ => []) ⟨.mermaid {}⟩ "" brokenDiagram = .ok output ∧
        1 + 1 + (2 + 1) < (lines output.toList).length) ∧
      ∃ output, Renderer.render (fun _ _ => []) ⟨.d2 {}⟩ "" brokenDiagram = .ok output ∧
        2 + (3 + 1 + 1) + 1 < (lines output.toList).length :=
  ⟨ofText_brokenText, rfl, rfl, ⟨_, rfl, by decide +kernel⟩, ⟨_, rfl, by decide +kernel⟩⟩

end EntityDiagram.Render
