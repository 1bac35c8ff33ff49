import EntityDiagram.Proofs.Render.DocumentReading
import EntityDiagram.Proofs.Render.LineStructure

/-!
# Every entity is shown

The lines of a drawing fall into parts. In each of the three formats an entity has a part of its own
that starts with a line with its name, and these parts come in the order of the entities. Mermaid text
leaves the parts of entities out when it is to show no properties or no attributes; then an entity is
shown as an end of its relationships, and one without relationships is not shown. A Draw.io document
has a cell for every entity, and there is no document where a box has a number beyond the range of
doubles.
-/

namespace EntityDiagram.Render

open Layout (DrawingEngine)
open Model (Diagram Entity IsRecordName Relationship)
open Text (breaks breaks_append lines)

/-! ## Parts of a drawing -/

/-- What a part of a drawing belongs to. -/
inductive Owner where
  | entity (entity : Entity)
  | link (link : Relationship)
  | other

namespace Owner

/-- The entity, if the owner is one. -/
def entity? : Owner → Option Entity
  | entity value => some value
  | _ => none

/-- The relationship, if the owner is one. -/
def link? : Owner → Option Relationship
  | link value => some value
  | _ => none

/-- The owner is the entity or one of its relationships. -/
inductive Concerns (entity : Entity) : Owner → Prop
  | self : Concerns entity (.entity entity)
  | source {link : Relationship} (hend : link.source = entity.name) : Concerns entity (.link link)
  | target {link : Relationship} (hend : link.target = entity.name) : Concerns entity (.link link)

end Owner

/-- An owner and its lines. -/
structure Part where
  owner : Owner
  lines : List (List Character)

/-- The start tag of the cell of an entity. -/
def Drawio.containerTag (id : Nat) (name : Text) : Text :=
  "      <mxCell" ++ (plainAttribute "id" (toString id) ++ plainAttribute "value" name ++
    (plainAttribute "style" containerStyle ++ plainAttribute "vertex" "1" ++
      plainAttribute "parent" "1")) ++ ">"

/-- A line that opens the part of an entity: the first line of its block, its name alone where D2 text
shows no properties, or the start tag of its cell. -/
inductive Opens : Options → Entity → List Character → Prop
  | block {options : MermaidOptions} {entity : Entity} :
    Opens (.mermaid options) entity ("    " ++ entity.name ++ " \x7b" : Text).toList
  | shape {options : D2Options} (hshown : options.showProperties = true) {entity : Entity} :
    Opens (.d2 options) entity (entity.name ++ ": \x7b").toList
  | bare {options : D2Options} (hhidden : options.showProperties = false) {entity : Entity} :
    Opens (.d2 options) entity entity.name.toList
  | cell {options : DrawioOptions} (id : Nat) {entity : Entity} :
    Opens (.drawio options) entity (Drawio.containerTag id entity.name).toList

/-- The part of an entity starts with a line that opens it, and the part of a relationship with the two
ends of the relationship. -/
inductive IsPart (options : Options) : Part → Prop
  | entity {entity : Entity} {line : List Character} {more : List (List Character)}
      (hopens : Opens options entity line) : IsPart options ⟨.entity entity, line :: more⟩
  | link {link : Relationship} {line : List Character} {more : List (List Character)}
      (hhead : (Mermaid.linkHead link).toList <+: line) : IsPart options ⟨.link link, line :: more⟩
  | other {group : List (List Character)} : IsPart options ⟨.other, group⟩

/-- The options have every entity drawn with a part of its own. -/
def Options.showsBlocks : Options → Bool
  | mermaid options => options.showProperties && options.showAttributes
  | d2 _ | drawio _ => true

/-- The text consists of the parts, up to white space that was trimmed at its end. The entities have
their parts in order, if they have parts; so have the relationships in Mermaid text. The first line of
each such part stands in the text as it is. -/
structure IsDrawing (options : Options) (diagram : Diagram) (parts : List Part) (output : Text) :
    Prop where
  lines_eq : ∃ blanks, (∀ c ∈ blanks, c.isIn Text.isBlank = true) ∧
    lines (output.toList ++ blanks) = parts.flatMap Part.lines
  isPart : ∀ part ∈ parts, IsPart options part
  entities : options.showsBlocks = true →
    parts.filterMap (·.owner.entity?) = diagram.entities
  links : ∀ mermaid, options = .mermaid mermaid →
    parts.filterMap (·.owner.link?) = diagram.relationships
  first : ∀ part ∈ parts, part.owner ≠ .other →
    ∀ line ∈ part.lines.head?, line ∈ lines output.toList

/-- The entity has a part of its own, or it is an end of a relationship. -/
def HasPlace (options : Options) (diagram : Diagram) (entity : Entity) : Prop :=
  options.showsBlocks = true ∨
    ∃ link ∈ diagram.relationships, link.source = entity.name ∨ link.target = entity.name

theorem infix_toList_append
    (before text behind : Text) :
    text.toList <:+: (before ++ text ++ behind).toList := by
  rw [Text.toList_append, Text.toList_append]
  exact List.infix_append before.toList text.toList behind.toList

theorem Opens.hasName
    {options : Options} {entity : Entity} {line : List Character} (h : Opens options entity line) :
    entity.name.toList <:+: line := by
  cases h with
  | block => exact infix_toList_append _ _ _
  | shape =>
    rw [Text.toList_append]
    exact (List.prefix_append _ _).isInfix
  | bare => exact List.infix_refl _
  | cell id =>
    have hvalue : entity.name.toList <:+: (Drawio.plainAttribute "value" entity.name).toList :=
      infix_toList_append _ _ _
    exact (hvalue.trans (infix_toList_append _ _ _)).trans (infix_toList_append _ _ _)

theorem Mermaid.source_infix_linkHead
    (link : Relationship) :
    link.source.toList <:+: (linkHead link).toList := by
  simp only [linkHead, Text.append_assoc]
  rw [← Text.append_assoc]
  exact infix_toList_append _ _ _

theorem Mermaid.target_infix_linkHead
    (link : Relationship) :
    link.target.toList <:+: (linkHead link).toList :=
  infix_toList_append _ _ _

theorem IsPart.hasName
    {options : Options} {part : Part} (h : IsPart options part) {entity : Entity}
    (hconcerns : part.owner.Concerns entity) :
    ∃ line ∈ part.lines.head?, entity.name.toList <:+: line := by
  cases h with
  | entity hopens =>
    obtain ⟨⟩ := hconcerns
    exact ⟨_, rfl, hopens.hasName⟩
  | link hhead =>
    refine ⟨_, rfl, ?_⟩
    cases hconcerns with
    | source hend => exact hend ▸ (Mermaid.source_infix_linkHead _).trans hhead.isInfix
    | target hend => exact hend ▸ (Mermaid.target_infix_linkHead _).trans hhead.isInfix
  | other => cases hconcerns

theorem Owner.concerns_of_entity?
    {entity : Entity} {owner : Owner} (h : owner.entity? = some entity) :
    owner.Concerns entity := by
  cases owner with
  | entity => exact Option.some.inj h ▸ .self
  | link | other => cases h

theorem Owner.concerns_of_link?
    {entity : Entity} {link : Relationship} {owner : Owner} (h : owner.link? = some link)
    (hend : link.source = entity.name ∨ link.target = entity.name) :
    owner.Concerns entity := by
  cases owner with
  | link => exact Option.some.inj h ▸ hend.elim .source .target
  | entity | other => cases h

theorem Owner.Concerns.ne_other
    {entity : Entity} {owner : Owner} (h : owner.Concerns entity) :
    owner ≠ .other := by
  rintro rfl
  cases h

/-- In a drawing every entity with a place has its name in a line of a part that concerns it. -/
theorem IsDrawing.exists_part
    {options : Options} {diagram : Diagram} {parts : List Part} {output : Text}
    (h : IsDrawing options diagram parts output) {entity : Entity}
    (hentity : entity ∈ diagram.entities) (hplace : HasPlace options diagram entity) :
    ∃ part ∈ parts, part.owner.Concerns entity ∧
      ∃ line ∈ part.lines, line ∈ lines output.toList ∧ entity.name.toList <:+: line := by
  obtain ⟨part, hpart, hconcerns⟩ : ∃ part ∈ parts, part.owner.Concerns entity := by
    by_cases hshown : options.showsBlocks = true
    · rw [← h.entities hshown] at hentity
      obtain ⟨part, hpart, howner⟩ := List.mem_filterMap.mp hentity
      exact ⟨part, hpart, Owner.concerns_of_entity? howner⟩
    · obtain ⟨link, hlink, hend⟩ := hplace.resolve_left hshown
      cases options with
      | mermaid mermaid =>
        rw [← h.links mermaid rfl] at hlink
        obtain ⟨part, hpart, howner⟩ := List.mem_filterMap.mp hlink
        exact ⟨part, hpart, Owner.concerns_of_link? howner hend⟩
      | d2 | drawio => exact (hshown rfl).elim
  obtain ⟨line, hline, hname⟩ := (h.isPart part hpart).hasName hconcerns
  exact ⟨part, hpart, hconcerns, line, List.mem_of_mem_head? hline,
    h.first part hpart hconcerns.ne_other line hline, hname⟩

/-- A text that was not trimmed is its parts. -/
theorem IsDrawing.of_lines
    {options : Options} {diagram : Diagram} {parts : List Part} {output : Text}
    (hlines : lines output.toList = parts.flatMap Part.lines)
    (hparts : ∀ part ∈ parts, IsPart options part)
    (hentities : options.showsBlocks = true →
      parts.filterMap (·.owner.entity?) = diagram.entities)
    (hlinks : ∀ mermaid, options = .mermaid mermaid →
      parts.filterMap (·.owner.link?) = diagram.relationships) :
    IsDrawing options diagram parts output where
  lines_eq := ⟨[], List.forall_mem_nil _, by rw [List.append_nil, hlines]⟩
  isPart := hparts
  entities := hentities
  links := hlinks
  first part hpart _ line hline := by
    rw [hlines]
    exact List.mem_flatMap.mpr ⟨part, hpart, List.mem_of_mem_head? hline⟩

/-! ## Mermaid -/

namespace Mermaid

/-- The parts of Mermaid text. -/
def parts (options : MermaidOptions) (diagram : Diagram) : List Part :=
  ⟨.other, [("erDiagram" : Text).toList]⟩ ::
    diagram.relationships.map (fun link => ⟨.link link, linkLines link⟩) ++
    if options.showProperties && options.showAttributes then
      diagram.entities.map fun entity => ⟨.entity entity, blockLines options entity⟩
    else []

theorem isPart_link
    (options : Options) {link : Relationship} (hsource : IsRecordName link.source)
    (htarget : IsRecordName link.target) :
    IsPart options ⟨.link link, linkLines link⟩ := by
  obtain ⟨line, more, -, hlines⟩ := Text.lines_append_of_newline_notMem
    (Text.breaks_eq_zero_iff.mp (breaks_linkHead hsource htarget)) (formatLabel link.label).toList
  rw [linkLines, relationshipLine_eq, Text.toList_append, hlines]
  exact .link (List.prefix_append _ _)

theorem isDrawing_render
    (options : MermaidOptions) {diagram : Diagram} (hdiagram : diagram.IsNamed) :
    IsDrawing (.mermaid options) diagram (parts options diagram) (render options diagram) := by
  apply IsDrawing.of_lines
  · rw [(hasLines_render options hdiagram).lines_eq, parts, List.flatMap_append, List.flatMap_cons,
      List.flatMap_map]
    split
    · rw [List.flatMap_map]
      rfl
    · rfl
  · intro part hpart
    simp only [parts, List.cons_append, List.mem_cons, List.mem_append, List.mem_map] at hpart
    obtain rfl | ⟨link, hlink, rfl⟩ | hblock := hpart
    · exact .other
    · exact isPart_link _ (hdiagram.sources link hlink) (hdiagram.targets link hlink)
    · split at hblock
      · obtain ⟨entity, -, rfl⟩ := List.mem_map.mp hblock
        exact .entity .block
      · cases hblock
  · intro hshown
    have hblocks : (options.showProperties && options.showAttributes) = true := hshown
    simp [parts, hblocks, List.filterMap_map, Owner.entity?]
  · intro _ _
    simp only [parts]
    split <;> simp [List.filterMap_map, Owner.link?]

end Mermaid

/-! ## D2 -/

theorem Opens.not_blank
    {options : D2Options} {entity : Entity} (hentity : IsRecordName entity.name)
    {line : List Character} (h : Opens (.d2 options) entity line) :
    ∃ c, line.getLast? = some c ∧ c.isIn Text.isBlank = false := by
  cases h with
  | shape =>
    refine ⟨.scalar '\x7b', ?_, by decide⟩
    rw [Text.toList_append]
    exact List.getLast?_append_of_ne_nil _ (by decide)
  | bare =>
    obtain ⟨name, hsame, hname⟩ := hentity
    have hpart := hname.isNamePart _ (List.getLast_mem hname.ne_nil)
    refine ⟨.scalar (name.toList.getLast hname.ne_nil), ?_, ?_⟩
    · rw [hsame, Text.toList_ofString, Text.scalars, List.getLast?_map,
        List.getLast?_eq_getLast_of_ne_nil hname.ne_nil]
      rfl
    · rw [Character.isIn_scalar, ← Bool.not_eq_true]
      intro hblank
      rw [Source.isNamePart_of_isBlank hblank] at hpart
      cases hpart

namespace D2

/-- The parts of D2 text. -/
def parts (options : D2Options) (diagram : Diagram) : List Part :=
  ⟨.other, [("direction: " ++ options.direction : Text).toList, []]⟩ ::
    (if options.showProperties then
        diagram.entities.map fun entity => ⟨.entity entity, blockLines options entity⟩
      else
        diagram.entities.map (fun entity => ⟨.entity entity, [entity.name.toList]⟩) ++
          [⟨.other, [[]]⟩]) ++
    [⟨.other, diagram.relationships.flatMap linkLines⟩]

theorem exists_opens_of_mem_parts
    {options : D2Options} {diagram : Diagram} {part : Part} (h : part ∈ parts options diagram)
    (hother : part.owner ≠ .other) :
    ∃ entity ∈ diagram.entities, ∃ line more,
      part = ⟨.entity entity, line :: more⟩ ∧ Opens (.d2 options) entity line := by
  simp only [parts, List.cons_append, List.mem_cons, List.mem_append, List.not_mem_nil,
    or_false] at h
  obtain rfl | hentity | rfl := h
  · exact (hother rfl).elim
  · split at hentity
    · rename_i hshown
      obtain ⟨entity, hmem, rfl⟩ := List.mem_map.mp hentity
      exact ⟨entity, hmem, _, _, rfl, .shape hshown⟩
    · rename_i hhidden
      obtain hentity | hrest := List.mem_append.mp hentity
      · obtain ⟨entity, hmem, rfl⟩ := List.mem_map.mp hentity
        exact ⟨entity, hmem, _, _, rfl, .bare (Bool.not_eq_true _ ▸ hhidden)⟩
      · obtain rfl := List.mem_singleton.mp hrest
        exact (hother rfl).elim
  · exact (hother rfl).elim

theorem isDrawing_render
    {options : D2Options} (hvalid : (Options.d2 options).fault? = none) {diagram : Diagram}
    (hdiagram : diagram.IsNamed) :
    IsDrawing (.d2 options) diagram (parts options diagram) (render options diagram) := by
  obtain ⟨blanks, hblanks, hlines⟩ := (hasLines_render hvalid hdiagram).lines_eq
  have hparts : lines ((render options diagram).toList ++ blanks) =
      (parts options diagram).flatMap Part.lines := by
    rw [hlines, parts]
    split
    · simp [List.flatMap_map]
    · simp [List.map_eq_flatMap, List.flatMap_assoc]
  refine ⟨⟨blanks, hblanks, hparts⟩, fun part hpart => ?_, fun _ => ?_, fun _ hoptions => ?_, ?_⟩
  · obtain ⟨owner, group⟩ := part
    cases owner with
    | other => exact .other
    | entity | link =>
      obtain ⟨entity, -, line, more, heq, hopens⟩ := exists_opens_of_mem_parts hpart (by simp)
      exact heq ▸ .entity hopens
  · simp only [parts]
    split <;> simp [List.filterMap_map, Owner.entity?]
  · cases hoptions
  · intro part hpart hother line hline
    obtain ⟨entity, hentity, opening, more, rfl, hopens⟩ := exists_opens_of_mem_parts hpart hother
    obtain rfl := Option.some.inj hline
    -- A line that opens a part ends with a brace or a name, so trimming leaves it as it is.
    obtain ⟨c, hlast, hc⟩ := hopens.not_blank (hdiagram.entities entity hentity).name
    refine Text.mem_lines_of_mem_append hblanks ?_ hlast hc
    rw [hparts]
    exact List.mem_flatMap.mpr ⟨_, hpart, List.mem_cons_self⟩

end D2

/-! ## Draw.io -/

namespace Drawio

theorem IsFixedText.breaks
    {text : String} (h : IsFixedText text) :
    breaks text = 0 := by
  rw [Text.breaks_eq_zero_iff, Text.toList_ofString, Text.scalar_mem_scalars]
  intro hmem
  exact absurd (h _ hmem) (by decide)

theorem breaks_plainAttribute
    {name : String} {value : Text} (hname : breaks name = 0) (hvalue : breaks value = 0) :
    breaks (plainAttribute name value) = 0 := by
  have hspace : breaks " " = 0 := by decide
  have hopen : breaks "=\"" = 0 := by decide
  have hclose : breaks "\"" = 0 := by decide
  simp only [plainAttribute, breaks_append, hname, hvalue, hspace, hopen, hclose]

theorem breaks_containerTag
    (id : Nat) {name : Text} (hname : IsRecordName name) :
    breaks (containerTag id name) = 0 := by
  have hid := breaks_plainAttribute (show breaks "id" = 0 by decide) (isFixedText_nat id).breaks
  have hvalue := breaks_plainAttribute (show breaks "value" = 0 by decide) hname.breaks
  have hstyle := breaks_plainAttribute (show breaks "style" = 0 by decide)
    isFixedText_containerStyle.breaks
  have hvertex : breaks (plainAttribute "vertex" "1") = 0 := by decide +kernel
  have hparent : breaks (plainAttribute "parent" "1") = 0 := by decide +kernel
  have hopen : breaks "      <mxCell" = 0 := by decide
  have hclose : breaks ">" = 0 := by decide
  unfold containerTag
  simp only [breaks_append, hid, hvalue, hstyle, hvertex, hparent, hopen, hclose]

/-- Nothing in a name needs to be escaped. -/
theorem textAttribute_eq
    (key : String) {name : Text} (hname : IsRecordName name) :
    textAttribute key name = plainAttribute key name := by
  have hplain : ∀ c ∈ name.toList, Text.Markup.isPlain c = true := by
    intro c hc
    have hne : ∀ special, Source.isNamePart special = false → c ≠ .scalar special := by
      rintro special hspecial rfl
      exact hname.notMem hspecial hc
    simp [Text.Markup.isPlain, hne '&' (by decide +kernel), hne '<' (by decide +kernel),
      hne '>' (by decide +kernel), hne '"' (by decide +kernel), hne '\'' (by decide +kernel)]
  rw [textAttribute, Text.escapeMarkup, Text.Markup.escapeMarkupChars_eq_self hplain]

/-- The first line of a container is its start tag. -/
theorem lines_container
    (options : DrawioOptions) (id : Nat) {name : Text} (hname : IsRecordName name)
    (box : Layout.Box Number.Measure) :
    ∃ more, lines (cellText options (.container id name box)).toList =
      (containerTag id name).toList :: more := by
  obtain ⟨rest, htext⟩ : ∃ rest, cellText options (.container id name box) =
      containerTag id name ++ ("\n" ++ rest) := by
    have hline : (">\n        <mxGeometry" : Text) = ">" ++ ("\n" ++ "        <mxGeometry") := by
      decide
    simp only [cellText, textAttribute_eq _ hname]
    unfold element containerTag
    simp only [hline, Text.append_assoc]
    exact ⟨_, rfl⟩
  have htoList : (containerTag id name ++ ("\n" ++ rest)).toList =
      (containerTag id name).toList ++ .scalar '\n' :: rest.toList := by
    rw [Text.toList_append, Text.toList_append]
    rfl
  rw [htext, htoList, Text.lines_append_newline, Text.lines_of_breaks (breaks_containerTag id hname)]
  exact ⟨_, rfl⟩

/-- The lines of a cell. -/
def cellLines (options : DrawioOptions) (cell : Cell) : List (List Character) :=
  lines (cellText options cell).toList

/-- The parts of entities, whose cells are numbered from a number on. -/
def entityPartsFrom (options : DrawioOptions) (placement : Layout.Placement Number.Measure) :
    Nat → List Entity → List Part
  | _, [] => []
  | id, entity :: rest =>
    ⟨.entity entity,
        (.container id entity.name (boxOf placement entity.name) ::
          rowsFrom options id (id + 1) entity.attributes).flatMap (cellLines options)⟩ ::
      entityPartsFrom options placement (id + cellCount entity) rest

section

variable (options : DrawioOptions) (placement : Layout.Placement Number.Measure) (start : Nat)

theorem flatMap_lines_entityPartsFrom
    (entities : List Entity) :
    (entityPartsFrom options placement start entities).flatMap Part.lines =
      (entityCellsFrom options placement start entities).flatMap (cellLines options) := by
  induction entities generalizing start with
  | nil => rfl
  | cons entity rest ih =>
    rw [entityPartsFrom, entityCellsFrom, List.flatMap_cons, List.flatMap_append, ih]

theorem filterMap_entity?_entityPartsFrom
    (entities : List Entity) :
    (entityPartsFrom options placement start entities).filterMap (·.owner.entity?) = entities := by
  induction entities generalizing start with
  | nil => rfl
  | cons entity rest ih =>
    rw [entityPartsFrom, List.filterMap_cons]
    exact congrArg (entity :: ·) (ih _)

theorem isPart_of_mem_entityPartsFrom
    {entities : List Entity} (h : ∀ entity ∈ entities, IsRecordName entity.name) :
    ∀ part ∈ entityPartsFrom options placement start entities,
      IsPart (.drawio options) part := by
  induction entities generalizing start with
  | nil => exact List.forall_mem_nil _
  | cons entity rest ih =>
    obtain ⟨hentity, hrest⟩ := List.forall_mem_cons.mp h
    refine List.forall_mem_cons.mpr ⟨?_, ih _ hrest⟩
    obtain ⟨more, hmore⟩ := lines_container options start hentity (boxOf placement entity.name)
    rw [List.flatMap_cons, cellLines, hmore]
    exact .entity (.cell start)

end

theorem isDrawing_renderPlaced
    (options : DrawioOptions) (now : String) (placement : Layout.Placement Number.Measure)
    {diagram : Diagram} (hdiagram : diagram.IsNamed) :
    ∃ parts, IsDrawing (.drawio options) diagram parts
      (renderPlaced options now placement diagram) := by
  have hinside : lines (Text.unlines (rootCells ++
        (cells options placement diagram).map (cellText options))).toList =
      (rootCells.flatMap fun text => lines text.toList) ++
        (cells options placement diagram).flatMap (cellLines options) := by
    rw [rootCells, List.cons_append, Text.lines_unlines (List.cons_ne_nil _ _),
      ← List.cons_append, List.flatMap_append, List.flatMap_map]
    rfl
  obtain ⟨front, back, hdocument⟩ : ∃ front back,
      lines (renderPlaced options now placement diagram).toList =
        front ++ (lines (Text.unlines (rootCells ++
          (cells options placement diagram).map (cellText options))).toList ++ back) := by
    rw [renderPlaced, document]
    exact Text.lines_unlines_of_mem (by simp only [List.mem_cons, true_or, or_true])
  obtain ⟨edges, hcells⟩ : ∃ edges, cells options placement diagram =
      entityCellsFrom options placement firstId diagram.entities ++ edges := ⟨_, rfl⟩
  have hnames := fun entity hentity => (hdiagram.entities entity hentity).name
  refine ⟨⟨.other, front ++ rootCells.flatMap fun text => lines text.toList⟩ ::
    entityPartsFrom options placement firstId diagram.entities ++
      [⟨.other, edges.flatMap (cellLines options) ++ back⟩],
    .of_lines ?_ ?_ ?_ ?_⟩
  · rw [hdocument, hinside, hcells, List.flatMap_append, List.flatMap_append, List.flatMap_cons,
      flatMap_lines_entityPartsFrom, List.flatMap_singleton]
    simp only [List.append_assoc]
  · intro part hpart
    rw [List.cons_append, List.mem_cons, List.mem_append, List.mem_singleton] at hpart
    obtain rfl | hentity | rfl := hpart
    · exact .other
    · exact isPart_of_mem_entityPartsFrom options placement firstId hnames part hentity
    · exact .other
  · intro _
    rw [List.cons_append, List.filterMap_cons, List.filterMap_append,
      filterMap_entity?_entityPartsFrom]
    exact List.append_nil _
  · intro _ hoptions
    cases hoptions

end Drawio

/-! ## All formats -/

/-- A diagram that was read is drawn with every entity, by its own part of the drawing or, where such
parts are left out, in the parts of its relationships; or there is no document in rows, because a number
cannot be computed, drawn or written. -/
theorem Renderer.showsEntities_ofText
    {fileName text : String} {diagram : Diagram}
    (hdiagram : Diagram.ofText fileName text = .ok diagram) {formatName : String}
    {given : Option Options} {renderer : Renderer}
    (hrenderer : Renderer.create formatName given = .ok renderer)
    (hgrid : ∀ options, renderer.options = .drawio options → options.layout = "grid")
    (engine : DrawingEngine) (now : String) :
    (∃ output parts, renderer.render engine now diagram = .ok output ∧
        IsDrawing renderer.options diagram parts output ∧
        ∀ entity ∈ diagram.entities, HasPlace renderer.options diagram entity →
          ∃ part ∈ parts, part.owner.Concerns entity ∧
            ∃ line ∈ part.lines, line ∈ lines output.toList ∧ entity.name.toList <:+: line) ∨
      ∃ options fault, renderer.options = .drawio options ∧
        Drawio.IsRowsFault options diagram fault ∧
        renderer.render engine now diagram = .error fault := by
  have hnamed := Diagram.isNamed_of_ofText hdiagram
  have hvalid := fault?_of_create hrenderer
  obtain ⟨options⟩ := renderer
  cases options with
  | mermaid options =>
    have hdrawing := Mermaid.isDrawing_render options hnamed
    exact .inl ⟨_, _, rfl, hdrawing, fun _ => hdrawing.exists_part⟩
  | d2 options =>
    have hdrawing := D2.isDrawing_render hvalid hnamed
    exact .inl ⟨_, _, rfl, hdrawing, fun _ => hdrawing.exists_part⟩
  | drawio options =>
    have hlayout := hgrid options rfl
    cases hrender : Drawio.render engine options now diagram with
    | ok output =>
      obtain ⟨placement, -, -, rfl⟩ := Drawio.render_eq_ok_iff.mp hrender
      obtain ⟨parts, hdrawing⟩ := Drawio.isDrawing_renderPlaced options now placement hnamed
      exact .inl ⟨_, parts, hrender, hdrawing, fun _ => hdrawing.exists_part⟩
    | error fault =>
      exact .inr ⟨options, fault, rfl, Drawio.isRowsFault_of_render hlayout hvalid hrender, hrender⟩

/-- An entity without attributes and without relationships. -/
def bareText : String :=
  "interface A \x7b\x7d"

theorem tokens_bareText :
    Source.TokenStream.ofText bareText = .ok ⟨[⟨.ident "interface", ⟨⟨1, 1⟩, false, []⟩⟩,
      ⟨.ident "A", ⟨⟨1, 11⟩, false, []⟩⟩, ⟨.punct "\x7b", ⟨⟨1, 13⟩, false, []⟩⟩,
      ⟨.punct "\x7d", ⟨⟨1, 14⟩, false, []⟩⟩], ⟨⟨1, 15⟩, false, []⟩⟩ := by
  have hkeyword : Source.readGap ⟨.start, false, []⟩ bareText.toList =
      .ok (⟨⟨1, 1⟩, false, []⟩, bareText.toList) := by cbv
  have hname : Source.readGap ⟨⟨1, 10⟩, false, []⟩ " A \x7b\x7d".toList =
      .ok (⟨⟨1, 11⟩, false, []⟩, "A \x7b\x7d".toList) := by cbv
  have hopen : Source.readGap ⟨⟨1, 12⟩, false, []⟩ " \x7b\x7d".toList =
      .ok (⟨⟨1, 13⟩, false, []⟩, "\x7b\x7d".toList) := by cbv
  have hclose : Source.readGap ⟨⟨1, 14⟩, false, []⟩ "\x7d".toList =
      .ok (⟨⟨1, 14⟩, false, []⟩, "\x7d".toList) := by cbv
  have hending : Source.readGap ⟨⟨1, 15⟩, false, []⟩ [] = .ok (⟨⟨1, 15⟩, false, []⟩, []) := by cbv
  exact Source.readTokens_token hkeyword rfl (Source.readTokens_token hname rfl
    (Source.readTokens_token hopen rfl (Source.readTokens_token hclose rfl
      (Source.readTokens_ending hending))))

def bareDiagram : Diagram where
  entities := [{ name := "A", file := some "a.ts" }]
  sources := ["a.ts"]

theorem ofText_bareText :
    Diagram.ofText "a.ts" bareText = .ok bareDiagram := by
  rw [Diagram.ofText, Declaration.SourceFile.ofText_eq tokens_bareText]
  rfl

theorem Renderer.showsEntities_bareText :
    ∃ output parts,
      Renderer.render Drawio.idleEngine ⟨.drawio {}⟩ "" bareDiagram = .ok output ∧
      IsDrawing (.drawio {}) bareDiagram parts output ∧
      ∀ entity ∈ bareDiagram.entities, HasPlace (.drawio {}) bareDiagram entity →
        ∃ part ∈ parts, part.owner.Concerns entity ∧
          ∃ line ∈ part.lines, line ∈ lines output.toList ∧ entity.name.toList <:+: line := by
  have hcreate : Renderer.create "drawio" none = .ok ⟨.drawio {}⟩ := rfl
  have hgrid : ∀ options, Options.drawio {} = .drawio options → options.layout = "grid" := by
    intro options hoptions
    obtain rfl := Options.drawio.inj hoptions
    rfl
  obtain ⟨text, htext⟩ : ∃ text,
      Renderer.render Drawio.idleEngine ⟨.drawio {}⟩ "" bareDiagram = .ok text :=
    Drawio.exists_of_isOk (by decide +kernel)
  obtain hshows | ⟨options, fault, -, -, hfault⟩ :=
    showsEntities_ofText ofText_bareText hcreate hgrid Drawio.idleEngine ""
  · exact hshows
  · cases htext.symm.trans hfault

/-- A name that is declared twice, first with an attribute and then without one. -/
def repeatedText : String :=
  "interface A \x7bp\x7d interface A \x7b\x7d"

theorem tokens_repeatedText :
    Source.TokenStream.ofText repeatedText = .ok ⟨[⟨.ident "interface", ⟨⟨1, 1⟩, false, []⟩⟩,
      ⟨.ident "A", ⟨⟨1, 11⟩, false, []⟩⟩, ⟨.punct "\x7b", ⟨⟨1, 13⟩, false, []⟩⟩,
      ⟨.ident "p", ⟨⟨1, 14⟩, false, []⟩⟩, ⟨.punct "\x7d", ⟨⟨1, 15⟩, false, []⟩⟩,
      ⟨.ident "interface", ⟨⟨1, 17⟩, false, []⟩⟩, ⟨.ident "A", ⟨⟨1, 27⟩, false, []⟩⟩,
      ⟨.punct "\x7b", ⟨⟨1, 29⟩, false, []⟩⟩, ⟨.punct "\x7d", ⟨⟨1, 30⟩, false, []⟩⟩],
      ⟨⟨1, 31⟩, false, []⟩⟩ := by
  have hkeyword : Source.readGap ⟨.start, false, []⟩ repeatedText.toList =
      .ok (⟨⟨1, 1⟩, false, []⟩, repeatedText.toList) := by cbv
  have hname : Source.readGap ⟨⟨1, 10⟩, false, []⟩ " A \x7bp\x7d interface A \x7b\x7d".toList =
      .ok (⟨⟨1, 11⟩, false, []⟩, "A \x7bp\x7d interface A \x7b\x7d".toList) := by cbv
  have hopen : Source.readGap ⟨⟨1, 12⟩, false, []⟩ " \x7bp\x7d interface A \x7b\x7d".toList =
      .ok (⟨⟨1, 13⟩, false, []⟩, "\x7bp\x7d interface A \x7b\x7d".toList) := by cbv
  have hfield : Source.readGap ⟨⟨1, 14⟩, false, []⟩ "p\x7d interface A \x7b\x7d".toList =
      .ok (⟨⟨1, 14⟩, false, []⟩, "p\x7d interface A \x7b\x7d".toList) := by cbv
  have hclose : Source.readGap ⟨⟨1, 15⟩, false, []⟩ "\x7d interface A \x7b\x7d".toList =
      .ok (⟨⟨1, 15⟩, false, []⟩, "\x7d interface A \x7b\x7d".toList) := by cbv
  have hagain : Source.readGap ⟨⟨1, 16⟩, false, []⟩ " interface A \x7b\x7d".toList =
      .ok (⟨⟨1, 17⟩, false, []⟩, "interface A \x7b\x7d".toList) := by cbv
  have hsecond : Source.readGap ⟨⟨1, 26⟩, false, []⟩ " A \x7b\x7d".toList =
      .ok (⟨⟨1, 27⟩, false, []⟩, "A \x7b\x7d".toList) := by cbv
  have hsecondOpen : Source.readGap ⟨⟨1, 28⟩, false, []⟩ " \x7b\x7d".toList =
      .ok (⟨⟨1, 29⟩, false, []⟩, "\x7b\x7d".toList) := by cbv
  have hsecondClose : Source.readGap ⟨⟨1, 30⟩, false, []⟩ "\x7d".toList =
      .ok (⟨⟨1, 30⟩, false, []⟩, "\x7d".toList) := by cbv
  have hending : Source.readGap ⟨⟨1, 31⟩, false, []⟩ [] = .ok (⟨⟨1, 31⟩, false, []⟩, []) := by cbv
  exact Source.readTokens_token hkeyword rfl (Source.readTokens_token hname rfl
    (Source.readTokens_token hopen rfl (Source.readTokens_token hfield rfl
      (Source.readTokens_token hclose rfl (Source.readTokens_token hagain rfl
        (Source.readTokens_token hsecond rfl (Source.readTokens_token hsecondOpen rfl
          (Source.readTokens_token hsecondClose rfl (Source.readTokens_ending hending)))))))))

def repeatedDiagram : Diagram where
  entities := [
    { name := "A", attributes := [{ name := "p", type := .unknown }], file := some "a.ts" },
    { name := "A", file := some "a.ts" }]
  sources := ["a.ts"]

theorem ofText_repeatedText :
    Diagram.ofText "a.ts" repeatedText = .ok repeatedDiagram := by
  rw [Diagram.ofText, Declaration.SourceFile.ofText_eq tokens_repeatedText]
  rfl

/-- A width that is a double, and a spacing beyond the range of doubles. -/
def mixedOptions : DrawioOptions where
  entityWidth := .binary (Number.Binary64.ofQuotient 10 1)
  horizontalSpacing := .whole (Int.ofNat (Nat.pow 10 400))

theorem create_drawio
    {options : DrawioOptions} (hvalid : (Options.drawio options).fault? = none) :
    Renderer.create "drawio" (some (.drawio options)) = .ok ⟨.drawio options⟩ := by
  have hname : Format.ofName? "drawio" = some .drawio := rfl
  simp [Renderer.create, hname, hvalid, Options.format]

/-- The entity is not shown by Mermaid text without blocks. A document is not written where a box has a
number beyond the range of doubles, where a number beyond it meets a double, and where a row has a size
with too many digits. -/
theorem hidden_entities :
    Diagram.ofText "a.ts" bareText = .ok bareDiagram ∧
      bareDiagram.entities.map Entity.name = [("A" : Text)] ∧
      (∃ renderer output,
        Renderer.create "mermaid" (some (.mermaid { showProperties := false })) = .ok renderer ∧
          renderer.render Drawio.idleEngine "" bareDiagram = .ok output ∧
          .scalar 'A' ∉ output.toList) ∧
      (∃ renderer,
        Renderer.create "drawio" (some (.drawio Drawio.wideOptions)) = .ok renderer ∧
          renderer.render Drawio.idleEngine "" bareDiagram = .error (.number .tooLarge)) ∧
      (∃ renderer,
        Renderer.create "drawio" (some (.drawio mixedOptions)) = .ok renderer ∧
          renderer.render Drawio.idleEngine "" bareDiagram = .error (.number .tooLarge)) ∧
      Diagram.ofText "a.ts" repeatedText = .ok repeatedDiagram ∧
      ∃ renderer,
        Renderer.create "drawio" (some (.drawio Drawio.highOptions)) = .ok renderer ∧
          renderer.render Drawio.idleEngine "" repeatedDiagram = .error (.number .tooLong) := by
  refine ⟨ofText_bareText, rfl, ⟨⟨.mermaid { showProperties := false }⟩, "erDiagram", rfl, rfl,
    by decide⟩, ⟨_, create_drawio (by decide +kernel), ?_⟩,
    ⟨_, create_drawio (by decide +kernel), ?_⟩, ofText_repeatedText,
    ⟨_, create_drawio (by decide +kernel), ?_⟩⟩
  all_goals decide +kernel

end EntityDiagram.Render
