import EntityDiagram.Proofs.Model.AttributeNames
import EntityDiagram.Proofs.Model.EntityNames
import EntityDiagram.Proofs.Render.DocumentReading

/-!
# Characters of drawings that XML leaves out

Escaping an attribute value takes care of five characters and lets all others through, also those that
no document may contain. In the drawing of a diagram that was read from a text they can only come from
the names of attributes, which label relationships as well: the names of entities and types consist of
names, and all other values are fixed. The name of an attribute is a name or a string of the text; so
where the text itself is made of allowed characters, each other character of the drawing goes back to
an escape in a string.
-/

namespace EntityDiagram.Model

open Text (isXmlChar nonXml)

/-! ## What is read -/

theorem IsRecordName.nonXml_eq_nil
    {name : Text} (h : IsRecordName name) :
    nonXml name = [] := by
  obtain ⟨declared, rfl, hname⟩ := h
  exact Text.nonXmlChars_of_forall
    (Text.forall_mem_scalars.mpr fun c hc => Text.isXmlChar_of_isNamePart (hname.isNamePart c hc))

theorem nonXml_of_isDottedName
    {name : String} (h : Declaration.IsDottedName name) :
    nonXml name = [] := by
  refine Text.nonXmlChars_of_forall (Text.forall_mem_scalars.mpr fun c hc => ?_)
  obtain rfl | hpart := h.eq_dot_or_isNamePart hc
  · decide
  · exact Text.isXmlChar_of_isNamePart hpart

/-- Names of types consist of dotted names. -/
theorem AttributeType.isInvariant_nonXml_name :
    IsInvariant fun type => nonXml type.name = [] where
  unknown := by decide
  primitive := by decide +kernel
  named _ _ hname _ := nonXml_of_isDottedName hname
  union members _ _ hmembers := by
    rw [Text.nonXml_intercalate (by decide), List.flatMap_eq_nil_iff, List.forall_mem_map]
    exact hmembers
  marked _ _ _ _ h := h

/-- A relationship is labelled by an attribute, or by a word. -/
theorem Relationship.label_of_mem_derive
    {entities : List Entity} {link : Relationship} (h : link ∈ derive entities) :
    (∃ entity ∈ entities, ∃ field ∈ entity.attributes, field.name = link.label) ∨
      link.label = "extends" := by
  have hkey : (link.source, link.target, link.label) ∈ (derive entities).map key :=
    List.mem_map_of_mem h
  obtain ⟨entity, hentity, -, ⟨field, hfield, hname, -⟩ | ⟨field, hfield, hname, -⟩ |
    ⟨-, -, hlabel⟩⟩ := (mem_keys_derive_iff ..).mp hkey
  · exact .inl ⟨entity, hentity, field, hfield, hname⟩
  · exact .inl ⟨entity, hentity, field, hfield, hname⟩
  · exact .inr hlabel

end EntityDiagram.Model

namespace EntityDiagram.Render.Drawio

open CommandLine (Moment)
open Layout (DrawingEngine Placement)
open Model (Attribute AttributeType Diagram Entity KeyRole Relationship)
open Number (Measure)
open Source (IsEscapedIn)
open Text (IsXmlText isXmlChar nonXml nonXml_append)
open Text.Markup (Element)

/-! ## Documents -/

/-- The text that a cell shows. -/
def CellView.text : CellView → Text
  | vertex value | edge value => value

/-- Of the values of a cell, only its text can have characters that are not allowed. -/
theorem nonXml_cellElement
    (options : DrawioOptions) (cell : Cell) :
    (cellElement options cell).nonXml =
      (view? (cellElement options cell)).elim [] fun view => nonXml view.text := by
  have hone : nonXml "1" = [] := by decide
  have hgeometry : nonXml "geometry" = [] := by decide
  have hnat : ∀ n : Nat, nonXml (toString n : String) = [] := fun n => (isFixedText_nat n).nonXml_eq_nil
  have hplain : ∀ a : Measure, nonXml a.plainText = [] := fun a =>
    (isFixedText_text a).2.nonXml_eq_nil
  have htext : ∀ a : Measure, nonXml a.text = [] := fun a => (isFixedText_text a).1.nonXml_eq_nil
  have hcontainer := isFixedText_containerStyle.nonXml_eq_nil
  have hrow : ∀ isPrimary, nonXml (rowStyle isPrimary) = [] := fun isPrimary =>
    (isFixedText_rowStyle isPrimary).nonXml_eq_nil
  have hedge : ∀ cardinality, nonXml (edgeStyle cardinality) = [] := fun cardinality =>
    (isFixedText_edgeStyle cardinality).nonXml_eq_nil
  cases cell with
  | container id name box =>
    change _ = nonXml name
    simp only [cellElement, Element.nonXml, Element.nonXmlOfAll, List.flatMap_cons,
      List.flatMap_nil, List.append_nil, List.nil_append, hone, hgeometry, hnat, hplain, hcontainer]
  | row id parent text isPrimary =>
    change _ = nonXml text
    simp only [cellElement, Element.nonXml, Element.nonXmlOfAll, List.flatMap_cons,
      List.flatMap_nil, List.append_nil, List.nil_append, hone, hgeometry, hnat, htext, hrow]
  | edge id label cardinality source target =>
    change _ = nonXml label
    simp only [cellElement, Element.nonXml, Element.nonXmlOfAll, List.flatMap_cons,
      List.flatMap_nil, List.append_nil, List.nil_append, hone, hgeometry, hnat, hedge]

theorem nonXml_cells
    (options : DrawioOptions) (placement : Placement Measure) (diagram : Diagram) :
    Element.nonXmlOfAll ((cells options placement diagram).map (cellElement options)) =
      (diagramViews options diagram).flatMap fun view => nonXml view.text := by
  let shown : Option CellView → List Character := fun view =>
    view.elim [] fun view => nonXml view.text
  calc Element.nonXmlOfAll ((cells options placement diagram).map (cellElement options))
      = (cells options placement diagram).flatMap fun cell => (cellElement options cell).nonXml := by
        rw [Element.nonXmlOfAll_eq_flatMap, List.flatMap_map]
    _ = (cells options placement diagram).flatMap fun cell =>
          shown (view? (cellElement options cell)) :=
        List.flatMap_congr fun cell _ => nonXml_cellElement options cell
    _ = (((cells options placement diagram).map (cellElement options)).map view?).flatMap shown := by
        rw [List.flatMap_map, List.flatMap_map]
    _ = ((diagramViews options diagram).map some).flatMap shown := by rw [views_cells]
    _ = (diagramViews options diagram).flatMap fun view => nonXml view.text := by
        rw [List.flatMap_map]
        rfl

/-- Around the cells only the time of modification can have such characters. -/
theorem nonXml_documentAround
    (modified : Text) (elements : List Element) :
    (documentAround modified elements).root.nonXml =
      nonXml modified ++ Element.nonXmlOfAll elements := by
  have hhost : nonXml "app.diagrams.net" = [] := by decide
  have htype : nonXml "device" = [] := by decide
  have hpage : (pageAttributes.flatMap fun entry => nonXml entry.2) = [] := by decide
  have hmodel : (modelAttributes.flatMap fun entry => nonXml entry.2) = [] := by decide
  simp [documentAround, fileAttributes, Element.nonXml, Element.nonXmlOfAll, hhost, htype, hpage,
    hmodel]

/-- The time of modification is made of allowed characters, whether it is given or the current time. -/
theorem nonXml_modifiedText
    {options : DrawioOptions} (h : ∀ modified ∈ options.modified, IsXmlText modified)
    (moment : Moment) :
    nonXml (modifiedText options moment.text) = [] := by
  unfold modifiedText
  cases htext : options.modified.bind Text.nonempty? with
  | none => exact (isFixedText_moment moment).nonXml_eq_nil
  | some text =>
    obtain ⟨modified, hgiven, hnonempty⟩ := Option.bind_eq_some_iff.mp htext
    unfold Text.nonempty? at hnonempty
    split at hnonempty
    · cases hnonempty
    · obtain rfl := Option.some.inj hnonempty
      exact Text.nonXml_eq_nil_iff.mpr (h modified hgiven)

/-- A drawing has the characters that are not allowed of the texts that it shows. -/
theorem nonXml_renderPlaced
    {options : DrawioOptions} (h : ∀ modified ∈ options.modified, IsXmlText modified)
    (moment : Moment) (placement : Placement Measure) (diagram : Diagram) :
    nonXml (renderPlaced options moment.text placement diagram) =
      (diagramViews options diagram).flatMap fun view => nonXml view.text := by
  have hmodified := @modifiedValue_eq options _ fun _ => isFixedText_moment moment
  have hnone := nonXml_modifiedText h moment
  obtain ⟨behind, hspelled, hchars⟩ :=
    spells_document (spells_cells options placement diagram) (modifiedText options moment.text)
  have hmarks : Text.nonXmlChars ("<?xml" : Text).toList = [] ∧
      Text.nonXmlChars ("?>" : Text).toList = [] := by
    decide
  have hdeclaration : Text.nonXmlChars
      (Text.Markup.attributesChars declarationAttributes) = [] := by
    rw [Text.Markup.nonXmlChars_attributesChars isName_of_declaration]
    decide
  have hroot : Element.nonXmlOfAll rootElements = [] := by decide
  rw [renderPlaced, hmodified, nonXml, hchars]
  simp only [Text.nonXmlChars_append, hmarks, hdeclaration, hspelled.nonXmlChars_eq,
    List.nil_append, Element.nonXmlOfAll, List.append_nil, nonXml_documentAround, hnone]
  rw [Element.nonXmlOfAll_eq_flatMap, List.flatMap_append, ← Element.nonXmlOfAll_eq_flatMap,
    ← Element.nonXmlOfAll_eq_flatMap, hroot, nonXml_cells, List.nil_append]

/-! ## Diagrams from texts -/

theorem nonXml_keyText
    (options : DrawioOptions) {field : Attribute}
    (h : ∀ role ∈ field.key, role ∈ KeyRole.inferred) :
    nonXml (keyText options field) = [] := by
  have hmarks : ∀ role ∈ KeyRole.inferred, nonXml ("[" ++ role.mark ++ "] ") = [] := by decide
  unfold keyText
  split
  · rename_i role hrole
    split
    · exact hmarks role (h role hrole)
    · rfl
  · rfl

theorem nonXml_typeText
    {type : AttributeType} (h : nonXml type.name = []) :
    nonXml (typeText type) = [] := by
  have hbrackets : nonXml (if type.isArray = true then "[]" else "") = [] := by
    split <;> decide
  have hmark : nonXml (if type.isOptional = true then "?" else "") = [] := by
    split <;> decide
  simp only [typeText, nonXml_append, h, hbrackets, hmark, List.append_nil]

/-- What a diagram from a text shows has those characters that are not allowed of the names of its
attributes, and again of the labels of its relationships. -/
theorem nonXml_diagramViews
    {name text : String} {diagram : Diagram} (h : Diagram.ofText name text = .ok diagram)
    (options : DrawioOptions) :
    ((diagramViews options diagram).flatMap fun view => nonXml view.text) =
      (diagram.entities.flatMap fun entity =>
          entity.attributes.flatMap fun field => nonXml field.name) ++
        diagram.relationships.flatMap fun link => nonXml link.label := by
  have hnames := (Diagram.isNamed_of_ofText h).entities
  have htypes := AttributeType.isInvariant_nonXml_name.of_ofText h
  obtain ⟨file, -, rfl, hdeclared⟩ := Diagram.exists_file_of_ofText h
  have hfields : ∀ entity ∈ (Diagram.ofFiles [file]).entities, ∀ field ∈ entity.attributes,
      nonXml (keyText options field ++ field.name ++ ": " ++ typeText field.type) =
        nonXml field.name := by
    intro entity hentity field hfield
    obtain ⟨_, _, members, _, hattributes⟩ := hdeclared entity hentity
    obtain ⟨member, _, hmember⟩ := List.mem_filterMap.mp (hattributes ▸ hfield)
    have hkey := nonXml_keyText options (Attribute.mem_inferred_key hmember)
    have htype := nonXml_typeText (htypes entity hentity field hfield)
    have hcolon : nonXml ": " = [] := by decide
    simp only [nonXml_append, hkey, htype, hcolon, List.nil_append, List.append_nil]
  have hentities : ∀ entity ∈ (Diagram.ofFiles [file]).entities,
      ((entityViews options entity).flatMap fun view => nonXml view.text) =
        entity.attributes.flatMap fun field => nonXml field.name := by
    intro entity hentity
    have hname : nonXml entity.name = [] := (hnames entity hentity).name.nonXml_eq_nil
    rw [entityViews, List.flatMap_cons, List.flatMap_map, CellView.text, hname, List.nil_append]
    exact List.flatMap_congr (hfields entity hentity)
  have hconnected : (Diagram.ofFiles [file]).relationships.filter
      (IsConnected (Diagram.ofFiles [file])) = (Diagram.ofFiles [file]).relationships := by
    rw [List.filter_eq_self]
    intro link hlink
    have hedge := (Model.isGraph_ofFiles [file]).edges link hlink
    exact decide_eq_true ⟨hedge.source, hedge.target⟩
  rw [diagramViews, List.flatMap_append, List.flatMap_assoc, List.flatMap_congr hentities, hconnected,
    List.flatMap_map]
  rfl

/-- The labels of relationships bring in nothing that is not in the names of attributes. -/
theorem mem_nonXml_diagram_iff
    {name text : String} {diagram : Diagram} (h : Diagram.ofText name text = .ok diagram)
    (c : Character) :
    (c ∈ (diagram.entities.flatMap fun entity =>
          entity.attributes.flatMap fun field => nonXml field.name) ++
        diagram.relationships.flatMap fun link => nonXml link.label) ↔
      ∃ entity ∈ diagram.entities, ∃ field ∈ entity.attributes, c ∈ nonXml field.name := by
  obtain ⟨file, -, rfl, -⟩ := Diagram.exists_file_of_ofText h
  simp only [List.mem_append, List.mem_flatMap]
  constructor
  · rintro (hfield | ⟨link, hlink, hc⟩)
    · exact hfield
    · obtain ⟨entity, hentity, field, hfield, hlabel⟩ | hlabel :=
        Relationship.label_of_mem_derive hlink
      · exact ⟨entity, hentity, field, hfield, hlabel ▸ hc⟩
      · have hnone : nonXml "extends" = [] := by decide
        rw [hlabel, hnone] at hc
        cases hc
  · exact .inl

/-- The drawing of a diagram that was read from a text has those characters that XML does not allow of
the names of attributes, and again of the labels of relationships. So all its characters are allowed if
and only if all those in the names of attributes are. Where the text itself has only allowed
characters, each other character in the name of an attribute goes back to a string in the text with an
escape for the character. -/
theorem nonXml_render_of_ofText
    {name text : String} {diagram : Diagram} (h : Diagram.ofText name text = .ok diagram)
    (htext : IsXmlText text) {options : DrawioOptions}
    (hmodified : ∀ modified ∈ options.modified, IsXmlText modified) {moment : Moment}
    {engine : DrawingEngine} {document : Text}
    (hrender : render engine options moment.text diagram = .ok document) :
    nonXml document =
        (diagram.entities.flatMap fun entity =>
            entity.attributes.flatMap fun field => nonXml field.name) ++
          diagram.relationships.flatMap (fun link => nonXml link.label) ∧
      (IsXmlText document ↔
        ∀ entity ∈ diagram.entities, ∀ field ∈ entity.attributes, IsXmlText field.name) ∧
      ∀ entity ∈ diagram.entities, ∀ field ∈ entity.attributes, ∀ c ∈ nonXml field.name,
        IsEscapedIn text.toList field.name.toList c := by
  obtain ⟨placement, -, -, rfl⟩ := render_eq_ok_iff.mp hrender
  have hshown := nonXml_renderPlaced hmodified moment placement diagram
  rw [nonXml_diagramViews h] at hshown
  refine ⟨hshown, ?_, ?_⟩
  · simp only [← Text.nonXml_eq_nil_iff, List.eq_nil_iff_forall_not_mem, hshown,
      mem_nonXml_diagram_iff h]
    constructor
    · intro hnone entity hentity field hfield c hc
      exact hnone c ⟨entity, hentity, field, hfield, hc⟩
    · rintro hnone c ⟨entity, hentity, field, hfield, hc⟩
      exact hnone entity hentity field hfield c hc
  · intro entity hentity field hfield c hc
    obtain ⟨hmem, hforbidden⟩ := Text.mem_nonXml_iff.mp hc
    obtain hstands | hescaped := Diagram.mem_or_isEscapedIn_of_ofText h hentity hfield hmem
    · rw [htext c hstands] at hforbidden
      cases hforbidden
    · exact hescaped

/-- A name with an escape for the null character. -/
def nullText : String :=
  "interface A \x7b 'a\\0b': A \x7d"

def nullTokens : List Source.Token :=
  [⟨.ident "interface", ⟨⟨1, 1⟩, false, []⟩⟩, ⟨.ident "A", ⟨⟨1, 11⟩, false, []⟩⟩,
    ⟨.punct "\x7b", ⟨⟨1, 13⟩, false, []⟩⟩, ⟨.string "a\x00b", ⟨⟨1, 15⟩, false, []⟩⟩,
    ⟨.punct ":", ⟨⟨1, 21⟩, false, []⟩⟩, ⟨.ident "A", ⟨⟨1, 23⟩, false, []⟩⟩,
    ⟨.punct "\x7d", ⟨⟨1, 25⟩, false, []⟩⟩]

theorem tokens_nullText :
    Source.TokenStream.ofText nullText = .ok ⟨nullTokens, ⟨⟨1, 26⟩, false, []⟩⟩ := by
  have hkeyword : Source.readGap ⟨.start, false, []⟩ nullText.toList =
      .ok (⟨⟨1, 1⟩, false, []⟩, nullText.toList) := by cbv
  have hname : Source.readGap ⟨⟨1, 10⟩, false, []⟩ " A \x7b 'a\\0b': A \x7d".toList =
      .ok (⟨⟨1, 11⟩, false, []⟩, "A \x7b 'a\\0b': A \x7d".toList) := by cbv
  have hopen : Source.readGap ⟨⟨1, 12⟩, false, []⟩ " \x7b 'a\\0b': A \x7d".toList =
      .ok (⟨⟨1, 13⟩, false, []⟩, "\x7b 'a\\0b': A \x7d".toList) := by cbv
  have hfield : Source.readGap ⟨⟨1, 14⟩, false, []⟩ " 'a\\0b': A \x7d".toList =
      .ok (⟨⟨1, 15⟩, false, []⟩, "'a\\0b': A \x7d".toList) := by cbv
  have hstring : Source.readLexeme (some (.punct "\x7b")) ⟨1, 15⟩ '\'' "a\\0b': A \x7d".toList =
      .ok ⟨.string "a\x00b", ⟨1, 15⟩, ⟨1, 21⟩, ": A \x7d".toList⟩ := by
    have hread : Source.readString '\'' "a\\0b': A \x7d".toList =
        .ok (("a\x00b" : Text).toList, ": A \x7d".toList) := by
      simp [Source.readString, Except.map, Source.prepend, Source.plainEscape]
    rw [Source.readLexeme_quote (.inl rfl) hread]
    rfl
  have hcolon : Source.readGap ⟨⟨1, 21⟩, false, []⟩ ": A \x7d".toList =
      .ok (⟨⟨1, 21⟩, false, []⟩, ": A \x7d".toList) := by cbv
  have htype : Source.readGap ⟨⟨1, 22⟩, false, []⟩ " A \x7d".toList =
      .ok (⟨⟨1, 23⟩, false, []⟩, "A \x7d".toList) := by cbv
  have hclose : Source.readGap ⟨⟨1, 24⟩, false, []⟩ " \x7d".toList =
      .ok (⟨⟨1, 25⟩, false, []⟩, "\x7d".toList) := by cbv
  have hending : Source.readGap ⟨⟨1, 26⟩, false, []⟩ [] = .ok (⟨⟨1, 26⟩, false, []⟩, []) := by cbv
  exact Source.readTokens_token hkeyword rfl (Source.readTokens_token hname rfl
    (Source.readTokens_token hopen rfl (Source.readTokens_token hfield hstring
      (Source.readTokens_token hcolon rfl (Source.readTokens_token htype rfl
        (Source.readTokens_token hclose rfl (Source.readTokens_ending hending)))))))

/-- The one entity refers to itself. -/
def nullDiagram : Diagram where
  entities := [
    { name := "A"
      attributes := [
        { name := "a\x00b"
          type := { name := "A", isReference := true, target := some "A" } }]
      file := some "a.ts" }]
  relationships := [⟨"A", "A", .oneToOne, "a\x00b", true⟩]
  sources := ["a.ts"]

theorem ofText_nullText :
    Diagram.ofText "a.ts" nullText = .ok nullDiagram := by
  rw [Diagram.ofText, Declaration.SourceFile.ofText_eq tokens_nullText]
  rfl

theorem isXmlText_nullText :
    IsXmlText nullText ∧ IsXmlText "now" :=
  ⟨List.all_eq_true.mp (by decide), List.all_eq_true.mp (by decide)⟩

/-- The sizes are those of the default, and the time is given. -/
def datedOptions : DrawioOptions where
  modified := some "now"

theorem modified_datedOptions :
    ∀ modified ∈ datedOptions.modified, IsXmlText modified := by
  intro modified hmodified
  obtain rfl := Option.some.inj hmodified
  exact isXmlText_nullText.2

theorem exists_render_nullDiagram :
    ∃ document, render idleEngine datedOptions (Moment.mk 0).text nullDiagram = .ok document :=
  exists_of_isOk (by decide +kernel)

/-- The null character is in the row of the attribute and in the label of the relationship, and the
string has an escape for it. -/
theorem nonXml_render_nullText :
    Diagram.ofText "a.ts" nullText = .ok nullDiagram ∧ IsXmlText nullText ∧
      ∃ document, render idleEngine datedOptions (Moment.mk 0).text nullDiagram = .ok document ∧
        nonXml document = [.scalar '\x00', .scalar '\x00'] ∧ ¬IsXmlText document ∧
        IsEscapedIn nullText.toList ("a\x00b" : Text).toList '\x00' := by
  obtain ⟨document, hrender⟩ := exists_render_nullDiagram
  obtain ⟨hforbidden, hallowed, hescaped⟩ := nonXml_render_of_ofText ofText_nullText
    isXmlText_nullText.1 modified_datedOptions hrender
  have hnull : .scalar '\x00' ∈ nonXml "a\x00b" := by decide
  refine ⟨ofText_nullText, isXmlText_nullText.1, document, hrender, hforbidden.trans (by decide),
    ?_, ?_⟩
  · intro hdocument
    have hname := hallowed.mp hdocument _ List.mem_cons_self _ List.mem_cons_self '\x00' (by decide)
    exact absurd hname (by decide)
  · exact hescaped _ List.mem_cons_self _ List.mem_cons_self '\x00' hnull

/-- The text and the time are made of allowed characters and the options are accepted, and the document
contains the null character. -/
theorem null_mem_render_nullText :
    Diagram.ofText "a.ts" nullText = .ok nullDiagram ∧ IsXmlText nullText ∧
      datedOptions.layout = "grid" ∧ (Options.drawio datedOptions).fault? = none ∧
      datedOptions.modified = some ("now" : Text) ∧ IsXmlText "now" ∧
      ∃ document, render idleEngine datedOptions (Moment.mk 0).text nullDiagram = .ok document ∧
        .scalar '\x00' ∈ document.toList ∧ isXmlChar '\x00' = false := by
  obtain ⟨document, hrender⟩ := exists_render_nullDiagram
  obtain ⟨placement, -, -, rfl⟩ := render_eq_ok_iff.mp hrender
  have hforbidden := nonXml_renderPlaced modified_datedOptions (Moment.mk 0) placement nullDiagram
  have hmem : .scalar '\x00' ∈
      nonXml (renderPlaced datedOptions (Moment.mk 0).text placement nullDiagram) := by
    rw [hforbidden]
    decide
  exact ⟨ofText_nullText, isXmlText_nullText.1, rfl, by decide, rfl, isXmlText_nullText.2, _, hrender,
    (Text.mem_nonXml_iff.mp hmem).1, by decide⟩

end EntityDiagram.Render.Drawio
