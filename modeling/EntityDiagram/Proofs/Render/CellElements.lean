import Mathlib.Data.List.Forall2
import EntityDiagram.Proofs.Render.FixedValues
import EntityDiagram.Proofs.Text.MarkupReading

/-!
# Cells as elements

A Draw.io document is markup that a strict reader takes back to a tree of elements: four elements
around the elements of the cells. Names, labels and the time of modification are escaped, and all other
values are made of characters that stand for themselves, so no text of a diagram can add or end a tag
or an attribute.
-/

namespace EntityDiagram.Render.Drawio

open Layout (Placement)
open Model (Diagram)
open Number (Measure)
open Text.Markup (Attributes Document Element Spells Tag areNames attributeChars attributesChars isName
  isSpace readDocument)

/-! ## Attributes and tags -/

/-- The text gives attributes as they stand in a tag. -/
def Gives (text : Text) (attributes : Attributes) : Prop :=
  text.toList = attributesChars attributes

theorem Gives.append
    {a b : Text} {front back : Attributes} (ha : Gives a front) (hb : Gives b back) :
    Gives (a ++ b) (front ++ back) := by
  rw [Gives, Text.toList_append, ha, hb, attributesChars, attributesChars, attributesChars,
    List.flatMap_append]

/-- Any text may be the value of an attribute that is written escaped. -/
theorem textAttribute_gives
    (name : String) (value : Text) :
    Gives (textAttribute name value) [(name, value)] := by
  simp [Gives, textAttribute, plainAttribute, Text.escapeMarkup, attributesChars,
    Text.Markup.attributeChars]

theorem plainAttribute_gives
    {value : String} (h : IsFixedText value) (name : String) :
    Gives (plainAttribute name value) [(name, value)] := by
  have hsame : textAttribute name value = plainAttribute name value := by
    rw [textAttribute, h.escapeMarkup_eq_self]
  exact hsame ▸ textAttribute_gives name value

/-- White space in front is skipped. -/
theorem spells_blank
    {blank : Text} (hblank : blank.toList.all isSpace = true) {cs : List Character}
    {elements : List Element} (h : Spells cs elements) :
    Spells (blank.toList ++ cs) elements := by
  generalize blank.toList = chars at hblank ⊢
  induction chars with
  | nil => exact h
  | cons c rest ih =>
    rw [List.all_cons, Bool.and_eq_true] at hblank
    exact .space hblank.1 (ih hblank.2)

/-! ## Cells as elements -/

/-- The element that a cell is read back as. -/
def cellElement (options : DrawioOptions) : Cell → Element
  | .container id name box =>
    .node "mxCell"
      [("id", toString id), ("value", name), ("style", containerStyle), ("vertex", "1"),
        ("parent", "1")]
      [.node "mxGeometry"
        [("x", box.x.plainText), ("y", box.y.plainText), ("width", box.width.plainText),
          ("height", box.height.plainText), ("as", "geometry")] []]
  | .row id parent text isPrimary =>
    .node "mxCell"
      [("id", toString id), ("value", text), ("style", rowStyle isPrimary), ("vertex", "1"),
        ("parent", toString parent)]
      [.node "mxGeometry"
        [("y", toString rowTop), ("width", options.entityWidth.text),
          ("height", options.rowHeight.text), ("as", "geometry")] []]
  | .edge id label cardinality source target =>
    .node "mxCell"
      [("id", toString id), ("value", label), ("style", edgeStyle cardinality), ("edge", "1"),
        ("parent", "1"), ("source", toString source), ("target", toString target)]
      [.node "mxGeometry" [("relative", "1"), ("as", "geometry")] []]

/-- The last attribute of every geometry, which says what it is to its cell. -/
def geometryRole : Attributes :=
  [("as", "geometry")]

/-- What the text of a cell spells, by the attributes of its start tag and of its geometry. -/
theorem spells_element
    {text geometryText : Text} {attributes geometry : Attributes} (htext : Gives text attributes)
    (hgeometryText : Gives geometryText geometry)
    (hattributes : areNames (attributes.map Prod.fst) = true)
    (hgeometry : areNames ((geometry ++ geometryRole).map Prod.fst) = true) :
    Spells (element text geometryText).toList
      [.node "mxCell" attributes [.node "mxGeometry" (geometry ++ geometryRole) []]] := by
  have hlast : Gives (plainAttribute "as" "geometry") geometryRole :=
    plainAttribute_gives (isFixedText_ofList (by decide)) "as"
  have hend : Spells (("\n      " : Text).toList ++ []) [] := spells_blank (by decide) .nil
  have hinner := spells_blank (show ("\n        " : Text).toList.all isSpace = true by decide)
    (Spells.empty (show isName "mxGeometry" = true by rfl) hgeometry hend)
  have hcell := Spells.nested (show isName "mxCell" = true by rfl) hattributes hinner .nil
  have hspelled := spells_blank (show ("      " : Text).toList.all isSpace = true by decide) hcell
  have hgeometryChars := hgeometryText.append hlast
  rw [Gives] at htext
  rw [Gives, Text.toList_append] at hgeometryChars
  convert hspelled using 1
  unfold element
  simp [Tag.chars, ← hgeometryChars, ← htext]

/-- A cell is spelled as its element. -/
theorem spells_cellText
    (options : DrawioOptions) (cell : Cell) :
    Spells (cellText options cell).toList [cellElement options cell] := by
  have hone : ∀ name, Gives (plainAttribute name "1") [(name, "1")] :=
    plainAttribute_gives (isFixedText_ofList (by decide))
  have hnat : ∀ name n, Gives (plainAttribute name (toString n)) [(name, toString n)] :=
    fun name n => plainAttribute_gives (isFixedText_nat n) name
  cases cell with
  | container id name box =>
    have hattributes := ((((hnat "id" id).append (textAttribute_gives "value" name)).append
      (plainAttribute_gives isFixedText_containerStyle "style")).append (hone "vertex")).append
      (hone "parent")
    have hgeometry := (((plainAttribute_gives (isFixedText_text box.x).2 "x").append
      (plainAttribute_gives (isFixedText_text box.y).2 "y")).append
      (plainAttribute_gives (isFixedText_text box.width).2 "width")).append
      (plainAttribute_gives (isFixedText_text box.height).2 "height")
    exact spells_element hattributes hgeometry
      (show areNames ["id", "value", "style", "vertex", "parent"] = true by decide)
      (show areNames ["x", "y", "width", "height", "as"] = true by decide)
  | row id parent text isPrimary =>
    have hattributes := ((((hnat "id" id).append (textAttribute_gives "value" text)).append
      (plainAttribute_gives (isFixedText_rowStyle isPrimary) "style")).append
      (hone "vertex")).append (hnat "parent" parent)
    have hgeometry := ((hnat "y" rowTop).append
      (plainAttribute_gives (isFixedText_text options.entityWidth).1 "width")).append
      (plainAttribute_gives (isFixedText_text options.rowHeight).1 "height")
    exact spells_element hattributes hgeometry
      (show areNames ["id", "value", "style", "vertex", "parent"] = true by decide)
      (show areNames ["y", "width", "height", "as"] = true by decide)
  | edge id label cardinality source target =>
    have hattributes := ((((((hnat "id" id).append (textAttribute_gives "value" label)).append
      (plainAttribute_gives (isFixedText_edgeStyle cardinality) "style")).append
      (hone "edge")).append (hone "parent")).append (hnat "source" source)).append
      (hnat "target" target)
    exact spells_element hattributes (hone "relative")
      (show areNames ["id", "value", "style", "edge", "parent", "source", "target"] = true by decide)
      (show areNames ["relative", "as"] = true by decide)

/-! ## The document around the cells -/

/-- The two elements that every document starts with. -/
def rootElements : List Element :=
  [.node "mxCell" [("id", "0")] [], .node "mxCell" [("id", "1"), ("parent", "0")] []]

/-- The attributes of the drawing, which say how it is shown. -/
def modelAttributes : Attributes :=
  [("dx", "1000"), ("dy", "600"), ("grid", "1"), ("gridSize", "10"), ("guides", "1"),
    ("tooltips", "1"), ("connect", "1"), ("arrows", "1"), ("fold", "1"), ("page", "1"),
    ("pageScale", "1"), ("pageWidth", "850"), ("pageHeight", "1100"), ("math", "0"),
    ("shadow", "0")]

/-- The attributes of the declaration. -/
def declarationAttributes : Attributes :=
  [("version", "1.0"), ("encoding", "UTF-8")]

/-- The attributes of the file. -/
def fileAttributes (modified : Text) : Attributes :=
  [("host", "app.diagrams.net"), ("modified", modified), ("type", "device")]

/-- The attributes of the page. -/
def pageAttributes : Attributes :=
  [("name", "ER Diagram"), ("id", "er-diagram")]

/-- The document around the elements of cells. -/
def documentAround (modified : Text) (cells : List Element) : Document where
  declaration := declarationAttributes
  root :=
    .node "mxfile" (fileAttributes modified)
      [.node "diagram" pageAttributes
        [.node "mxGraphModel" modelAttributes [.node "root" [] cells]]]

/-- Lines that spell one element each spell these elements in turn. -/
theorem spells_unlines
    {lines : List Text} {elements : List Element}
    (h : List.Forall₂ (fun line element => Spells line.toList [element]) lines elements) :
    Spells (Text.unlines lines).toList elements := by
  induction h with
  | nil => exact .nil
  | @cons line element rest more hline hrest ih =>
    cases hrest with
    | nil =>
      rw [Text.unlines, Text.intercalate_singleton]
      exact hline
    | cons _ _ =>
      rw [Text.unlines, Text.intercalate_cons_cons, Text.toList_append, Text.toList_append,
        List.append_assoc]
      exact hline.append (spells_blank (by decide) ih)

theorem spells_rootCells :
    List.Forall₂ (fun line element => Spells line.toList [element]) rootCells rootElements := by
  have hempty : ∀ attributes : Attributes, areNames (attributes.map Prod.fst) = true →
      Spells (("      " : Text).toList ++ ((Tag.empty "mxCell" attributes).chars ++ []))
        [.node "mxCell" attributes []] := fun _ hnames =>
    spells_blank (by decide) (.empty rfl hnames .nil)
  refine .cons ?_ (.cons ?_ .nil)
  · convert hempty [("id", "0")] (by decide) using 1
    decide +kernel
  · convert hempty [("id", "1"), ("parent", "0")] (by decide) using 1
    decide +kernel

/-- The text of an element whose tags have lines of their own, with the same indentation. -/
def wrapped (indent name : Text) (attributes : Attributes) (inner : List Character) :
    List Character :=
  indent.toList ++ ((Tag.opening name attributes).chars ++ (("\n" : Text).toList ++ (inner ++
    (("\n" : Text).toList ++ (indent.toList ++ (Tag.closing name).chars)))))

theorem spells_wrapped
    {indent name : Text} {attributes : Attributes} {inner : List Character} {children : List Element}
    (hindent : indent.toList.all isSpace = true) (hname : isName name = true)
    (hattributes : areNames (attributes.map Prod.fst) = true) (hinner : Spells inner children) :
    Spells (wrapped indent name attributes inner) [.node name attributes children] := by
  have hbreak : ∀ {cs elements}, Spells cs elements → Spells (("\n" : Text).toList ++ cs) elements :=
    spells_blank (by decide)
  have hblank := hbreak (spells_blank hindent .nil)
  have hlines := hbreak (hinner.append hblank)
  rw [List.append_nil, List.append_nil] at hlines
  have hspelled := spells_blank hindent (Spells.nested hname hattributes hlines .nil)
  convert hspelled using 1
  simp only [wrapped, List.append_assoc, List.append_nil]

/-- The line that starts a file; the time of modification is its only variable part. -/
theorem toList_fileLine
    (modified : Text) :
    ("<mxfile host=\"app.diagrams.net\" modified=\"" ++ Text.escapeMarkup modified ++
        "\" type=\"device\">").toList =
      ("" : Text).toList ++ (Tag.opening "mxfile" (fileAttributes modified)).chars := by
  have hfront : ("<mxfile host=\"app.diagrams.net\" modified=\"" : Text).toList =
      .scalar '<' :: ("mxfile" : Text).toList ++ attributeChars ("host", "app.diagrams.net") ++
        (" modified=\"" : Text).toList := by
    decide +kernel
  have hback : ("\" type=\"device\">" : Text).toList =
      .scalar '"' :: attributeChars ("type", "device") ++ [.scalar '>'] := by
    decide +kernel
  rw [Text.toList_append, Text.toList_append, hfront, hback, Text.escapeMarkup]
  simp [Tag.chars, attributesChars, attributeChars, fileAttributes]

/-- The text of a document, element by element. -/
theorem toList_document
    (modified cells : Text) :
    (document (Text.escapeMarkup modified) cells).toList =
      ("<?xml" : Text).toList ++ attributesChars declarationAttributes ++ ("?>" : Text).toList ++
        (("\n" : Text).toList ++ wrapped "" "mxfile" (fileAttributes modified)
          (wrapped "  " "diagram" pageAttributes
            (wrapped "    " "mxGraphModel" modelAttributes
              (wrapped "      " "root" [] cells.toList)))) := by
  have hdeclaration : ("<?xml version=\"1.0\" encoding=\"UTF-8\"?>" : Text).toList =
      ("<?xml" : Text).toList ++ attributesChars declarationAttributes ++ ("?>" : Text).toList := by
    decide +kernel
  have hpage : ("  <diagram name=\"ER Diagram\" id=\"er-diagram\">" : Text).toList =
      ("  " : Text).toList ++ (Tag.opening "diagram" pageAttributes).chars := by
    decide +kernel
  have hmodel : ("    <mxGraphModel dx=\"1000\" dy=\"600\" grid=\"1\" gridSize=\"10\" guides=\"1\" " ++
        "tooltips=\"1\" connect=\"1\" arrows=\"1\" fold=\"1\" page=\"1\" pageScale=\"1\" " ++
        "pageWidth=\"850\" pageHeight=\"1100\" math=\"0\" shadow=\"0\">" : Text).toList =
      ("    " : Text).toList ++ (Tag.opening "mxGraphModel" modelAttributes).chars := by
    decide +kernel
  have hroot : ("      <root>" : Text).toList =
      ("      " : Text).toList ++ (Tag.opening "root" []).chars := by
    decide +kernel
  have hclosings : ("      </root>" : Text).toList =
        ("      " : Text).toList ++ (Tag.closing "root").chars ∧
      ("    </mxGraphModel>" : Text).toList =
        ("    " : Text).toList ++ (Tag.closing "mxGraphModel").chars ∧
      ("  </diagram>" : Text).toList = ("  " : Text).toList ++ (Tag.closing "diagram").chars ∧
      ("</mxfile>" : Text).toList = ("" : Text).toList ++ (Tag.closing "mxfile").chars := by
    decide +kernel
  unfold document
  rw [Text.unlines, Text.toList_intercalate]
  simp only [List.map_cons, List.map_nil, List.intercalate_cons_cons, List.intercalate_singleton]
  rw [hdeclaration, toList_fileLine, hpage, hmodel, hroot, hclosings.1, hclosings.2.1,
    hclosings.2.2.1, hclosings.2.2.2]
  simp only [wrapped, List.append_assoc]

/-- Behind its declaration a document spells what its cells spell, inside four elements of its own. -/
theorem spells_document
    {cells : Text} {elements : List Element} (h : Spells cells.toList elements)
    (modified : Text) :
    ∃ behind, Spells behind [(documentAround modified elements).root] ∧
      (document (Text.escapeMarkup modified) cells).toList =
        ("<?xml" : Text).toList ++ attributesChars declarationAttributes ++ ("?>" : Text).toList ++
          behind := by
  have hroot : Spells (wrapped "      " "root" [] cells.toList) [.node "root" [] elements] :=
    spells_wrapped (by decide) rfl (by decide) h
  have hmodel : Spells (wrapped "    " "mxGraphModel" modelAttributes _) _ :=
    spells_wrapped (by decide) rfl (by decide) hroot
  have hpage : Spells (wrapped "  " "diagram" pageAttributes _) _ :=
    spells_wrapped (by decide) rfl (by decide) hmodel
  have hfile : Spells (wrapped "" "mxfile" (fileAttributes modified) _) _ :=
    spells_wrapped (by decide) rfl (show areNames ["host", "modified", "type"] = true by decide)
      hpage
  exact ⟨_, spells_blank (by decide) hfile, toList_document modified cells⟩

theorem isName_of_declaration :
    ∀ entry ∈ declarationAttributes, isName entry.1 = true := by
  decide

/-- So a document is read back as these elements. -/
theorem readDocument_document
    {cells : Text} {elements : List Element} (h : Spells cells.toList elements)
    (modified : Text) :
    readDocument (document (Text.escapeMarkup modified) cells).toList =
      some (documentAround modified elements) := by
  obtain ⟨behind, hspelled, hchars⟩ := spells_document h modified
  rw [hchars]
  exact Text.Markup.readDocument_append isName_of_declaration hspelled

/-! ## The document of a diagram -/

/-- The lines of cells spell the elements that cells are read back as. -/
theorem spells_cells
    (options : DrawioOptions) (placement : Placement Measure) (diagram : Diagram) :
    Spells
      (Text.unlines
        (rootCells ++ (cells options placement diagram).map (cellText options))).toList
      (rootElements ++ (cells options placement diagram).map (cellElement options)) := by
  have hcells : List.Forall₂ (fun line element => Spells line.toList [element])
      ((cells options placement diagram).map (cellText options))
      ((cells options placement diagram).map (cellElement options)) := by
    rw [List.forall₂_map_left_iff, List.forall₂_map_right_iff, List.forall₂_same]
    exact fun cell _ => spells_cellText options cell
  exact spells_unlines (List.rel_append spells_rootCells hcells)

/-- The time of modification: the text of the options, or the current time. -/
def modifiedText (options : DrawioOptions) (now : String) : Text :=
  (options.modified.bind Text.nonempty?).getD now

/-- The time of modification is written escaped: there is nothing to escape in the current time. -/
theorem modifiedValue_eq
    {options : DrawioOptions} {now : String}
    (hnow : options.modified.bind Text.nonempty? = none → IsFixedText now) :
    modifiedValue options now = Text.escapeMarkup (modifiedText options now) := by
  unfold modifiedValue modifiedText
  split
  · rename_i text htext
    rw [htext, Option.getD_some]
  · rename_i hnone
    rw [hnone, Option.getD_none, (hnow hnone).escapeMarkup_eq_self]

theorem modifiedText_eq
    {options : DrawioOptions} {modified : Text} (hmodified : options.modified = some modified)
    (hnonempty : modified ≠ "") (now : String) :
    modifiedText options now = modified := by
  simp [modifiedText, hmodified, Text.nonempty?, hnonempty]

/-- A document is read back as its cells. -/
theorem readDocument_renderPlaced
    {options : DrawioOptions} {now : String}
    (hnow : options.modified.bind Text.nonempty? = none → IsFixedText now)
    (placement : Placement Measure) (diagram : Diagram) :
    readDocument (renderPlaced options now placement diagram).toList =
      some (documentAround (modifiedText options now)
        (rootElements ++ (cells options placement diagram).map (cellElement options))) := by
  rw [renderPlaced, modifiedValue_eq hnow]
  exact readDocument_document (spells_cells options placement diagram) _

end EntityDiagram.Render.Drawio
