import EntityDiagram.Render.D2
import EntityDiagram.Render.Drawio

/-!
# Renderers

A renderer is one of the three formats together with its options. Options are checked when a
renderer is made. A setting that is changed later is not checked again.
-/

namespace EntityDiagram.Render

open Layout (DrawingEngine LayoutFault)
open Model (Diagram)
open Number (Measure)

/-- The options of a format. -/
inductive Options where
  | mermaid (options : MermaidOptions)
  | d2 (options : D2Options)
  | drawio (options : DrawioOptions)
  deriving DecidableEq, Repr

/-- The output formats. -/
inductive Format where
  | mermaid
  | d2
  | drawio
  deriving DecidableEq, Repr

namespace Format

/-- All formats, in the order in which they are listed in messages. -/
def all : List Format :=
  [mermaid, d2, drawio]

/-- The name of a format. -/
def name : Format → String
  | mermaid => "mermaid"
  | d2 => "d2"
  | drawio => "drawio"

/-- The format with a name. -/
def ofName? (name : String) : Option Format :=
  all.find? fun format => format.name == name

/-- What the options of a format are called. -/
def optionsName : Format → String
  | mermaid => "MermaidOptions"
  | d2 => "D2Options"
  | drawio => "DrawioOptions"

/-- The options of a format where nothing is said. -/
def defaults : Format → Options
  | mermaid => .mermaid {}
  | d2 => .d2 {}
  | drawio => .drawio {}

end Format

/-- The format that options belong to. -/
def Options.format : Options → Format
  | mermaid _ => .mermaid
  | d2 _ => .d2
  | drawio _ => .drawio

/-- Why a renderer cannot be made. -/
inductive RendererFault where
  | unknownFormat (name : String)
  | wrongOptions (format : Format) (given : Format)
  | unknownDirection (direction : String)
  | unknownShape (shape : String)
  | rowTooShort
  | unknownLayout (layout : String)
  deriving DecidableEq, Repr

/-- The fault in words. -/
def RendererFault.message : RendererFault → String
  | unknownFormat name =>
    "Unknown output format: " ++ name ++ " (expected one of " ++
      ", ".intercalate (Format.all.map Format.name) ++ ")"
  | wrongOptions format given =>
    given.optionsName ++ " cannot configure the " ++ format.name ++ " generator, expected " ++
      format.optionsName
  | unknownDirection direction => "Unknown D2 direction: " ++ direction
  | unknownShape shape => "Unknown D2 shape: " ++ shape
  | rowTooShort => "entities_per_row must be at least 1"
  | unknownLayout layout => "Unknown Draw.io layout: " ++ layout

/-- The first fault of options, if they have one. -/
def Options.fault? : Options → Option RendererFault
  | mermaid _ => none
  | d2 options =>
    if !D2.directions.contains options.direction then some (.unknownDirection options.direction)
    else if !D2.shapes.contains options.shape then some (.unknownShape options.shape)
    else none
  | drawio options =>
    if options.entitiesPerRow.less (.whole 1) then some .rowTooShort
    else if !Drawio.layouts.contains options.layout then some (.unknownLayout options.layout)
    else none

/-- A format with its options. -/
structure Renderer where
  options : Options
  deriving DecidableEq, Repr

namespace Renderer

/-- The renderer for the name of a format, with its default options if none are given. -/
def create (formatName : String) (options : Option Options) : Except RendererFault Renderer :=
  match Format.ofName? formatName with
  | none => .error (.unknownFormat formatName)
  | some format =>
    let options := options.getD format.defaults
    if options.format ≠ format then .error (.wrongOptions format options.format)
    else
      match options.fault? with
      | some fault => .error fault
      | none => .ok ⟨options⟩

/-- The text of a diagram. The current time is given as text and needs no escaping. -/
def render (engine : DrawingEngine) (renderer : Renderer) (now : String) (diagram : Diagram) :
    Except LayoutFault Text :=
  match renderer.options with
  | .mermaid options => .ok (Mermaid.render options diagram)
  | .d2 options => .ok (D2.render options diagram)
  | .drawio options => Drawio.render engine options now diagram

end Renderer

end EntityDiagram.Render
