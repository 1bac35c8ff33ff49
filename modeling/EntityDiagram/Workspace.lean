import EntityDiagram.Model.DiagramSource
import EntityDiagram.Render.Setting

/-!
# Workspaces

A workspace keeps diagrams and renderers under names. A step loads, merges or shows diagrams, makes
or changes a renderer, or renders a diagram. A step that fails changes nothing.
-/

namespace EntityDiagram

open Layout (DrawingEngine LayoutFault)
open Model (Diagram DiagramSource Entity Relationship)
open Render (Options Renderer RendererFault Setting)
open Source (SourceError)

/-- Why a diagram could not be made or rendered. -/
inductive Failure where
  | source (error : SourceError)
  | renderer (fault : RendererFault)
  | layout (fault : LayoutFault)
  /-- No diagram or renderer has the name. -/
  | unknownName (name : String)
  /-- The options of a format do not have the setting. -/
  | unknownSetting (format : Render.Format) (setting : String)

/-- The failure in words. -/
def Failure.message : Failure → String
  | source error => error.message
  | renderer fault => fault.message
  | layout fault => fault.message
  | unknownName name => Text.quoted name
  | unknownSetting format setting =>
    "'" ++ format.optionsName ++ "' object has no attribute '" ++ setting ++ "'"

/-- Renders a diagram in a format. The renderer is made before the diagram is read, unless the
diagram is wanted first; this decides which of two failures is reported. -/
def generate
    (engine : DrawingEngine) (formatName : String) (options : Option Options)
    (source : DiagramSource) (diagramFirst : Bool) (now : String) : Except Failure Text := do
  let make := (Renderer.create formatName options).mapError Failure.renderer
  let read := source.read.mapError Failure.source
  if diagramFirst then
    let diagram ← read
    let renderer ← make
    (renderer.render engine now diagram).mapError Failure.layout
  else
    let renderer ← make
    let diagram ← read
    (renderer.render engine now diagram).mapError Failure.layout

/-- Diagrams and renderers by name. -/
structure Workspace where
  diagrams : List (String × Diagram) := []
  renderers : List (String × Renderer) := []

namespace Workspace

/-- What is asked of a workspace. -/
inductive Step where
  | load (name : String) (source : DiagramSource)
  | merge (name : String) (parts : List String)
  | show (name : String)
  /-- Derives the relationships of a diagram's entities anew. -/
  | rederive (name : String)
  | create (name : String) (format : String) (options : Option Options)
  | set (name : String) (setting : Setting)
  | render (renderer : String) (name : String)

/-- What a step answers. -/
inductive Answer where
  | nothing
  | diagram (diagram : Diagram)
  | relationships (relationships : List Relationship)
  | text (text : Text)

/-- A list of named values in which a name has a new value. -/
def insert {α : Type} (entries : List (String × α)) (name : String) (value : α) :
    List (String × α) :=
  (name, value) :: entries.filter fun entry => entry.1 != name

/-- The value of a name, which has to have one. -/
def find {α : Type} (entries : List (String × α)) (name : String) : Except Failure α :=
  match entries.lookup name with
  | some value => .ok value
  | none => .error (.unknownName name)

/-- The answer to a step, and the workspace after it. -/
def apply (engine : DrawingEngine) (workspace : Workspace) (now : String) :
    Step → Except Failure (Answer × Workspace)
  | .load name source => do
    let diagram ← source.read.mapError Failure.source
    return (.nothing, { workspace with diagrams := insert workspace.diagrams name diagram })
  | .merge name parts => do
    let found ← parts.mapM (find workspace.diagrams)
    return (.nothing,
      { workspace with diagrams := insert workspace.diagrams name (Diagram.merge found) })
  | .show name => do
    let diagram ← find workspace.diagrams name
    return (.diagram diagram, workspace)
  | .rederive name => do
    let diagram ← find workspace.diagrams name
    return (.relationships (Relationship.derive diagram.entities), workspace)
  | .create name format options => do
    let renderer ← (Renderer.create format options).mapError Failure.renderer
    return (.text renderer.options.format.name,
      { workspace with renderers := insert workspace.renderers name renderer })
  | .set name setting => do
    let renderer ← find workspace.renderers name
    match renderer.options.set? setting with
    | some options => return (.nothing,
        { workspace with renderers := insert workspace.renderers name ⟨options⟩ })
    | none => throw (.unknownSetting renderer.options.format setting.name)
  | .render renderer name => do
    let renderer ← find workspace.renderers renderer
    let diagram ← find workspace.diagrams name
    let text ← (renderer.render engine now diagram).mapError Failure.layout
    return (.text text, workspace)

/-- The names of the diagrams with their numbers of entities and relationships, sorted by name. -/
def overview (workspace : Workspace) : List (String × Nat × Nat) :=
  (workspace.diagrams.map fun (name, diagram) =>
    (name, diagram.entityCount, diagram.relationshipCount)).mergeSort
      fun a b => decide (a.1 ≤ b.1)

/-- The answer to a step or its failure, and the workspace after it. -/
def step (engine : DrawingEngine) (workspace : Workspace) (now : String) (step : Step) :
    Except Failure Answer × Workspace :=
  match workspace.apply engine now step with
  | .ok (answer, after) => (.ok answer, after)
  | .error failure => (.error failure, workspace)

/-- The answers to steps, each with the overview after it. -/
def run (engine : DrawingEngine) (workspace : Workspace) (now : String) :
    List Step → List (Except Failure Answer × List (String × Nat × Nat))
  | [] => []
  | first :: rest =>
    let (answer, after) := workspace.step engine now first
    (answer, after.overview) :: run engine after now rest

end Workspace

end EntityDiagram
