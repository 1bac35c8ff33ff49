import EntityDiagram.Model.Diagram

/-!
# Where diagrams come from

A diagram is given as such, or as source files, or as texts that have still to be read.
-/

namespace EntityDiagram.Model

open Declaration (SourceFile)
open Source (SourceError)

/-- A diagram, or something that it can be made from. -/
inductive DiagramSource where
  | diagram (diagram : Diagram)
  | files (files : List SourceFile)
  /-- Texts with their names. -/
  | texts (texts : List (String × String))

/-- The diagram that a source stands for. -/
def DiagramSource.read : DiagramSource → Except SourceError Diagram
  | diagram value => .ok value
  | files values => .ok (Diagram.ofFiles values)
  | texts values => Diagram.ofTexts values

end EntityDiagram.Model
