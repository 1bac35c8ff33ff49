import EntityDiagram.Declaration.Parse.Statements
import EntityDiagram.Model.Relationship

/-!
# Diagrams

A diagram holds the entities of some source files and the relationships between them. Diagrams are
built from files, all of whose entities are collected before relationships are derived, and merged
from other diagrams, which keeps the relationships that these have. Either way the diagram names the
reader that it was made with, whatever the merged ones name.
-/

namespace EntityDiagram.Model

open Declaration (SourceFile)
open Source (SourceError)

/-- The name of the reader that diagrams are made with. -/
def Diagram.engine : String := "ts-erd"

/-- Entities, relationships between them, the names of the files they come from, and the reader that
made the diagram. -/
structure Diagram where
  entities : List Entity := []
  relationships : List Relationship := []
  sources : List String := []
  reader : String := Diagram.engine
  deriving Repr, Inhabited

namespace Diagram

/-- The diagram of source files. -/
def ofFiles (files : List SourceFile) : Diagram :=
  let entities := files.flatMap Entity.listOfFile
  { entities
    relationships := Relationship.derive entities
    sources := files.map SourceFile.name
    reader := engine }

/-- Diagrams one after the other; of relationships with the same key the first one stays. -/
def merge (diagrams : List Diagram) : Diagram :=
  { entities := diagrams.flatMap Diagram.entities
    relationships := Relationship.distinct (diagrams.flatMap Diagram.relationships)
    sources := diagrams.flatMap Diagram.sources
    reader := engine }

/-- The diagram of one source text. -/
def ofText (name text : String) : Except SourceError Diagram := do
  let file ← SourceFile.ofText name text
  return ofFiles [file]

/-- The diagram of several source texts, each with its name. They are read in order. -/
def ofTexts (texts : List (String × String)) : Except SourceError Diagram := do
  let files ← texts.mapM fun (name, text) => SourceFile.ofText name text
  return ofFiles files

/-- How many entities a diagram has. -/
def entityCount (diagram : Diagram) : Nat :=
  diagram.entities.length

/-- How many relationships a diagram has. -/
def relationshipCount (diagram : Diagram) : Nat :=
  diagram.relationships.length

end Diagram

end EntityDiagram.Model
