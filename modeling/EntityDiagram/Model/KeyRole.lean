import EntityDiagram.Declaration.Documentation

/-!
# Key roles

An attribute may be a primary, a foreign or a unique key. Its documentation decides first; without a
key tag the name decides: `id`, `ID` and `_id` are primary keys, and a longer name that ends in `Id`
is a foreign key.
-/

namespace EntityDiagram.Model

open Declaration (Documentation)

/-- The part that an attribute plays as a key. -/
inductive KeyRole where
  | primary
  | foreign
  | unique
  /-- A role with a mark of its own, in a diagram that was not read from declarations. -/
  | other (mark : Text)
  deriving DecidableEq, Repr

namespace KeyRole

/-- The mark of a role in a drawing. -/
def mark : KeyRole → Text
  | primary => "PK"
  | foreign => "FK"
  | unique => "UK"
  | other mark => mark

/-- The role with a mark. -/
def ofMark (mark : Text) : KeyRole :=
  if mark = "PK" then primary
  else if mark = "FK" then foreign
  else if mark = "UK" then unique
  else other mark

/-- The roles that tags give, in the order in which they are looked for. -/
def tagNames : List (List Text × KeyRole) :=
  [(["pk", "primaryKey"], primary), (["fk", "foreignKey"], foreign), (["unique"], unique)]

/-- The role that a tag gives. -/
def ofTags? (docs : Documentation) : Option KeyRole :=
  (tagNames.find? fun entry => docs.hasTag entry.1).map Prod.snd

/-- A text in front of a final `Id`, if it is not empty. -/
def stem? (name : Text) : Option Text :=
  let cs := name.toList
  if (['I', 'd'] : List Character).isSuffixOf cs && 2 < cs.length then
    some (.ofList (cs.take (cs.length - 2)))
  else none

/-- The role that a name gives. -/
def ofName? (name : Text) : Option KeyRole :=
  if (["id", "ID", "_id"] : List Text).contains name then some primary
  else if (stem? name).isSome then some foreign
  else none

/-- The role of an attribute with a name and perhaps documentation. -/
def infer? (name : Text) (docs : Option Documentation) : Option KeyRole :=
  (docs.bind ofTags?).or (ofName? name)

end KeyRole

end EntityDiagram.Model
