import EntityDiagram.Proofs.Model.DeclarationOrder
import EntityDiagram.Proofs.Model.MemberLocality

/-!
# The question mark of a property

Whether a property is optional does not decide what it refers to, only how often. Of the relationships
at most one changes when a question mark is set or taken away: it keeps its ends and its label, and its
cardinality changes on one side between exactly and at most one, or between many and any number.
-/

namespace EntityDiagram.Declaration

end EntityDiagram.Declaration

namespace EntityDiagram.Model

open Declaration (Member SourceFile)

/-- The cardinalities are alike but for whether there may be none. -/
inductive Cardinality.SwitchesOptional : Cardinality → Cardinality → Prop
  | allowNone : SwitchesOptional .oneToOne .oneToZeroOrOne
  | demandOne : SwitchesOptional .oneToZeroOrOne .oneToOne
  | allowEmpty : SwitchesOptional .oneToMany .oneToZeroOrMore
  | demandSome : SwitchesOptional .oneToZeroOrMore .oneToMany

namespace Relationship

/-- The relationships of an attribute before and after: only optionality is switched. -/
structure SwitchesOptional (owner label : Text) (link link' : Relationship) : Prop where
  source : link.source = owner
  label : link.label = label
  key : link'.key = link.key
  cardinality : link.cardinality.SwitchesOptional link'.cardinality
  isIdentifying : link'.isIdentifying = !link.isIdentifying

end Relationship

end EntityDiagram.Model
