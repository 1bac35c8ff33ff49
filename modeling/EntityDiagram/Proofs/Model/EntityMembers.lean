import EntityDiagram.Model.Diagram
import EntityDiagram.Proofs.Declaration.Reading

/-!
# Entities and the members they come from

Every entity comes from a statement that declares a record: an interface, or an alias of an object
type. Its attributes are those that the members of the record declare.
-/

namespace EntityDiagram.Model

open Declaration (Alias Interface Member SourceFile Statement)

/-- The statement declares a record with the name and the members. -/
inductive Declares : Statement → Text → List Member → Prop
  | interface (declaration : Interface) :
    Declares (.interface declaration) declaration.name declaration.members
  | typeAlias {declaration : Alias} {members : List Member}
      (hobject : declaration.type = .object members) :
    Declares (.alias declaration) declaration.name members

theorem Entity.ofStatement?_eq_some
    {file : String} {statement : Statement} {entity : Entity}
    (h : ofStatement? file statement = some entity) :
    ∃ members, Declares statement entity.name members ∧
      entity.attributes = members.filterMap Attribute.ofMember? := by
  cases statement with
  | interface declaration =>
    obtain rfl := Option.some.inj h
    exact ⟨declaration.members, .interface declaration, rfl⟩
  | «alias» declaration =>
    simp only [ofStatement?, ofAlias?] at h
    split at h
    · rename_i members hobject
      obtain rfl := Option.some.inj h
      exact ⟨members, .typeAlias hobject, rfl⟩
    · cases h
  | other keyword => cases h

theorem Entity.exists_declares_of_mem_listOfFile
    {file : SourceFile} {entity : Entity} (h : entity ∈ listOfFile file) :
    ∃ statement ∈ file.statements, ∃ members, Declares statement entity.name members ∧
      entity.attributes = members.filterMap Attribute.ofMember? := by
  obtain ⟨statement, hstatement, hentity⟩ := List.mem_filterMap.mp h
  exact ⟨statement, hstatement, ofStatement?_eq_some hentity⟩

/-- What is read from one text comes from the statements of one file. -/
theorem Diagram.exists_file_of_ofText
    {name text : String} {diagram : Diagram} (h : Diagram.ofText name text = .ok diagram) :
    ∃ file, SourceFile.ofText name text = .ok file ∧ diagram = ofFiles [file] ∧
      ∀ entity ∈ diagram.entities, ∃ statement ∈ file.statements, ∃ members,
        Declares statement entity.name members ∧
          entity.attributes = members.filterMap Attribute.ofMember? := by
  obtain ⟨file, hfile, h⟩ := Declaration.Parse.bind_eq_ok h
  obtain rfl := Except.ok.inj h
  refine ⟨file, hfile, rfl, fun entity hentity => ?_⟩
  have hmem : entity ∈ [file].flatMap Entity.listOfFile := hentity
  rw [List.flatMap_singleton] at hmem
  exact Entity.exists_declares_of_mem_listOfFile hmem

end EntityDiagram.Model
