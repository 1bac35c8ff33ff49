import Mathlib.Data.List.Nodup
import EntityDiagram.Model.Diagram
import EntityDiagram.Proofs.Model.DeclaredEntities
import EntityDiagram.Proofs.Model.GraphInvariant
import EntityDiagram.Proofs.Model.JointDerivation

/-!
# Inheritance

An interface is connected with every known entity that it extends, by exactly one relationship with the
label `extends`. As a rule it is the relationship that stands for inheritance. An attribute may also be
named `extends`, though, and the first relationship of a key counts: an attribute that leads to the same
entity as a list or optionally, and stands in front, puts its own relationship in this place.
-/

namespace EntityDiagram.Model

open Declaration (Heritage Interface SourceFile Statement)

/-- The attribute leads to the entity by one of the rules for attributes, as a list or optionally. -/
inductive LeadsLoosely (names : List Text) (field : Attribute) (target : Text) : Prop
  | reference (h : RefersTo names field target)
      (hloose : field.type.isArray = true ∨ field.type.isOptional = true) :
    LeadsLoosely names field target
  | foreignKey (h : NamesKeyOf names field target) (hloose : field.type.isOptional = true) :
    LeadsLoosely names field target

namespace Relationship

/-- The relationship that stands for inheritance. -/
def inheritance (child parent : Text) : Relationship where
  source := child
  target := parent
  cardinality := .oneToOne
  label := "extends"
  isIdentifying := true

/-- An attribute with the name `extends` leads to the parent as a list or optionally, and nothing in
front of it gives rise to a relationship between the two with this label. -/
def IsOverridden (entities : List Entity) (child parent : Text) : Prop :=
  ∃ (place : Nat) (entity : Entity) (field : Attribute),
    (candidates entities)[place]? = some (entity, .inl field) ∧
    entity.name = child ∧ field.name = "extends" ∧
    LeadsLoosely (entities.map Entity.name) field parent ∧
    ∀ earlier < place, ∀ candidate other, (candidates entities)[earlier]? = some candidate →
      Yields (entities.map Entity.name) candidate other → other.key ≠ (child, parent, ("extends" : Text))

/-! ## What is kept -/

theorem eq_of_yields
    {names : List Text} {candidate : Candidate} {link other : Relationship}
    (h : Yields names candidate link) (hother : Yields names candidate other) :
    link = other := by
  rw [← ofCandidate?_eq_some_iff] at h hother
  exact Option.some.inj (h.symm.trans hother)

/-- Two relationships with one key cannot both be the first. -/
theorem eq_of_isFirstAt
    {names : List Text} {items : List Candidate} {place place' : Nat}
    {link link' : Relationship} (h : IsFirstAt names items place link)
    (h' : IsFirstAt names items place' link') (hkey : link.key = link'.key) :
    place = place' ∧ link = link' := by
  obtain ⟨⟨candidate, hcandidate, hyields⟩, hfirst⟩ := h
  obtain ⟨⟨candidate', hcandidate', hyields'⟩, hfirst'⟩ := h'
  obtain hlt | heq | hgt := Nat.lt_trichotomy place place'
  · exact absurd hkey (hfirst' place hlt candidate link hcandidate hyields)
  · subst heq
    obtain rfl := Option.some.inj (hcandidate.symm.trans hcandidate')
    exact ⟨rfl, eq_of_yields hyields hyields'⟩
  · exact absurd hkey.symm (hfirst place' hgt candidate' link' hcandidate' hyields')

theorem exists_isFirstAt_of_mem_derive
    {entities : List Entity} {link : Relationship} (h : link ∈ derive entities) :
    ∃ place, IsFirstAt (entities.map Entity.name) (candidates entities) place link := by
  obtain ⟨places, -, hplaces⟩ :=
    exists_places_distinctFrom (entities.map Entity.name) [] (candidates entities)
  rw [← distinct, ← derive_eq] at hplaces
  obtain ⟨index, hindex, rfl⟩ := List.mem_iff_get.mp h
  have hplace : index < places.length := Nat.lt_of_lt_of_eq index.isLt hplaces.length_eq.symm
  exact ⟨places.get ⟨index, hplace⟩, (hplaces.get hplace index.isLt).1⟩

/-! ## The relationship between an interface and its parent -/

/-- What gives rise to the relationship with the key of inheritance: a parent, or an attribute that is
named like it. -/
theorem eq_inheritance_or_leadsLoosely
    {names : List Text} {candidate : Candidate} {link : Relationship} {child parent : Text}
    (h : Yields names candidate link) (hkey : link.key = (child, parent, ("extends" : Text))) :
    link = inheritance child parent ∨ ∃ entity field, candidate = (entity, .inl field) ∧
      entity.name = child ∧ field.name = "extends" ∧ LeadsLoosely names field parent := by
  cases h with
  | @reference entity field target hrefers =>
    obtain ⟨rfl, rfl, hname⟩ : entity.name = child ∧ target = parent ∧ field.name = "extends" := by
      simpa [key] using hkey
    by_cases hloose : field.type.isArray = true ∨ field.type.isOptional = true
    · exact .inr ⟨entity, field, rfl, rfl, hname, .reference hrefers hloose⟩
    · rw [not_or, Bool.not_eq_true, Bool.not_eq_true] at hloose
      left
      simp [inheritance, hloose, hname, Cardinality.ofReference]
  | @foreignKey entity field target hnames =>
    obtain ⟨rfl, rfl, hname⟩ : entity.name = child ∧ target = parent ∧ field.name = "extends" := by
      simpa [key] using hkey
    by_cases hloose : field.type.isOptional = true
    · exact .inr ⟨entity, field, rfl, rfl, hname, .foreignKey hnames hloose⟩
    · left
      simp [inheritance, hloose, hname, Cardinality.ofReference]
  | @parent entity target hknown =>
    obtain ⟨rfl, rfl⟩ : entity.name = child ∧ target = parent := by simpa [key] using hkey
    exact .inl rfl

/-- An attribute that leads to the parent as a list or optionally has a relationship of its own. -/
theorem exists_yields_of_leadsLoosely
    {names : List Text} {field : Attribute} {parent : Text}
    (h : LeadsLoosely names field parent) (hname : field.name = "extends") (entity : Entity) :
    ∃ link, Yields names (entity, .inl field) link ∧
      link.key = (inheritance entity.name parent).key ∧ link ≠ inheritance entity.name parent := by
  cases h with
  | reference hrefers hloose =>
    refine ⟨_, .reference hrefers, by simp [key, inheritance, hname], fun heq => ?_⟩
    have hcardinality := congrArg cardinality heq
    revert hcardinality
    cases harray : field.type.isArray <;> cases hoptional : field.type.isOptional <;>
      simp_all [inheritance, Cardinality.ofReference]
  | foreignKey hnames hloose =>
    refine ⟨_, .foreignKey hnames, by simp [key, inheritance, hname], fun heq => ?_⟩
    have hidentifying := congrArg isIdentifying heq
    simp [inheritance, hloose] at hidentifying

theorem isOverridden_of_notMem_derive
    {entities : List Entity} {child parent : Text}
    (hkey : (inheritance child parent).key ∈ (derive entities).map key)
    (h : inheritance child parent ∉ derive entities) :
    IsOverridden entities child parent := by
  obtain ⟨link, hlink, hkey⟩ := List.mem_map.mp hkey
  obtain ⟨place, ⟨candidate, hcandidate, hyields⟩, hfirst⟩ := exists_isFirstAt_of_mem_derive hlink
  obtain rfl | ⟨entity, field, rfl, hentity, hfield, hleads⟩ :=
    eq_inheritance_or_leadsLoosely hyields hkey
  · exact absurd hlink h
  · rw [hkey] at hfirst
    exact ⟨place, entity, field, hcandidate, hentity, hfield, hleads, hfirst⟩

theorem notMem_derive_of_isOverridden
    {entities : List Entity} {child parent : Text} (h : IsOverridden entities child parent) :
    inheritance child parent ∉ derive entities := by
  intro hmem
  obtain ⟨place, entity, field, hcandidate, rfl, hname, hleads, hfirst⟩ := h
  obtain ⟨link, hyields, hkey, hne⟩ := exists_yields_of_leadsLoosely hleads hname entity
  obtain ⟨place', hfirst'⟩ := exists_isFirstAt_of_mem_derive hmem
  rw [← show link.key = (entity.name, parent, ("extends" : Text)) from hkey] at hfirst
  exact hne (eq_of_isFirstAt ⟨⟨_, hcandidate, hyields⟩, hfirst⟩ hfirst' hkey).2

/-! ## Interfaces of files -/

theorem mem_parents_ofInterface
    {declaration : Interface} {heritage : Heritage} (h : heritage ∈ declaration.heritage)
    (hplain : '.' ∉ heritage.expression.toList) (file : String) :
    (heritage.expression : Text) ∈ (Entity.ofInterface declaration file).parents.getD [] := by
  rw [Entity.ofInterface, (keeps_someList _).getD]
  have hkept : heritage ∈ declaration.heritage.filter Heritage.isPlain :=
    List.mem_filter.mpr ⟨h, by simpa [Heritage.isPlain] using hplain⟩
  exact List.mem_map_of_mem hkept

/-- Parents that are known are among the candidates, so that their key is always there. -/
theorem inheritance_key_mem
    {files : List SourceFile} {file : SourceFile} (hfile : file ∈ files)
    {declaration : Interface} (hdeclaration : Statement.interface declaration ∈ file.statements)
    {heritage : Heritage} (hheritage : heritage ∈ declaration.heritage)
    (hplain : '.' ∉ heritage.expression.toList)
    (hknown : (heritage.expression : Text) ∈ (Diagram.ofFiles files).entities.map Entity.name) :
    (inheritance declaration.name heritage.expression).key ∈
      (Diagram.ofFiles files).relationships.map key := by
  have hentity : Entity.ofInterface declaration file.name ∈ (Diagram.ofFiles files).entities :=
    List.mem_flatMap.mpr ⟨file, hfile, List.mem_filterMap.mpr ⟨_, hdeclaration, rfl⟩⟩
  have hparent := mem_parents_ofInterface hheritage hplain file.name
  exact mem_keys_derive_of_yields
    (mem_candidates_iff.mpr ⟨_, hentity, .inr ⟨_, hparent, rfl⟩⟩) (.parent hknown)

/-- An attribute named `extends` cannot be in the place of inheritance where no entity with the name of
the child has one. -/
theorem not_isOverridden_of_names
    {entities : List Entity} {child parent : Text}
    (h : ∀ entity ∈ entities, entity.name = child → ∀ field ∈ entity.attributes,
      field.name ≠ "extends") :
    ¬IsOverridden entities child parent := by
  rintro ⟨place, entity, field, hcandidate, hentity, hfield, -⟩
  obtain ⟨hmem, hattribute⟩ := mem_attributes_of_mem_candidates (List.mem_of_getElem? hcandidate)
  exact h entity hmem hentity field hattribute hfield

/-- An interface and a known entity that it extends are connected by exactly one relationship with the
label `extends`. It stands for inheritance unless an attribute with this name is in its place, and so
always where there is no such attribute. -/
theorem inheritance_kept
    {files : List SourceFile} {file : SourceFile} (hfile : file ∈ files)
    {declaration : Interface} (hdeclaration : Statement.interface declaration ∈ file.statements)
    {heritage : Heritage} (hheritage : heritage ∈ declaration.heritage)
    (hplain : '.' ∉ heritage.expression.toList)
    (hknown : (heritage.expression : Text) ∈ (Diagram.ofFiles files).entities.map Entity.name) :
    (∃! link, link ∈ (Diagram.ofFiles files).relationships ∧
      link.key = ((declaration.name, heritage.expression, "extends") : Text × Text × Text)) ∧
    (inheritance declaration.name heritage.expression ∈ (Diagram.ofFiles files).relationships ↔
      ¬IsOverridden (Diagram.ofFiles files).entities declaration.name heritage.expression) ∧
    ((∀ entity ∈ (Diagram.ofFiles files).entities, entity.name = declaration.name →
        ∀ field ∈ entity.attributes, field.name ≠ "extends") →
      inheritance declaration.name heritage.expression ∈ (Diagram.ofFiles files).relationships) := by
  have hkey := inheritance_key_mem hfile hdeclaration hheritage hplain hknown
  have hkept : inheritance declaration.name heritage.expression ∈
      (Diagram.ofFiles files).relationships ↔
        ¬IsOverridden (Diagram.ofFiles files).entities declaration.name heritage.expression := by
    refine ⟨fun hmem hoverridden => notMem_derive_of_isOverridden hoverridden hmem, fun hfree => ?_⟩
    by_contra hmem
    exact hfree (isOverridden_of_notMem_derive hkey hmem)
  refine ⟨?_, hkept, fun hnames => hkept.mpr (not_isOverridden_of_names hnames)⟩
  obtain ⟨link, hlink, hkey⟩ := List.mem_map.mp hkey
  refine ⟨link, ⟨hlink, hkey⟩, fun other hother => ?_⟩
  exact List.inj_on_of_nodup_map (isGraph_ofFiles files).nodup hother.1 hlink
    (hother.2.trans hkey.symm)

/-- An interface that lists its own parent under the name `extends`. -/
def listingChild : Interface where
  name := "A"
  members := [.property "extends" .identifier (some (.array (.reference "B" []))) false false none]
  heritage := [{ expression := "B" }]

/-- An interface that refers to its own parent once under this name. -/
def referringChild : Interface where
  name := "C"
  members := [.property "extends" .identifier (some (.reference "B" [])) false false none]
  heritage := [{ expression := "Base.B" }, { expression := "B" }]

def parentFile : SourceFile where
  name := "parent.ts"
  statements := [.interface listingChild, .interface { name := "B" }, .interface referringChild]

/-- Inheritance is kept for one of the two interfaces, and overridden for the other one. -/
theorem inheritance_kept_parentFile :
    Statement.interface referringChild ∈ parentFile.statements ∧
      ("B" : Text) ∈ (Diagram.ofFiles [parentFile]).entities.map Entity.name ∧
      inheritance "C" ("B" : Text) ∈ (Diagram.ofFiles [parentFile]).relationships ∧
      ¬IsOverridden (Diagram.ofFiles [parentFile]).entities "C" "B" ∧
      IsOverridden (Diagram.ofFiles [parentFile]).entities "A" "B" := by
  have hfile : parentFile ∈ [parentFile] := List.mem_singleton_self _
  have hlisting : Statement.interface listingChild ∈ parentFile.statements := by
    simp [parentFile]
  have hreferring : Statement.interface referringChild ∈ parentFile.statements := by
    simp [parentFile]
  have hknown : ("B" : Text) ∈ (Diagram.ofFiles [parentFile]).entities.map Entity.name := by decide
  have hkept : inheritance "C" ("B" : Text) ∈ (Diagram.ofFiles [parentFile]).relationships := by decide
  have hlost : inheritance "A" "B" ∉ (Diagram.ofFiles [parentFile]).relationships := by decide
  have hfirst : (⟨"B", []⟩ : Heritage) ∈ listingChild.heritage := List.mem_singleton_self _
  have hsecond : (⟨"B", []⟩ : Heritage) ∈ referringChild.heritage := by simp [referringChild]
  refine ⟨hreferring, hknown, hkept, ?_, ?_⟩
  · exact (inheritance_kept hfile hreferring hsecond (by decide) hknown).2.1.mp hkept
  · by_contra hfree
    exact hlost ((inheritance_kept hfile hlisting hfirst (by decide) hknown).2.1.mpr hfree)

/-- The list is in the place of inheritance. -/
theorem inheritance_lost_parentFile :
    Statement.interface listingChild ∈ parentFile.statements ∧
      (⟨"B", []⟩ : Heritage) ∈ listingChild.heritage ∧ '.' ∉ "B".toList ∧
      ("B" : Text) ∈ (Diagram.ofFiles [parentFile]).entities.map Entity.name ∧
      inheritance "A" "B" ∉ (Diagram.ofFiles [parentFile]).relationships := by
  refine ⟨?_, List.mem_singleton_self _, by decide, by decide, by decide⟩
  simp [parentFile]

end Relationship

end EntityDiagram.Model
