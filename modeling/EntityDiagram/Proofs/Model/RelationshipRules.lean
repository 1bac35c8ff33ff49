import Mathlib.Data.List.Forall2
import EntityDiagram.Model.Relationship

/-!
# The rules for relationships

The three rules are stated as relations, apart from the way in which relationships are derived: an
attribute refers to an entity, an attribute names the key of an entity, an entity extends another
one. What the entities offer is one list of candidates, entity by entity, the attributes of an entity
in front of its parents. A relationship is derived from every first candidate of its key, in the order
of the candidates, and from nothing else.
-/

namespace EntityDiagram.Model

/-- The type of the attribute is a reference to an entity. -/
structure RefersTo
    (names : List Text) (field : Attribute) (target : Text) : Prop where
  isReference : field.type.isReference = true
  resolved : field.type.target = some target
  nonempty : target ≠ ""
  known : target ∈ names

/-- The name of a type: the name that it refers to, if there is one, and otherwise its own. -/
def typeName (type : AttributeType) : Text :=
  match type.target with
  | none => type.name
  | some target => if target = "" then type.name else target

/-- The attribute is a foreign key, refers to no entity, and its type is named like an entity with
`Id` behind it. -/
structure NamesKeyOf
    (names : List Text) (field : Attribute) (target : Text) : Prop where
  isForeign : field.key = some .foreign
  refersToNone : ∀ other, ¬RefersTo names field other
  named : typeName field.type = target ++ "Id"
  nonempty : target ≠ ""
  known : target ∈ names

/-- What may give rise to a relationship of an entity: one of its attributes, or one of its parents. -/
abbrev Candidate := Entity × (Attribute ⊕ Text)

/-- What the entities offer: the attributes of an entity and then its parents, entity by entity. -/
def candidates (entities : List Entity) : List Candidate :=
  entities.flatMap fun entity =>
    entity.attributes.map (fun field => (entity, .inl field)) ++
      (entity.parents.getD []).map fun parent => (entity, .inr parent)

/-- The relationship that a candidate gives rise to among entities with the given names. -/
inductive Yields (names : List Text) : Candidate → Relationship → Prop
  | reference {entity : Entity} {field : Attribute} {target : Text}
      (h : RefersTo names field target) :
    Yields names (entity, .inl field) {
      source := entity.name
      target
      cardinality := .ofReference field.type.isArray field.type.isOptional
      label := field.name
      isIdentifying := !field.type.isOptional }
  | foreignKey {entity : Entity} {field : Attribute} {target : Text}
      (h : NamesKeyOf names field target) :
    Yields names (entity, .inl field) {
      source := entity.name
      target
      cardinality := .ofReference false field.type.isOptional
      label := field.name
      isIdentifying := !field.type.isOptional }
  | parent {entity : Entity} {target : Text} (h : target ∈ names) :
    Yields names (entity, .inr target) {
      source := entity.name
      target
      cardinality := .oneToOne
      label := "extends"
      isIdentifying := true }

/-- The relationship comes from the candidate in this place, and none in front of it gives rise to
one with the same key. -/
def IsFirstAt
    (names : List Text) (items : List Candidate) (place : Nat) (relationship : Relationship) :
    Prop :=
  (∃ candidate, items[place]? = some candidate ∧ Yields names candidate relationship) ∧
    ∀ earlier < place, ∀ candidate other, items[earlier]? = some candidate →
      Yields names candidate other → other.key ≠ relationship.key

namespace Relationship

/-! ## The rules -/

theorem directTarget?_eq_some_iff
    {names : List Text} {field : Attribute} {target : Text} :
    directTarget? names field.type = some target ↔ RefersTo names field target := by
  constructor
  · intro h
    unfold directTarget? at h
    split at h
    · rename_i hreference
      obtain ⟨htarget, hfilter⟩ := Option.filter_eq_some_iff.mp h
      simp only [Bool.and_eq_true, Bool.not_eq_true', Text.isEmpty_eq_false_iff,
        List.contains_iff_mem] at hfilter
      exact ⟨hreference, htarget, hfilter.1, hfilter.2⟩
    · cases h
  · intro h
    rw [directTarget?, if_pos h.isReference, h.resolved]
    exact Option.filter_some_pos (by simp [h.nonempty, h.known])

theorem stem?_eq_some_iff
    {name stem : Text} :
    KeyRole.stem? name = some stem ↔ name = stem ++ "Id" ∧ stem ≠ "" := by
  constructor
  · intro h
    simp only [KeyRole.stem?] at h
    split at h
    · rename_i hends
      simp only [Bool.and_eq_true, List.isSuffixOf_iff_suffix, decide_eq_true_eq] at hends
      obtain ⟨⟨front, hfront⟩, hlong⟩ := hends
      obtain rfl := Option.some.inj h
      have htake : name.toList.take (name.toList.length - 2) = front := by
        simp [← hfront]
      rw [htake]
      refine ⟨?_, ?_⟩
      · rw [← Text.toList_inj, ← hfront]
        simp
      · rintro hempty
        have hnil : front = [] := by simpa using congrArg Text.toList hempty
        simp [← hfront, hnil] at hlong
    · cases h
  · rintro ⟨rfl, hne⟩
    simp [KeyRole.stem?, hne]

theorem keyTarget?_eq_some_iff
    {names : List Text} {type : AttributeType} {target : Text} :
    keyTarget? names type = some target ↔
      typeName type = target ++ "Id" ∧ target ≠ "" ∧ target ∈ names := by
  have hname : (type.target.bind Text.nonempty?).getD type.name = typeName type := by
    unfold typeName
    cases type.target with
    | none => rfl
    | some target =>
      by_cases hempty : target = ""
      · simp [hempty, Text.nonempty?]
      · simp [hempty, Text.nonempty?]
  rw [keyTarget?, hname, Option.filter_eq_some_iff, stem?_eq_some_iff, List.contains_iff_mem,
    and_assoc]

theorem directTarget?_eq_none_iff
    {names : List Text} {field : Attribute} :
    directTarget? names field.type = none ↔ ∀ other, ¬RefersTo names field other := by
  rw [Option.eq_none_iff_forall_ne_some]
  exact forall_congr' fun other => not_congr directTarget?_eq_some_iff

/-- The relationship of a candidate, as the derivation reads it off. -/
def ofCandidate? (names : List Text) : Candidate → Option Relationship
  | (entity, .inl field) => ofAttribute? names entity.name field
  | (entity, .inr parent) => ofParent? names entity.name parent

theorem yields_of_ofAttribute?
    {names : List Text} {entity : Entity} {field : Attribute} {relationship : Relationship}
    (h : ofAttribute? names entity.name field = some relationship) :
    Yields names (entity, .inl field) relationship := by
  simp only [ofAttribute?] at h
  cases hdirect : directTarget? names field.type with
  | some target =>
    simp only [hdirect] at h
    obtain rfl := Option.some.inj h
    exact .reference (directTarget?_eq_some_iff.mp hdirect)
  | none =>
    simp only [hdirect] at h
    by_cases hforeign : field.key = some .foreign
    · rw [if_pos hforeign] at h
      obtain ⟨target, htarget, rfl⟩ := Option.map_eq_some_iff.mp h
      obtain ⟨hnamed, hnonempty, hknown⟩ := keyTarget?_eq_some_iff.mp htarget
      exact .foreignKey
        ⟨hforeign, directTarget?_eq_none_iff.mp hdirect, hnamed, hnonempty, hknown⟩
    · rw [if_neg hforeign] at h
      cases h

theorem ofCandidate?_eq_some_iff
    {names : List Text} {candidate : Candidate} {relationship : Relationship} :
    ofCandidate? names candidate = some relationship ↔ Yields names candidate relationship := by
  constructor
  · intro h
    obtain ⟨entity, field | parent⟩ := candidate
    · exact yields_of_ofAttribute? h
    · by_cases hknown : parent ∈ names
      · have hparent : ofParent? names entity.name parent = some relationship := h
        rw [ofParent?, if_pos (List.contains_iff_mem.mpr hknown)] at hparent
        obtain rfl := Option.some.inj hparent
        exact .parent hknown
      · simp [ofCandidate?, ofParent?, hknown] at h
  · intro h
    cases h with
    | reference hrefers =>
      simp [ofCandidate?, ofAttribute?, directTarget?_eq_some_iff.mpr hrefers]
    | foreignKey hkey =>
      have hdirect := directTarget?_eq_none_iff.mpr hkey.refersToNone
      have htarget := keyTarget?_eq_some_iff.mpr ⟨hkey.named, hkey.nonempty, hkey.known⟩
      simp [ofCandidate?, ofAttribute?, hdirect, htarget, hkey.isForeign]
    | parent hknown => simp [ofCandidate?, ofParent?, hknown]

theorem derive_eq
    (entities : List Entity) :
    derive entities =
      distinct ((candidates entities).filterMap (ofCandidate? (entities.map Entity.name))) := by
  have hofEntity : ∀ names entity, ofEntity names entity =
      (entity.attributes.map (fun field => (entity, Sum.inl field)) ++
        (entity.parents.getD []).map fun parent => (entity, Sum.inr parent)).filterMap
          (ofCandidate? names) := by
    intro names entity
    rw [ofEntity, List.filterMap_append, List.filterMap_map, List.filterMap_map]
    rfl
  rw [derive, candidates, List.filterMap_flatMap]
  congr 1
  exact List.flatMap_congr fun entity _ => hofEntity _ entity

/-! ## The first of every key -/

theorem mem_keys_distinctFrom_iff
    {seen : List (Text × Text × Text)} {relationships : List Relationship}
    {k : Text × Text × Text} :
    k ∈ (distinctFrom seen relationships).map key ↔ k ∈ relationships.map key ∧ k ∉ seen := by
  induction relationships generalizing seen with
  | nil => simp [distinctFrom]
  | cons first rest ih =>
    by_cases hseen : first.key ∈ seen
    · rw [distinctFrom, if_pos (List.contains_iff_mem.mpr hseen), ih, List.map_cons,
        List.mem_cons]
      constructor
      · rintro ⟨hrest, hnew⟩
        exact ⟨.inr hrest, hnew⟩
      · rintro ⟨rfl | hrest, hnew⟩
        · exact absurd hseen hnew
        · exact ⟨hrest, hnew⟩
    · rw [distinctFrom, if_neg (by simpa using hseen), List.map_cons, List.mem_cons, ih,
        List.map_cons, List.mem_cons, List.mem_cons, not_or]
      constructor
      · rintro (rfl | ⟨hrest, -, hnew⟩)
        · exact ⟨.inl rfl, hseen⟩
        · exact ⟨.inr hrest, hnew⟩
      · rintro ⟨rfl | hrest, hnew⟩
        · exact .inl rfl
        · by_cases hfirst : k = first.key
          · exact .inl hfirst
          · exact .inr ⟨hrest, hfirst, hnew⟩

theorem nodup_keys_distinctFrom
    (seen : List (Text × Text × Text)) (relationships : List Relationship) :
    ((distinctFrom seen relationships).map key).Nodup := by
  induction relationships generalizing seen with
  | nil => exact List.nodup_nil
  | cons first rest ih =>
    by_cases hseen : first.key ∈ seen
    · rw [distinctFrom, if_pos (List.contains_iff_mem.mpr hseen)]
      exact ih seen
    · rw [distinctFrom, if_neg (by simpa using hseen), List.map_cons, List.nodup_cons]
      refine ⟨fun hmem => ?_, ih _⟩
      exact (mem_keys_distinctFrom_iff.mp hmem).2 List.mem_cons_self

theorem distinctFrom_sublist
    (seen : List (Text × Text × Text)) (relationships : List Relationship) :
    (distinctFrom seen relationships).Sublist relationships := by
  induction relationships generalizing seen with
  | nil => exact List.Sublist.slnil
  | cons first rest ih =>
    rw [distinctFrom]
    split
    · exact (ih seen).cons first
    · exact (ih _).cons_cons first

theorem mem_of_mem_distinct
    {relationships : List Relationship} {relationship : Relationship}
    (h : relationship ∈ distinct relationships) :
    relationship ∈ relationships :=
  (distinctFrom_sublist [] relationships).mem h

theorem mem_keys_distinct_iff
    {relationships : List Relationship} {k : Text × Text × Text} :
    k ∈ (distinct relationships).map key ↔ k ∈ relationships.map key := by
  rw [distinct, mem_keys_distinctFrom_iff]
  simp

/-- A candidate in front that gives rise to no relationship with the key changes only the place. -/
theorem isFirstAt_cons
    {names : List Text} {first : Candidate} {items : List Candidate} {place : Nat}
    {relationship : Relationship} (h : IsFirstAt names items place relationship)
    (hfirst : ∀ other, Yields names first other → other.key ≠ relationship.key) :
    IsFirstAt names (first :: items) (place + 1) relationship := by
  obtain ⟨hyields, hearlier⟩ := h
  refine ⟨hyields, ?_⟩
  intro earlier hlt candidate other hcandidate hother
  cases earlier with
  | zero =>
    obtain rfl := Option.some.inj hcandidate
    exact hfirst other hother
  | succ earlier =>
    exact hearlier earlier (Nat.lt_of_succ_lt_succ hlt) candidate other hcandidate hother

theorem pairwise_map_succ
    {places : List Nat} (h : places.Pairwise (· < ·)) :
    (places.map Nat.succ).Pairwise (· < ·) :=
  List.pairwise_map.mpr (h.imp Nat.succ_lt_succ)

/-- Where the relationships that are kept come from: from places in order, each of which is the first
with its key and has a key that was not seen before. -/
theorem exists_places_distinctFrom
    (names : List Text) (seen : List (Text × Text × Text)) (items : List Candidate) :
    ∃ places : List Nat, places.Pairwise (· < ·) ∧
      List.Forall₂ (fun place relationship =>
          IsFirstAt names items place relationship ∧ relationship.key ∉ seen)
        places (distinctFrom seen (items.filterMap (ofCandidate? names))) := by
  induction items generalizing seen with
  | nil => exact ⟨[], List.Pairwise.nil, .nil⟩
  | cons first items ih =>
    cases hfirst : ofCandidate? names first with
    | none =>
      obtain ⟨places, hordered, hplaces⟩ := ih seen
      refine ⟨places.map Nat.succ, pairwise_map_succ hordered, ?_⟩
      rw [List.filterMap_cons_none hfirst, List.forall₂_map_left_iff]
      refine hplaces.imp fun place relationship h =>
        ⟨isFirstAt_cons h.1 fun other hother => ?_, h.2⟩
      rw [← ofCandidate?_eq_some_iff, hfirst] at hother
      cases hother
    | some kept =>
      have hyields := ofCandidate?_eq_some_iff.mp hfirst
      have hunique : ∀ other, Yields names first other → other = kept := by
        intro other hother
        rw [← ofCandidate?_eq_some_iff, hfirst] at hother
        exact (Option.some.inj hother).symm
      by_cases hseen : kept.key ∈ seen
      · obtain ⟨places, hordered, hplaces⟩ := ih seen
        refine ⟨places.map Nat.succ, pairwise_map_succ hordered, ?_⟩
        rw [List.filterMap_cons_some hfirst, distinctFrom,
          if_pos (List.contains_iff_mem.mpr hseen), List.forall₂_map_left_iff]
        refine hplaces.imp fun place relationship h =>
          ⟨isFirstAt_cons h.1 fun other hother hkey => h.2 ?_, h.2⟩
        rwa [← hkey, hunique other hother]
      · obtain ⟨places, hordered, hplaces⟩ := ih (kept.key :: seen)
        have hahead : ∀ place ∈ places.map Nat.succ, 0 < place := by
          intro place hplace
          obtain ⟨before, -, rfl⟩ := List.mem_map.mp hplace
          exact Nat.succ_pos before
        refine ⟨0 :: places.map Nat.succ,
          List.pairwise_cons.mpr ⟨hahead, pairwise_map_succ hordered⟩, ?_⟩
        rw [List.filterMap_cons_some hfirst, distinctFrom, if_neg (by simpa using hseen)]
        refine .cons ⟨⟨⟨first, rfl, hyields⟩, ?_⟩, hseen⟩ ?_
        · intro earlier hlt
          exact absurd hlt (Nat.not_lt_zero earlier)
        · rw [List.forall₂_map_left_iff]
          refine hplaces.imp fun place relationship h => ?_
          rw [List.mem_cons, not_or] at h
          refine ⟨isFirstAt_cons h.1 fun other hother hkey => h.2.1 ?_, h.2.2⟩
          rw [← hkey, hunique other hother]

/-! ## What the rules come to -/

theorem mem_candidates_iff
    {entities : List Entity} {candidate : Candidate} :
    candidate ∈ candidates entities ↔ ∃ entity ∈ entities,
      (∃ field ∈ entity.attributes, candidate = (entity, .inl field)) ∨
        ∃ parent ∈ entity.parents.getD [], candidate = (entity, .inr parent) := by
  simp [candidates, List.mem_flatMap, List.mem_append, List.mem_map, eq_comm]

theorem mem_keys_derive_iff_exists
    (entities : List Entity) (k : Text × Text × Text) :
    k ∈ (derive entities).map key ↔ ∃ candidate ∈ candidates entities, ∃ relationship,
      Yields (entities.map Entity.name) candidate relationship ∧ relationship.key = k := by
  rw [derive_eq, distinct, mem_keys_distinctFrom_iff]
  constructor
  · rintro ⟨hmem, -⟩
    obtain ⟨relationship, hrelationship, hkey⟩ := List.mem_map.mp hmem
    obtain ⟨candidate, hcandidate, hread⟩ := List.mem_filterMap.mp hrelationship
    exact ⟨candidate, hcandidate, relationship, ofCandidate?_eq_some_iff.mp hread, hkey⟩
  · rintro ⟨candidate, hcandidate, relationship, hyields, hkey⟩
    refine ⟨List.mem_map.mpr ⟨relationship, ?_, hkey⟩, List.not_mem_nil⟩
    exact List.mem_filterMap.mpr ⟨candidate, hcandidate, ofCandidate?_eq_some_iff.mpr hyields⟩

/-- Every derived relationship is that of a candidate. -/
theorem exists_yields_of_mem_derive
    {entities : List Entity} {relationship : Relationship} (h : relationship ∈ derive entities) :
    ∃ candidate ∈ candidates entities, Yields (entities.map Entity.name) candidate relationship := by
  rw [derive_eq] at h
  obtain ⟨candidate, hcandidate, hread⟩ := List.mem_filterMap.mp (mem_of_mem_distinct h)
  exact ⟨candidate, hcandidate, ofCandidate?_eq_some_iff.mp hread⟩

/-- The keys of the derived relationships are those that the three rules allow. -/
theorem mem_keys_derive_iff
    (entities : List Entity) (source target label : Text) :
    (source, target, label) ∈ (derive entities).map key ↔ ∃ entity ∈ entities,
      entity.name = source ∧
        ((∃ field ∈ entity.attributes, field.name = label ∧
            RefersTo (entities.map Entity.name) field target) ∨
          (∃ field ∈ entity.attributes, field.name = label ∧
            NamesKeyOf (entities.map Entity.name) field target) ∨
          (target ∈ entity.parents.getD [] ∧ target ∈ entities.map Entity.name ∧
            label = "extends")) := by
  rw [mem_keys_derive_iff_exists]
  constructor
  · rintro ⟨candidate, hcandidate, relationship, hyields, hkey⟩
    obtain ⟨entity, hentity, ⟨field, hfield, rfl⟩ | ⟨parent, hparent, rfl⟩⟩ :=
      mem_candidates_iff.mp hcandidate
    · refine ⟨entity, hentity, ?_⟩
      cases hyields with
      | reference hrefers =>
        obtain ⟨rfl, rfl, rfl⟩ : entity.name = source ∧ _ = target ∧ field.name = label := by
          simpa [key] using hkey
        exact ⟨rfl, .inl ⟨field, hfield, rfl, hrefers⟩⟩
      | foreignKey hnames =>
        obtain ⟨rfl, rfl, rfl⟩ : entity.name = source ∧ _ = target ∧ field.name = label := by
          simpa [key] using hkey
        exact ⟨rfl, .inr (.inl ⟨field, hfield, rfl, hnames⟩)⟩
    · refine ⟨entity, hentity, ?_⟩
      cases hyields with
      | parent hknown =>
        obtain ⟨rfl, rfl, rfl⟩ : entity.name = source ∧ parent = target ∧ "extends" = label := by
          simpa [key] using hkey
        exact ⟨rfl, .inr (.inr ⟨hparent, hknown, rfl⟩)⟩
  · rintro ⟨entity, hentity, rfl, ⟨field, hfield, rfl, hrefers⟩ | ⟨field, hfield, rfl, hnames⟩ |
      ⟨hparent, hknown, rfl⟩⟩
    · exact ⟨(entity, .inl field),
        mem_candidates_iff.mpr ⟨entity, hentity, .inl ⟨field, hfield, rfl⟩⟩, _,
        .reference hrefers, rfl⟩
    · exact ⟨(entity, .inl field),
        mem_candidates_iff.mpr ⟨entity, hentity, .inl ⟨field, hfield, rfl⟩⟩, _,
        .foreignKey hnames, rfl⟩
    · exact ⟨(entity, .inr target),
        mem_candidates_iff.mpr ⟨entity, hentity, .inr ⟨target, hparent, rfl⟩⟩, _,
        .parent hknown, rfl⟩

/-- The derived relationships are exactly those of the three rules: no key occurs twice, a key occurs
if and only if a rule gives it, and the relationships are those of the first candidates of their keys,
in the order of the candidates. -/
theorem derive_rules
    (entities : List Entity) :
    ((derive entities).map key).Nodup ∧
      (∀ source target label, (source, target, label) ∈ (derive entities).map key ↔
        ∃ entity ∈ entities, entity.name = source ∧
          ((∃ field ∈ entity.attributes, field.name = label ∧
              RefersTo (entities.map Entity.name) field target) ∨
            (∃ field ∈ entity.attributes, field.name = label ∧
              NamesKeyOf (entities.map Entity.name) field target) ∨
            (target ∈ entity.parents.getD [] ∧ target ∈ entities.map Entity.name ∧
              label = "extends"))) ∧
      ∃ places : List Nat, places.Pairwise (· < ·) ∧
        List.Forall₂ (IsFirstAt (entities.map Entity.name) (candidates entities)) places
          (derive entities) := by
  refine ⟨nodup_keys_distinctFrom [] _, mem_keys_derive_iff entities, ?_⟩
  obtain ⟨places, hordered, hplaces⟩ :=
    exists_places_distinctFrom (entities.map Entity.name) [] (candidates entities)
  rw [derive_eq]
  exact ⟨places, hordered, hplaces.imp fun _ _ h => h.1⟩

end Relationship

end EntityDiagram.Model
