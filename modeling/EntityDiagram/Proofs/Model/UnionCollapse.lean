import EntityDiagram.Model.AttributeType
import EntityDiagram.Proofs.Declaration.ReadUnions
import EntityDiagram.Proofs.Declaration.StatementFollowing
import EntityDiagram.Proofs.Source.Tiling

/-!
# Unions with one member left

Whether a member of a union counts is decided by the name that it is resolved to, and an array has the
name of its elements. So the members that do not count are `null`, `undefined` and all arrays of these:
where one of the others is left the union is that one, made optional, and otherwise all members are kept.
-/

namespace EntityDiagram.Declaration.TypeExpr

/-- The type is `null` or `undefined` itself. -/
def isNullish : TypeExpr → Bool
  | .keyword name => Model.isNullishName name
  | _ => false

/-- The type inside all arrays, in either spelling. -/
def core : TypeExpr → TypeExpr
  | .array element => element.core
  | .reference "Array" (element :: _) => element.core
  | type => type

end EntityDiagram.Declaration.TypeExpr

namespace EntityDiagram.Model

open Declaration (TypeExpr keywordTypes)

/-! ## Names that do not count -/

theorem isNullishName_eq_true_iff
    {name : Text} :
    isNullishName name = true ↔ name = "null" ∨ name = "undefined" := by
  rw [isNullishName, Bool.or_eq_true, beq_iff_eq, beq_iff_eq]

theorem mem_primitiveNames_of_isNullishName
    {name : Text} (h : isNullishName name = true) :
    name ∈ primitiveNames := by
  rcases isNullishName_eq_true_iff.mp h with rfl | rfl <;> decide

theorem isNullishName_eq_false_of_space
    {name : Text} (h : .scalar ' ' ∈ name.toList) :
    isNullishName name = false := by
  rw [← Bool.not_eq_true, isNullishName_eq_true_iff]
  rintro (rfl | rfl) <;> exact absurd h (by decide)

namespace AttributeType

/-! ## Keywords and references -/

theorem resolve_keyword_of_primitive
    {name : String} (h : (name : Text) ∈ primitiveNames) :
    resolve (.keyword name) = primitive name := by
  rw [resolve, ofKeyword, isPrimitiveName, if_pos (List.contains_iff_mem.mpr h)]

theorem ofReference_eq_named
    {name : String} {arguments : List AttributeType} (h : name = "Array" → arguments = []) :
    ofReference name arguments = named name arguments := by
  unfold ofReference
  split
  · rw [if_neg fun hname => nomatch h (Text.ofString_inj.mp hname)]
  · rfl

theorem resolve_reference_of_bare
    {name : String} {arguments : List TypeExpr} (h : name = "Array" → arguments = []) :
    resolve (.reference name arguments) = named name (resolveAll arguments) := by
  rw [resolve]
  exact ofReference_eq_named fun hname => by rw [h hname, resolveAll]

/-- A reference that is no array has no arguments, or another name. -/
theorem resolve_reference_of_core
    {name : String} {arguments : List TypeExpr}
    (h : ∀ element rest, TypeExpr.reference name arguments = .reference "Array" (element :: rest) →
      False) :
    resolve (.reference name arguments) = named name (resolveAll arguments) := by
  apply resolve_reference_of_bare
  rintro rfl
  cases arguments with
  | nil => rfl
  | cons element rest => exact (h element rest rfl).elim

/-! ## Which members count -/

theorem isNullishName_ofKeyword
    (name : String) :
    isNullishName (ofKeyword name).name = isNullishName name := by
  by_cases hprimitive : isPrimitiveName name = true
  · rw [ofKeyword, if_pos hprimitive]
    rfl
  · have hname : isNullishName name = false := by
      rw [← Bool.not_eq_true]
      intro hnullish
      exact hprimitive (List.contains_iff_mem.mpr (mem_primitiveNames_of_isNullishName hnullish))
    rw [ofKeyword, if_neg hprimitive, hname]
    rfl

theorem isNullishName_ofLiteral
    (value : Option Declaration.Literal) :
    isNullishName (ofLiteral value).name = false := by
  cases value with
  | none => rfl
  | some value => cases value <;> rfl

/-- Between several names of members there are spaces and bars. -/
theorem mem_intercalate_of_mem
    {separator : Text} {c : Character} (hc : c ∈ separator.toList) {names : List Text}
    (h : 1 < names.length) :
    c ∈ (separator.intercalate names).toList := by
  match names with
  | first :: second :: rest =>
    rw [Text.intercalate_cons_cons, Text.toList_append, Text.toList_append, List.append_assoc,
      List.mem_append, List.mem_append]
    exact .inr (.inl hc)

/-- The name of a union is not one of those that do not count. -/
theorem isNullishName_ofUnion
    {members : List AttributeType} (h : 1 < members.length) :
    isNullishName (ofUnion members).name = false := by
  by_cases hsingle : (solid members).length = 1
  · obtain ⟨single, hsolid⟩ := List.length_eq_one_iff.mp hsingle
    have hmem : single ∈ solid members := hsolid ▸ List.mem_singleton_self single
    rw [ofUnion_single hsolid]
    simpa using (List.mem_filter.mp hmem).2
  · rw [ofUnion_several hsingle]
    exact isNullishName_eq_false_of_space (mem_intercalate_of_mem (by decide) (by simpa using h))

/-- Whether a type that was read counts in a union is decided inside its arrays. -/
theorem isNullishName_resolve
    {type : TypeExpr} (hnames : ∀ name, type.Mentions name → name ∉ keywordTypes)
    (hunions : type.HasBranchingUnions) :
    isNullishName (resolve type).name = type.core.isNullish := by
  fun_induction TypeExpr.core type with
  | case1 element ih =>
    exact ih (fun name hmentions => hnames name (.array hmentions))
      (fun members hreaches => hunions members (.element hreaches))
  | case2 element rest ih =>
    exact ih (fun name hmentions => hnames name (.argument List.mem_cons_self hmentions))
      (fun members hreaches => hunions members (.argument List.mem_cons_self hreaches))
  | case3 type harray hreference =>
    cases type with
    | keyword name => exact isNullishName_ofKeyword name
    | reference name arguments =>
      have hname : (resolve (.reference name arguments)).name = name := by
        rw [resolve_reference_of_core hreference]
        rfl
      have hkeyword : name ∉ keywordTypes := hnames name .reference
      change isNullishName (resolve (.reference name arguments)).name = false
      rw [hname, ← Bool.not_eq_true, isNullishName_eq_true_iff, Text.ofString_inj,
        Text.ofString_inj]
      rintro (rfl | rfl) <;> exact hkeyword (by decide)
    | union members =>
      have hlength : 1 < members.length := hunions members (.self _)
      rw [resolve, resolveAll_eq_map]
      exact isNullishName_ofUnion (by simpa using hlength)
    | literal value => exact isNullishName_ofLiteral value
    | array element => exact absurd rfl (harray element)
    | _ => rfl

/-! ## The law of unions -/

/-- What a union is resolved to, where the given members do not count: the only other member if there is
one, made optional, and a type that keeps all members otherwise. -/
structure Collapses (nullish : TypeExpr → Bool) (members : List TypeExpr) : Prop where
  single : ∀ only, members.filter (fun member => !nullish member) = [only] →
    resolve (.union members) = { resolve only with isOptional := true }
  several : (members.filter fun member => !nullish member).length ≠ 1 →
    resolve (.union members) = {
      name := Text.intercalate " | " (members.map fun member => (resolve member).name)
      isReference := false
      isOptional := members.any nullish
      alternatives := some (members.map resolve) }
  /-- No member that counts is dropped. -/
  kept : ∀ member ∈ members, nullish member = false →
    resolve (.union members) = { resolve member with isOptional := true } ∨
      ∃ alternatives, (resolve (.union members)).alternatives = some alternatives ∧
        resolve member ∈ alternatives

/-- The law holds if the members that do not count are told by their names. -/
theorem collapses_of_names
    {nullish : TypeExpr → Bool} {members : List TypeExpr} (hlength : 1 < members.length)
    (h : ∀ member ∈ members, isNullishName (resolve member).name = nullish member) :
    Collapses nullish members := by
  have hsolid : solid (members.map resolve) =
      (members.filter fun member => !nullish member).map resolve := by
    rw [solid, List.filter_map]
    refine congrArg (List.map resolve) (List.filter_congr fun member hmember => ?_)
    rw [Function.comp_apply, h member hmember]
  have hoptional : ((members.filter fun member => !nullish member).length != members.length) =
      members.any nullish := by
    rw [Bool.eq_iff_iff, bne_iff_ne, ne_eq, List.length_filter_eq_length_iff, List.any_eq_true]
    simp
  have hsingle : ∀ only, members.filter (fun member => !nullish member) = [only] →
      resolve (.union members) = { resolve only with isOptional := true } := by
    intro only honly
    have hresolved : solid (members.map resolve) = [resolve only] := by rw [hsolid, honly]; rfl
    have hone : (1 != (members.map resolve).length) = true := by
      rw [bne_iff_ne, List.length_map]
      omega
    rw [resolve, resolveAll_eq_map, ofUnion_single hresolved, hone]
  have hseveral : (members.filter fun member => !nullish member).length ≠ 1 →
      resolve (.union members) = {
        name := Text.intercalate " | " (members.map fun member => (resolve member).name)
        isReference := false
        isOptional := members.any nullish
        alternatives := some (members.map resolve) } := by
    intro hlength
    have hresolved : (solid (members.map resolve)).length ≠ 1 := by
      rwa [hsolid, List.length_map]
    rw [resolve, resolveAll_eq_map, ofUnion_several hresolved, hsolid, List.length_map,
      List.length_map, hoptional, List.map_map]
    rfl
  refine ⟨hsingle, hseveral, fun member hmember hsolid => ?_⟩
  have hmem : member ∈ members.filter fun member => !nullish member :=
    List.mem_filter.mpr ⟨hmember, by simp [hsolid]⟩
  by_cases hone : (members.filter fun member => !nullish member).length = 1
  · obtain ⟨only, honly⟩ := List.length_eq_one_iff.mp hone
    rw [honly, List.mem_singleton] at hmem
    subst hmem
    exact .inl (hsingle member honly)
  · rw [hseveral hone]
    exact .inr ⟨_, rfl, List.mem_map_of_mem hmember⟩

/-- In a union that was read, `null`, `undefined` and all arrays of these do not count. Where none of the
members is such an array, it is `null` and `undefined` themselves that do not count. -/
theorem collapses_of_ofText
    {text : String} {type : TypeExpr} (h : TypeExpr.ofText text = .ok type)
    {members : List TypeExpr} (hreaches : type.Reaches (.union members)) :
    Collapses (fun member => member.core.isNullish) members ∧
    ((∀ member ∈ members, member.core.isNullish = member.isNullish) →
      Collapses TypeExpr.isNullish members) := by
  have hunions := TypeExpr.hasBranchingUnions_of_ofText h
  have hlength : 1 < members.length := hunions members hreaches
  have hnullish : ∀ member ∈ members,
      isNullishName (resolve member).name = member.core.isNullish := by
    intro member hmember
    have hmember : type.Reaches member := hreaches.trans (.member hmember (.self member))
    refine isNullishName_resolve (fun name hmentions => ?_) fun inner hinner => ?_
    · exact (TypeExpr.dotted_of_ofText h name (hmember.mentions hmentions)).2
    · exact hunions inner (hmember.trans hinner)
  refine ⟨collapses_of_names hlength hnullish, fun hcore => collapses_of_names hlength ?_⟩
  intro member hmember
  rw [hnullish member hmember, hcore member hmember]

/-- A reference or a list that can only hold `null`. -/
def nullListText : String :=
  "User | null[]"

def nullListMembers : List TypeExpr :=
  [.reference "User" [], .array (.keyword "null")]

theorem ofText_nullListText :
    TypeExpr.ofText nullListText = .ok (.union nullListMembers) := by
  have hname : Source.readGap ⟨.start, false, []⟩ nullListText.toList =
      .ok (⟨⟨1, 1⟩, false, []⟩, nullListText.toList) := by cbv
  have hbar : Source.readGap ⟨⟨1, 5⟩, false, []⟩ " | null[]".toList =
      .ok (⟨⟨1, 6⟩, false, []⟩, "| null[]".toList) := by cbv
  have hkeyword : Source.readGap ⟨⟨1, 7⟩, false, []⟩ " null[]".toList =
      .ok (⟨⟨1, 8⟩, false, []⟩, "null[]".toList) := by cbv
  have hopen : Source.readGap ⟨⟨1, 12⟩, false, []⟩ "[]".toList =
      .ok (⟨⟨1, 12⟩, false, []⟩, "[]".toList) := by cbv
  have hclose : Source.readGap ⟨⟨1, 13⟩, false, []⟩ "]".toList =
      .ok (⟨⟨1, 13⟩, false, []⟩, "]".toList) := by cbv
  have hending : Source.readGap ⟨⟨1, 14⟩, false, []⟩ [] = .ok (⟨⟨1, 14⟩, false, []⟩, []) := by cbv
  have hstream : Source.TokenStream.ofText nullListText = .ok ⟨[
      ⟨.ident "User", ⟨⟨1, 1⟩, false, []⟩⟩, ⟨.punct "|", ⟨⟨1, 6⟩, false, []⟩⟩,
      ⟨.ident "null", ⟨⟨1, 8⟩, false, []⟩⟩, ⟨.punct "[", ⟨⟨1, 12⟩, false, []⟩⟩,
      ⟨.punct "]", ⟨⟨1, 13⟩, false, []⟩⟩], ⟨⟨1, 14⟩, false, []⟩⟩ :=
    Source.readTokens_token hname rfl (Source.readTokens_token hbar rfl
      (Source.readTokens_token hkeyword rfl (Source.readTokens_token hopen rfl
        (Source.readTokens_token hclose rfl (Source.readTokens_ending hending)))))
  rw [TypeExpr.ofText_eq hstream]
  rfl

/-- The list counts as little as `null` does, and only the reference is left. -/
theorem collapses_nullListText :
    TypeExpr.ofText nullListText = .ok (.union nullListMembers) ∧
      resolve (.union nullListMembers) = {
        name := "User"
        isOptional := true
        isReference := true
        target := some "User" } := by
  obtain ⟨hcollapses, -⟩ := collapses_of_ofText ofText_nullListText (.self _)
  exact ⟨ofText_nullListText, hcollapses.single (.reference "User" []) rfl⟩

/-- It is not `null` itself that does not count here. -/
theorem not_collapses_nullListText :
    TypeExpr.ofText nullListText = .ok (.union nullListMembers) ∧
      ¬Collapses TypeExpr.isNullish nullListMembers := by
  refine ⟨ofText_nullListText, fun h => ?_⟩
  have hseveral : (nullListMembers.filter fun member => !member.isNullish).length ≠ 1 := by decide
  have halternatives := congrArg AttributeType.alternatives (h.several hseveral)
  cases halternatives

end AttributeType

end EntityDiagram.Model
