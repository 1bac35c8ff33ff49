import EntityDiagram.Proofs.Declaration.Concatenation

/-!
# The recursion of types

Types are read with a budget for their nesting, and the budget is never used up: with more of it the
result is the same. What is read is what the grammar says when it is closed with itself. A type is
read from the types nested in it, all of which stand behind at least one more token, so no other
reader closes the grammar in this way.
-/

namespace EntityDiagram.Declaration

open Source (Token)

namespace Parse

/-- Reads a type, with the budget that the tokens give. -/
def typeReader : TypeReader :=
  fun conditional tokens => typeWithin (tokens.length + 1) conditional tokens

theorem type_eq_of_mapDocs
    (type type' : TypeExpr) (h : type'.mapDocs id = type.mapDocs id) :
    type' = type := by
  rwa [TypeExpr.mapDocs_id, TypeExpr.mapDocs_id] at h

/-- How deep types may nest does not matter, as long as the budget exceeds the tokens. -/
theorem typeWithin_eq_typeReader
    {depth : Nat} {tokens : List Token} (hdepth : tokens.length < depth) (conditional : Bool) :
    typeWithin depth conditional tokens = typeReader conditional tokens := by
  have hrefl := Continues.refl id tokens
  have hfollows := typeWithin_follows id [] (Nat.le_refl (tokens.length + 1)) hdepth conditional
    (Nat.lt_succ_self _) hrefl
  have htook := typeWithin_follows id [] hdepth hdepth conditional (Nat.lt_succ_self _) hrefl
  exact hfollows.result_eq type_eq_of_mapDocs htook.took

/-- Readers that read short lists alike follow each other there. -/
theorem typesFollow_of_shorter
    {bound : Nat} {type type' : TypeReader}
    (h : ∀ conditional rest, rest.length < bound →
      type conditional rest = typeReader conditional rest)
    (h' : ∀ conditional rest, rest.length < bound →
      type' conditional rest = typeReader conditional rest) :
    TypesFollow id [] bound type type' := by
  intro conditional tokens tokens' hbound hcontinues
  have hbound' : tokens'.length < bound := by
    rw [hcontinues.length_eq]
    exact hbound
  rw [h conditional tokens hbound, h' conditional tokens' hbound',
    ← typeWithin_eq_typeReader hbound, ← typeWithin_eq_typeReader hbound']
  exact typeWithin_follows id [] (Nat.le_refl _) (Nat.le_refl _) conditional hbound hcontinues

/-- The types that are nested in a type start at least one token behind it: how anything is read
that is not shorter does not matter. -/
theorem typeFrom_eq_typeReader
    {other : TypeReader} {tokens : List Token}
    (h : ∀ nested rest, rest.length < tokens.length → other nested rest = typeReader nested rest)
    (conditional : Bool) :
    typeFrom other conditional tokens = typeReader conditional tokens := by
  have hwithin : ∀ nested rest, rest.length < tokens.length →
      typeWithin tokens.length nested rest = typeReader nested rest :=
    fun nested rest hrest => typeWithin_eq_typeReader hrest nested
  have hrefl := Continues.refl id tokens
  have hfollows := typeFrom_follows (typesFollow_of_shorter hwithin h) conditional
    (Nat.lt_succ_self _) hrefl
  have htook := typeFrom_follows (typesFollow_of_shorter h h) conditional (Nat.lt_succ_self _) hrefl
  exact hfollows.result_eq type_eq_of_mapDocs htook.took

theorem typeReader_eq
    (conditional : Bool) :
    typeReader conditional = typeFrom typeReader conditional := by
  funext tokens
  exact (typeFrom_eq_typeReader (fun _ _ _ => rfl) conditional).symm

/-- Nothing else reads types as the grammar says. -/
theorem typeReader_unique
    {reader : TypeReader} (h : ∀ conditional, reader conditional = typeFrom reader conditional) :
    reader = typeReader := by
  funext conditional tokens
  -- A nested type is read behind at least one token, so the induction is on their number.
  induction hlength : tokens.length using Nat.strong_induction_on
    generalizing conditional tokens with
  | _ length ih =>
    rw [h conditional]
    apply typeFrom_eq_typeReader
    intro nested rest hrest
    exact ih rest.length (hlength ▸ hrest) nested rest rfl

theorem wholeType_eq
    (tokens : List Token) :
    wholeType (tokens.length + 1) tokens =
      (do let type ← typeReader true; expectEnd; return type : Parse TypeExpr) tokens := by
  have hread : typeReader true tokens = typeWithin (tokens.length + 1) true tokens := rfl
  rw [run_bind, hread, wholeType, run_bind]

/-- Statements are read with the same reader of types, whatever is left of the tokens. -/
theorem wholeFile_eq
    (tokens : List Token) :
    wholeFile tokens.length tokens =
      statementsWithin typeReader (tokens.length + 1) tokens := by
  have hwithin : ∀ conditional rest, rest.length < tokens.length + 1 →
      typeWithin (tokens.length + 1) conditional rest = typeReader conditional rest :=
    fun conditional rest hrest => typeWithin_eq_typeReader hrest conditional
  have hread := typesFollow_of_shorter (fun _ _ _ => rfl) hwithin
  have hwhole := typesFollow_of_shorter hwithin hwithin
  have hrefl := Continues.refl id tokens
  have hfollows := statementsWithin_follows hread (Nat.le_succ _) hrefl (Nat.lt_succ_self _)
    (Nat.lt_succ_self _)
  have htook := statementsWithin_follows hwhole (Nat.le_succ _) hrefl (Nat.lt_succ_self _)
    (Nat.lt_succ_self _)
  exact hfollows.result_eq statements_eq_of_mapDocs htook.took

end Parse

end EntityDiagram.Declaration
