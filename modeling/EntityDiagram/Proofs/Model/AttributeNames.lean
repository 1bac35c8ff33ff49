import EntityDiagram.Proofs.Declaration.MemberNames
import EntityDiagram.Proofs.Model.EntityMembers
import EntityDiagram.Proofs.Source.EscapedCharacters

/-!
# The names of attributes that are read

An attribute is named by an identifier or a string of its text. So a character of the name stands in
the text, unless the name is a string and has an escape for it.
-/

namespace EntityDiagram.Model

open Declaration (Member SourceFile Statement keyLexeme plainKey_ofString)
open Source (IsEscapedIn Lexeme TokenStream)

/-- The attribute is named by an identifier or a string among the lexemes. -/
def Attribute.IsNamedAmong (lexemes : List Lexeme) (field : Attribute) : Prop :=
  (∃ name : String, field.name = name ∧ .ident name ∈ lexemes) ∨ .string field.name ∈ lexemes

theorem Attribute.isNamedAmong_of_members
    {lexemes : List Lexeme} {members : List Member}
    (h : ∀ member ∈ members, member.HasKeyAmong lexemes) :
    ∀ field ∈ members.filterMap ofMember?, field.IsNamedAmong lexemes := by
  intro field hfield
  obtain ⟨member, hmember, hfield⟩ := List.mem_filterMap.mp hfield
  have hkey := h member hmember
  cases member with
  | property name nameKind =>
    cases nameKind with
    | identifier =>
      obtain rfl := Option.some.inj hfield
      obtain ⟨hplain, hlexeme⟩ := hkey (by decide)
      obtain ⟨identifier, rfl⟩ := hplain (by decide)
      rw [keyLexeme, plainKey_ofString] at hlexeme
      exact .inl ⟨identifier, rfl, hlexeme⟩
    | string =>
      obtain rfl := Option.some.inj hfield
      exact .inr (hkey (by decide)).2
    | numeric | computed => cases hfield
  | _ => cases hfield

theorem Declares.hasKeyAmong
    {lexemes : List Lexeme} {statement : Statement} {name : Text} {members : List Member}
    (h : Declares statement name members) (hstatement : statement.HasKeysAmong lexemes) :
    ∀ member ∈ members, member.HasKeyAmong lexemes := by
  cases h with
  | interface => exact hstatement
  | typeAlias hobject => exact hstatement members hobject

/-- A character in the name of an attribute is one of the text, or the name is a string with an escape
for it. -/
theorem Diagram.mem_or_isEscapedIn_of_ofText
    {name text : String} {diagram : Diagram} (h : Diagram.ofText name text = .ok diagram)
    {entity : Entity} (hentity : entity ∈ diagram.entities) {field : Attribute}
    (hfield : field ∈ entity.attributes) {c : Character} (hc : c ∈ field.name.toList) :
    c ∈ (text : Text).toList ∨ IsEscapedIn text.toList field.name.toList c := by
  obtain ⟨file, hfile, -, hdeclared⟩ := exists_file_of_ofText h
  obtain ⟨stream, hstream, hkeys⟩ := SourceFile.hasKeysAmong_of_ofText hfile
  obtain ⟨statement, hstatement, members, hdeclares, hattributes⟩ := hdeclared entity hentity
  have hmembers := hdeclares.hasKeyAmong (hkeys statement hstatement)
  rw [hattributes] at hfield
  obtain ⟨identifier, hname, hident⟩ | hstring := Attribute.isNamedAmong_of_members hmembers field hfield
  · obtain ⟨_, rfl, hstands⟩ := (TokenStream.tiles_of_ofText hstream).exists_isTextOf hident
    rw [hname] at hc
    exact .inl ((hstands.map Character.scalar).subset hc)
  · exact TokenStream.mem_or_isEscapedIn hstream hstring hc

end EntityDiagram.Model
