import EntityDiagram.Proofs.Declaration.Spelling
import EntityDiagram.Proofs.Declaration.TypeInvariants

/-!
# Where the names of properties come from

The key of a property is one of the lexemes that its file is read from, unless it is computed. So the
name of a property is a name or the value of a string that stands in the file, and nothing else.
-/

namespace EntityDiagram.Declaration

open Source (Lexeme Token TokenStream)

/-- If the member is a property whose key is not computed, its key is one of the lexemes. -/
def Member.HasKeyAmong (lexemes : List Lexeme) : Member → Prop
  | .property name nameKind .. =>
    nameKind ≠ .computed → IsKey name nameKind ∧ keyLexeme name nameKind ∈ lexemes
  | _ => True

/-- The keys of the properties in an object type are among the lexemes. -/
def TypeExpr.HasKeysAmong (lexemes : List Lexeme) (type : TypeExpr) : Prop :=
  ∀ members, type = .object members → ∀ member ∈ members, member.HasKeyAmong lexemes

/-- The keys of the properties that are declared are among the lexemes. -/
def Statement.HasKeysAmong (lexemes : List Lexeme) : Statement → Prop
  | .interface declaration => ∀ member ∈ declaration.members, member.HasKeyAmong lexemes
  | .alias declaration => declaration.type.HasKeysAmong lexemes
  | .other _ => True

namespace Parse

/-- The lexemes of the tokens are among those that are given. -/
def IsAmong (lexemes : List Lexeme) (tokens : List Token) : Prop :=
  tokens.map Token.lexeme ⊆ lexemes

instance (lexemes : List Lexeme) : Hereditary (IsAmong lexemes) where
  of_suffix hamong hsuffix _ hmem := hamong ((hsuffix.map Token.lexeme).subset hmem)

variable {lexemes : List Lexeme}

theorem IsAmong.mem_of_lexemeAt?
    {tokens : List Token} (h : IsAmong lexemes tokens) {lexeme : Lexeme}
    (hfirst : lexemeAt? tokens 0 = some lexeme) :
    lexeme ∈ lexemes := by
  cases tokens with
  | nil => cases hfirst
  | cons token rest =>
    obtain rfl : token.lexeme = lexeme := Option.some.inj hfirst
    exact h List.mem_cons_self

theorem memberName_ensures :
    Ensures (IsAmong lexemes) memberName fun found _ =>
      found.2 ≠ .computed → IsKey found.1 found.2 ∧ keyLexeme found.1 found.2 ∈ lexemes := by
  refine .looking fun tokens hamong => ?_
  have hhere : ∀ {reader : Parse (Text × NameKind)} {post : Text × NameKind → List Token → Prop},
      Ensures (IsAmong lexemes) reader post → Ensures (· = tokens) reader post :=
    fun h => h.weaken fun _ heq => heq ▸ hamong
  split
  · rename_i name hfirst
    have hkey : keyLexeme name .identifier ∈ lexemes := by
      simpa [keyLexeme] using hamong.mem_of_lexemeAt? hfirst
    exact hhere (.after (skip_inside 1) fun _ => .pure fun _ _ _ => ⟨isKey_ofString _ _, hkey⟩)
  · rename_i text hfirst
    have hkey : keyLexeme text .string ∈ lexemes := hamong.mem_of_lexemeAt? hfirst
    exact hhere (.after (skip_inside 1) fun _ => .pure fun _ _ _ => ⟨fun hkind => absurd rfl hkind, hkey⟩)
  · rename_i spelling hfirst
    have hkey : keyLexeme spelling .numeric ∈ lexemes := by
      simpa [keyLexeme] using hamong.mem_of_lexemeAt? hfirst
    exact hhere (.after (skip_inside 1) fun _ => .pure fun _ _ _ => ⟨isKey_ofString _ _, hkey⟩)
  · exact hhere (.after bracketedText_inside fun _ => .pure fun _ _ hplain => absurd rfl hplain)
  · exact .fail _

theorem admits_hasKeyAmong
    {type : TypeReader} (hinside : ∀ conditional, StaysInside (type conditional)) :
    Admits (IsAmong lexemes) type (Member.HasKeyAmong lexemes) where
  index _ _ _ := trivial
  call _ _ _ := trivial
  named _ _ := by
    refine .andThen memberName_inside memberName_ensures fun found hkey =>
      .after (eat_inside "?") fun _ => .after .get fun _ => .ite ?_ ?_
    · exact .after (typeParameters_inside hinside) fun _ => .after (parameters_inside hinside) fun _ =>
        .after (resultAnnotation_inside hinside) fun _ => .pure fun _ _ => trivial
    · exact .after (annotation_inside hinside) fun _ => .pure fun _ _ => hkey

theorem isReadInvariant_hasKeysAmong :
    IsReadInvariant (IsAmong lexemes) (TypeExpr.HasKeysAmong lexemes) where
  silent _ hsilent members hobject := by
    rw [hobject] at hsilent
    cases hsilent
  reference _ _ _ := nofun
  array _ _ := nofun
  union _ _ _ := nofun
  object _ hinside _ := by
    intro tokens found rest hamong hread members hobject
    obtain rfl := TypeExpr.object.inj hobject
    exact members_ensures hinside (admits_hasKeyAmong hinside) hamong hread

theorem admitsStatements_hasKeysAmong
    (depth : Nat) :
    AdmitsStatements (IsAmong lexemes) (typeWithin depth) (Statement.HasKeysAmong lexemes) where
  other _ := trivial
  interface _ := by
    have hinside := typeWithin_inside depth
    exact .after (skip_inside 1) fun _ => .after ident_inside fun _ =>
      .after (typeParameters_inside hinside) fun _ => .after (heritage_inside hinside) fun _ =>
      .after (expect_inside "\x7b") fun _ =>
      .bind (members_ensures hinside (admits_hasKeyAmong hinside)) fun _ =>
        .pure fun _ hfound => hfound
  «alias» _ := by
    have hinside := typeWithin_inside depth
    have htype : Produces (IsAmong lexemes) (TypeExpr.HasKeysAmong lexemes) (typeWithin depth true) :=
      isReadInvariant_hasKeysAmong.typeWithin depth true
    exact .after (skip_inside 1) fun _ => .after ident_inside fun _ =>
      .after (typeParameters_inside hinside) fun _ => .after (expect_inside "=") fun _ =>
      .andThen (hinside true) htype fun _ haliased => .after (eat_inside ";") fun _ =>
        .pure fun _ _ => haliased

end Parse

/-- The keys of the properties in a text are among its lexemes. -/
theorem SourceFile.hasKeysAmong_of_ofText
    {name text : String} {file : SourceFile} (h : SourceFile.ofText name text = .ok file) :
    ∃ stream, TokenStream.ofText text = .ok stream ∧
      ∀ statement ∈ file.statements, statement.HasKeysAmong (stream.tokens.map Token.lexeme) := by
  obtain ⟨stream, hstream, hall⟩ := forall_statements_of_ofText h
  refine ⟨stream, hstream, hall (Parse.IsAmong (stream.tokens.map Token.lexeme)) _ ?_ ?_⟩
  · exact List.Subset.refl _
  · exact Parse.admitsStatements_hasKeysAmong

end EntityDiagram.Declaration
