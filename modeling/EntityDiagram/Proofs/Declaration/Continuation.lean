import Mathlib.Data.List.Forall2
import Mathlib.Data.List.Infix
import EntityDiagram.Declaration.Parse.Statements
import EntityDiagram.Proofs.Declaration.DocumentationMap
import EntityDiagram.Proofs.Declaration.SignatureReading

/-!
# Tokens that go on like others

`Continues keep behind tokens tokens'` says that `tokens'` are the tokens `tokens` in another place,
with `behind` behind them. Positions play no part in it, and of the documentation only what `keep`
shows of it.

Where something stands behind, the tokens in front of it have to end with a mark that may end a
declaration. Questions about the tokens ahead are then answered alike: none of them looks past such
a mark, but for the search for the arrow of a function type. That search ends in front of whatever
is left when the bracket it starts from has been closed.
-/

namespace EntityDiagram.Declaration

open Source (Lexeme Token)

/-- The tokens differ at most in their place, and in documentation that `keep` does not show. -/
structure Alike (keep : DocsMap) (token token' : Token) : Prop where
  lexeme : token'.lexeme = token.lexeme
  newline : token'.lead.newline = token.lead.newline
  docs : keep (Documentation.ofBlocks? (token'.lead.docs.map .ofString)) =
    keep (Documentation.ofBlocks? (token.lead.docs.map .ofString))

/-- The marks that may end a declaration. -/
def IsFinal (lexeme : Lexeme) : Prop :=
  lexeme = .punct ";" ∨ lexeme = .punct "\x7d"

/-- The second list is like the first one and goes on with `behind`. -/
inductive Continues (keep : DocsMap) (behind : List Token) : List Token → List Token → Prop
  | ending : Continues keep behind [] behind
  | token {token token' : Token} {rest rest' : List Token} (halike : Alike keep token token')
      (hfinal : rest = [] → behind = [] ∨ IsFinal token.lexeme)
      (hrest : Continues keep behind rest rest') :
    Continues keep behind (token :: rest) (token' :: rest')

/-- What comes next stands in both lists: there is a token left, or nothing stands behind. -/
def Live (behind tokens : List Token) : Prop :=
  behind = [] ∨ tokens ≠ []

theorem live_cons
    (behind : List Token) (token : Token) (rest : List Token) :
    Live behind (token :: rest) :=
  .inr (List.cons_ne_nil _ _)

theorem lexemeAt?_tail
    (tokens : List Token) (offset : Nat) :
    lexemeAt? tokens.tail offset = lexemeAt? tokens (offset + 1) := by
  cases tokens <;> simp

theorem Alike.refl
    (keep : DocsMap) (token : Token) :
    Alike keep token token :=
  ⟨rfl, rfl, rfl⟩

namespace Continues

variable {keep : DocsMap} {behind tokens tokens' rest rest' : List Token} {token token' : Token}

/-- Tokens that are alike one by one go on alike to the end. -/
theorem of_forall₂
    (h : List.Forall₂ (Alike keep) tokens tokens') :
    Continues keep [] tokens tokens' := by
  induction h with
  | nil => exact .ending
  | cons halike _ ih => exact .token halike (fun _ => .inl rfl) ih

theorem refl
    (keep : DocsMap) (tokens : List Token) :
    Continues keep [] tokens tokens :=
  .of_forall₂ (List.forall₂_same.mpr fun token _ => .refl keep token)

theorem append
    (keep : DocsMap) (behind : List Token) {tokens : List Token}
    (hlast : ∀ last ∈ tokens.getLast?, IsFinal last.lexeme) :
    Continues keep behind tokens (tokens ++ behind) := by
  induction tokens with
  | nil => exact .ending
  | cons token rest ih =>
    refine .token (.refl keep token) ?_ (ih fun last hmem => hlast last ?_)
    · rintro rfl
      exact .inr (hlast token rfl)
    · rw [List.getLast?_cons]
      simp [Option.mem_def.mp hmem]

theorem length_eq
    (h : Continues keep behind tokens tokens') :
    tokens'.length = tokens.length + behind.length := by
  induction h with
  | ending => simp
  | token _ _ _ ih =>
    simp only [List.length_cons]
    omega

theorem lexemes_eq
    (h : Continues keep [] tokens tokens') :
    tokens'.map Token.lexeme = tokens.map Token.lexeme := by
  induction h with
  | ending => rfl
  | token halike _ _ ih => rw [List.map_cons, List.map_cons, halike.lexeme, ih]

theorem rest_of_cons
    (h : Continues keep behind (token :: rest) (token' :: rest')) :
    Continues keep behind rest rest' := by
  cases h with
  | token _ _ hrest => exact hrest

/-- A token that ends no declaration is not the last one in front of something. -/
theorem live_rest
    (h : Continues keep behind (token :: rest) tokens') (hopen : ¬IsFinal token.lexeme) :
    Live behind rest := by
  cases h with
  | token _ hfinal _ =>
    by_cases hrest : rest = []
    · exact .inl ((hfinal hrest).resolve_right hopen)
    · exact .inr hrest

/-! ## The next tokens -/

/-- What the next token alone decides is the same for both. -/
theorem eq_of_live
    {β : Type} {f : List Token → β} (h : Continues keep behind tokens tokens')
    (hlive : Live behind tokens)
    (hnext : ∀ {token token' rest rest'}, Alike keep token token' →
      f (token' :: rest') = f (token :: rest)) :
    f tokens' = f tokens := by
  cases h with
  | ending =>
    obtain rfl | hne := hlive
    · rfl
    · exact absurd rfl hne
  | token halike _ _ => exact hnext halike

theorem lexemeAt?_zero
    (h : Continues keep behind tokens tokens') (hlive : Live behind tokens) :
    lexemeAt? tokens' 0 = lexemeAt? tokens 0 :=
  h.eq_of_live (f := (lexemeAt? · 0)) hlive fun halike => congrArg some halike.lexeme

theorem onNewLine_eq
    (h : Continues keep behind tokens tokens') (hlive : Live behind tokens) :
    onNewLine tokens' = onNewLine tokens :=
  h.eq_of_live hlive Alike.newline

theorem isEmpty_eq
    (h : Continues keep behind tokens tokens') (hlive : Live behind tokens) :
    tokens'.isEmpty = tokens.isEmpty :=
  h.eq_of_live hlive fun _ => rfl

theorem documentation_eq
    (h : Continues keep behind tokens tokens') (hlive : Live behind tokens) :
    keep (Parse.documentation tokens') = keep (Parse.documentation tokens) :=
  h.eq_of_live (f := fun tokens => keep (Parse.documentation tokens)) hlive Alike.docs

theorem final_or_tail
    (h : Continues keep behind tokens tokens') (hlive : Live behind tokens) :
    (∃ lexeme, lexemeAt? tokens 0 = some lexeme ∧ IsFinal lexeme) ∨
      Live behind tokens.tail ∧ Continues keep behind tokens.tail tokens'.tail := by
  cases h with
  | ending =>
    obtain rfl | hne := hlive
    · exact .inr ⟨.inl rfl, .ending⟩
    · exact absurd rfl hne
  | @token token token' _ _ halike hfinal hrest =>
    by_cases hopen : IsFinal token.lexeme
    · exact .inl ⟨token.lexeme, rfl, hopen⟩
    · exact .inr ⟨(Continues.token halike hfinal hrest).live_rest hopen, hrest⟩

/-- Both lists start with the lexeme that the first one starts with. -/
theorem exists_cons
    (h : Continues keep behind tokens tokens') {lexeme : Lexeme}
    (hlexeme : lexemeAt? tokens 0 = some lexeme) :
    ∃ lead lead' rest rest', tokens = ⟨lexeme, lead⟩ :: rest ∧ tokens' = ⟨lexeme, lead'⟩ :: rest' ∧
      Alike keep ⟨lexeme, lead⟩ ⟨lexeme, lead'⟩ ∧ (¬IsFinal lexeme → Live behind rest) ∧
      Continues keep behind rest rest' := by
  cases h with
  | ending => simp at hlexeme
  | @token token token' rest rest' halike hfinal hrest =>
    obtain ⟨found, lead⟩ := token
    obtain ⟨found', lead'⟩ := token'
    obtain rfl : found = lexeme := Option.some.inj hlexeme
    obtain rfl : found' = found := halike.lexeme
    exact ⟨lead, lead', rest, rest', rfl, rfl, halike,
      (Continues.token halike hfinal hrest).live_rest, hrest⟩

/-- The next lexemes are the same, up to and with the first one that may end a declaration. -/
theorem window
    (h : Continues keep behind tokens tokens') (hlive : Live behind tokens) :
    lexemeAt? tokens' 0 = lexemeAt? tokens 0 ∧
      ((∃ lexeme, lexemeAt? tokens 0 = some lexeme ∧ IsFinal lexeme) ∨
        lexemeAt? tokens' 1 = lexemeAt? tokens 1 ∧
          ((∃ lexeme, lexemeAt? tokens 1 = some lexeme ∧ IsFinal lexeme) ∨
            lexemeAt? tokens' 2 = lexemeAt? tokens 2)) := by
  refine ⟨h.lexemeAt?_zero hlive, (h.final_or_tail hlive).imp_right ?_⟩
  rintro ⟨hlive, htail⟩
  rw [← lexemeAt?_tail, ← lexemeAt?_tail]
  refine ⟨htail.lexemeAt?_zero hlive, (htail.final_or_tail hlive).imp_right ?_⟩
  rintro ⟨hlive, htail⟩
  simpa only [lexemeAt?_tail] using htail.lexemeAt?_zero hlive

end Continues

end EntityDiagram.Declaration
