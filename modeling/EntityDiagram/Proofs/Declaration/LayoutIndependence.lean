import Mathlib.Data.List.Forall2
import EntityDiagram.Proofs.Declaration.StatementFollowing

/-!
# Layout and documentation do not influence reading

Two token streams may place the same lexemes differently and document them differently. As long as
they break lines in front of the same tokens, reading makes the same of them: trees that are equal
up to documentation, or the same fault at the same token.
-/

namespace EntityDiagram.Declaration

open Source (Lead Position SourceError Token TokenStream)

/-- The tokens differ at most in their place and in their documentation. -/
structure Relaid (token token' : Token) : Prop where
  lexeme : token'.lexeme = token.lexeme
  newline : token'.lead.newline = token.lead.newline

/-- Without any documentation. -/
def noDocs : DocsMap := fun _ => none

/-- The place of the token with the given index, or of the end behind the last one. -/
def positionAt (stream : TokenStream) (index : Nat) : Position :=
  ((stream.tokens[index]?.map Token.lead).getD stream.ending).position

/-- The same comes of both streams: values that look alike, or one fault at one token. -/
inductive SameOutcome {α γ : Type} (view : α → γ) (stream stream' : TokenStream) :
    Except SourceError α → Except SourceError α → Prop
  | value {value value' : α} (hview : view value' = view value) :
    SameOutcome view stream stream' (.ok value) (.ok value')
  | failure {fault : Source.Fault} {index : Nat} (hindex : index ≤ stream.tokens.length) :
    SameOutcome view stream stream' (.error ⟨fault, positionAt stream index⟩)
      (.error ⟨fault, positionAt stream' index⟩)

/-- A failure with tokens left is placed at the first of them. -/
theorem located_eq
    (stream : TokenStream) {failure : ParseFailure} (h : failure.remaining <:+ stream.tokens) :
    failure.located stream.ending =
      ⟨failure.fault, positionAt stream (stream.tokens.length - failure.remaining.length)⟩ := by
  obtain ⟨front, hfront⟩ := h
  have hindex : stream.tokens.length - failure.remaining.length = front.length := by
    rw [← hfront, List.length_append]
    omega
  have hnext : stream.tokens[front.length]? = failure.remaining.head? := by
    rw [← hfront, List.getElem?_append_right (Nat.le_refl _), Nat.sub_self, List.head?_eq_getElem?]
  rw [ParseFailure.located, positionAt, hindex, hnext]

/-- Readers that follow each other to the end have the same outcome. -/
theorem Follows.sameOutcome
    {α γ : Type} {view : α → γ} {least least' : Nat} {rise rise' : Int} {loose loose' : Bool}
    {stream stream' : TokenStream} {result result' : Except ParseFailure (α × List Token)}
    (h : Follows noDocs [] least rise loose view stream.tokens result result')
    (h' : Took least' rise' loose' stream'.tokens result')
    (hlength : stream'.tokens.length = stream.tokens.length) :
    SameOutcome view stream stream' (placed stream (result.map Prod.fst))
      (placed stream' (result'.map Prod.fst)) := by
  cases result with
  | ok read =>
    obtain ⟨value, rest⟩ := read
    obtain ⟨value', rest', rfl, hview, -⟩ := h.value value rest rfl (.inl rfl)
    exact .value hview
  | error failure =>
    obtain ⟨failure', rfl, hfault, hcontinues⟩ := h.failure rfl failure rfl
    have hleft := located_eq stream (h.took.remaining failure rfl)
    have hright := located_eq stream' (h'.remaining failure' rfl)
    have hcount := hcontinues.length_eq
    rw [hlength, hcount, hfault, List.length_nil, Nat.add_zero] at hright
    simp only [placed, Except.map, Except.mapError, hleft, hright]
    exact .failure (Nat.sub_le _ _)

/-- The statements of a file and the type that a text spells are the same for both streams, and so
is what is wrong with them. -/
theorem sameOutcome_of_relaid
    {stream stream' : TokenStream} (h : List.Forall₂ Relaid stream.tokens stream'.tokens) :
    SameOutcome (List.map (Statement.mapDocs noDocs)) stream stream'
        (placed stream (Statement.listOfTokens stream.tokens))
        (placed stream' (Statement.listOfTokens stream'.tokens)) ∧
      SameOutcome (TypeExpr.mapDocs noDocs) stream stream'
        (placed stream (TypeExpr.ofTokens stream.tokens))
        (placed stream' (TypeExpr.ofTokens stream'.tokens)) := by
  have hcontinues : Continues noDocs [] stream.tokens stream'.tokens :=
    .of_forall₂ (h.imp fun _ _ hrelaid => ⟨hrelaid.lexeme, hrelaid.newline, rfl⟩)
  have hlength : stream'.tokens.length = stream.tokens.length := hcontinues.length_eq
  have hrefl := Continues.refl noDocs stream'.tokens
  constructor
  · rw [Statement.listOfTokens_eq, Statement.listOfTokens_eq]
    have hfollows := Parse.wholeFile_follows hcontinues (Nat.le_refl _) (Nat.le_of_eq hlength.symm)
    exact hfollows.sameOutcome
      (Parse.wholeFile_follows hrefl (Nat.le_refl _) (Nat.le_refl _)).took hlength
  · rw [TypeExpr.ofTokens_eq, TypeExpr.ofTokens_eq]
    exact (Parse.wholeType_follows hcontinues).sameOutcome (Parse.wholeType_follows hrefl).took
      hlength

/-- The tokens in another place, every one of them documented. -/
def documented (stream : TokenStream) : TokenStream where
  tokens := stream.tokens.map fun token =>
    { token with lead := ⟨⟨7, 3⟩, token.lead.newline, ["/** Placed by a customer. */"]⟩ }
  ending := ⟨⟨9, 1⟩, true, []⟩

theorem relaid_documented
    (stream : TokenStream) :
    List.Forall₂ Relaid stream.tokens (documented stream).tokens :=
  List.forall₂_map_right_iff.mpr (List.forall₂_same.mpr fun _ _ => ⟨rfl, rfl⟩)

/-- An interface on one line. -/
def plainStream : TokenStream where
  tokens := tokensOnLine [.ident "interface", .ident "Order", .punct "\x7b", .ident "id",
    .punct ":", .ident "number", .punct "\x7d"]
  ending := ⟨⟨1, 8⟩, false, []⟩

/-- The interface without its end. -/
def openStream : TokenStream :=
  { plainStream with tokens := plainStream.tokens.dropLast }

/-- The interface is read, and the one that ends too early is refused at the end of either stream. -/
theorem sameOutcome_documentedStream :
    (List.Forall₂ Relaid plainStream.tokens (documented plainStream).tokens ∧
      SameOutcome (List.map (Statement.mapDocs noDocs)) plainStream (documented plainStream)
        (placed plainStream (Statement.listOfTokens plainStream.tokens))
        (placed (documented plainStream)
          (Statement.listOfTokens (documented plainStream).tokens))) ∧
    List.Forall₂ Relaid openStream.tokens (documented openStream).tokens ∧
      SameOutcome (List.map (Statement.mapDocs noDocs)) openStream (documented openStream)
        (.error ⟨.unclosed "\x7d", ⟨1, 8⟩⟩) (.error ⟨.unclosed "\x7d", ⟨9, 1⟩⟩) :=
  ⟨⟨relaid_documented _, (sameOutcome_of_relaid (relaid_documented plainStream)).1⟩,
    relaid_documented _, (sameOutcome_of_relaid (relaid_documented openStream)).1⟩

end EntityDiagram.Declaration
