import EntityDiagram.Proofs.Declaration.StatementFollowing
import EntityDiagram.Proofs.Source.Tiling

/-!
# What a text is refused for

Every text is read or refused, and a refusal has a position unless it is about a value: that of a
numeral without digits or with too many of them, or that of a text behind `typeof import` which
opens no bracket. No other lookup or conversion fails.
-/

namespace EntityDiagram.Source

theorem readString_isLocated
    {quote : Char} {cs : List Char} {fault : Fault} (h : readString quote cs = .error fault) :
    fault.isLocated = true := by
  fun_induction readString quote cs with
  | case1 | case2 | case4 | case5 =>
    cases h
    rfl
  | case3 => cases h
  | case6 letter rest _ _ _ _ _ _ ih => exact ih (map_eq_error h)
  | case7 rest _ _ _ ih => exact ih h
  | case8 letter rest _ _ _ _ ih => exact ih (map_eq_error h)
  | case9 c rest _ _ _ ih => exact ih (map_eq_error h)

theorem readGap_isLocated
    {lead : Lead} {cs : List Char} {e : SourceError} (h : readGap lead cs = .error e) :
    e.fault.isLocated = true := by
  fun_induction readGap lead cs with
  | case1 | case7 => cases h
  | case2 _ _ ih | case3 _ _ _ _ _ ih | case4 _ _ _ _ _ _ _ ih | case6 _ _ _ _ _ _ _ _ _ _ ih =>
    exact ih h
  | case5 =>
    cases h
    rfl

theorem readLexeme_isLocated
    {previous : Option Lexeme} {start : Position} {c : Char} {rest : List Char} {e : SourceError}
    (h : readLexeme previous start c rest = .error e) :
    e.fault.isLocated = true := by
  have houtcome := readLexeme_outcome previous start c rest
  rw [h] at houtcome
  cases houtcome with
  | badNumber | badTemplate | badRegex => rfl
  | badString _ hread => exact readString_isLocated hread

theorem readTokens_isLocated
    {previous : Option Lexeme} {position : Position} {cs : List Char} {e : SourceError}
    (h : readTokens previous position cs = .error e) :
    e.fault.isLocated = true := by
  fun_induction readTokens previous position cs with
  | case1 _ _ _ _ hgap =>
    cases h
    exact readGap_isLocated hgap
  | case2 => cases h
  | case3 _ _ _ _ _ _ _ _ hlexeme =>
    cases h
    exact readLexeme_isLocated hlexeme
  | case4 _ _ _ _ _ _ _ _ _ _ hmore ih =>
    cases h
    exact ih hmore
  | case5 => cases h

end EntityDiagram.Source

namespace EntityDiagram.Declaration

open Source (Fault Lexeme SourceError Token TokenStream)

/-- A text was read, or refused with a position, or refused for something that its tokens show. -/
inductive Settled {α : Type} (text : String) : Except SourceError α → Prop
  | read (value : α) : Settled text (.ok value)
  | located {e : SourceError} (h : e.fault.isLocated = true) : Settled text (.error e)
  | culprit {e : SourceError} {stream : TokenStream}
      (hstream : TokenStream.ofText text = .ok stream)
      (h : Culprit (stream.tokens.map Token.lexeme) e.fault) :
    Settled text (.error e)

theorem Took.settled
    {α : Type} {text : String} {stream : TokenStream} {least : Nat} {rise : Int} {loose : Bool}
    {result : Except ParseFailure (α × List Token)} (h : Took least rise loose stream.tokens result)
    (hstream : TokenStream.ofText text = .ok stream) :
    Settled text (placed stream (result.map Prod.fst)) := by
  cases result with
  | ok read => exact .read read.1
  | error failure =>
    rcases h.blames failure rfl with hlocated | hculprit
    · exact .located hlocated
    · exact .culprit hstream hculprit

theorem Settled.map
    {α β : Type} {text : String} {result : Except SourceError α} (h : Settled text result)
    (f : α → β) :
    Settled text (result.map f) := by
  cases h with
  | read value => exact .read (f value)
  | located h => exact .located h
  | culprit hstream h => exact .culprit hstream h

/-- Files and types are read or refused, and refused without a position only for a culprit. -/
theorem settled_ofText
    (name text : String) :
    Settled text (SourceFile.ofText name text) ∧ Settled text (TypeExpr.ofText text) := by
  cases hstream : TokenStream.ofText text with
  | error e =>
    have hlocated := Source.readTokens_isLocated hstream
    simp only [SourceFile.ofText, TypeExpr.ofText, hstream]
    exact ⟨.located hlocated, .located hlocated⟩
  | ok stream =>
    have hrefl := Continues.refl id stream.tokens
    rw [SourceFile.ofText_eq hstream, TypeExpr.ofText_eq hstream, Statement.listOfTokens_eq,
      TypeExpr.ofTokens_eq]
    have hfile := Parse.wholeFile_follows hrefl (Nat.le_refl _) (Nat.le_refl _)
    have htype := Parse.wholeType_follows hrefl
    exact ⟨(hfile.took.settled hstream).map _, htype.took.settled hstream⟩

/-- A word behind `typeof import` where a bracket should stand. -/
def bareImport : String :=
  "typeof import x"

theorem ofText_bareImport :
    TypeExpr.ofText bareImport = .error ⟨.noBracket "x", ⟨1, 15⟩⟩ ∧
      (Fault.noBracket "x").isLocated = false := by
  have hquery : Source.readGap ⟨.start, false, []⟩ bareImport.toList =
      .ok (⟨⟨1, 1⟩, false, []⟩, "typeof import x".toList) := by cbv
  have himport : Source.readGap ⟨⟨1, 7⟩, false, []⟩ " import x".toList =
      .ok (⟨⟨1, 8⟩, false, []⟩, "import x".toList) := by cbv
  have hword : Source.readGap ⟨⟨1, 14⟩, false, []⟩ " x".toList =
      .ok (⟨⟨1, 15⟩, false, []⟩, "x".toList) := by cbv
  have hending : Source.readGap ⟨⟨1, 16⟩, false, []⟩ [] = .ok (⟨⟨1, 16⟩, false, []⟩, []) := by cbv
  have hstream : TokenStream.ofText bareImport = .ok ⟨[
      ⟨.ident "typeof", ⟨⟨1, 1⟩, false, []⟩⟩, ⟨.ident "import", ⟨⟨1, 8⟩, false, []⟩⟩,
      ⟨.ident "x", ⟨⟨1, 15⟩, false, []⟩⟩], ⟨⟨1, 16⟩, false, []⟩⟩ :=
    Source.readTokens_token hquery rfl (Source.readTokens_token himport rfl
      (Source.readTokens_token hword rfl (Source.readTokens_ending hending)))
  rw [TypeExpr.ofText_eq hstream]
  exact ⟨rfl, rfl⟩

end EntityDiagram.Declaration
