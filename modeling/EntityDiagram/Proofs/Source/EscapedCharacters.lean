import EntityDiagram.Proofs.Source.Tiling

/-!
# Where the characters of strings come from

Every lexeme stands in the text that it is read from. A string stands there with its escapes, so what
does not stand in the text can get into a string only by an escape.
-/

namespace EntityDiagram.Source

/-! ## Escapes -/

/-- The characters behind a backslash stand for one character. -/
inductive IsEscapeOf : List Char → Character → Prop
  | letter {c : Char} (hline : c ≠ '\n') (hx : c ≠ 'x') (hu : c ≠ 'u') :
    IsEscapeOf [c] (plainEscape c)
  | codePoint {escape : List Char} {c : Character} (h : EscapesCodePoint escape c) :
    IsEscapeOf escape c

/-- An escape for the character stands between the quotes, where what is in front of it can be decoded
on its own. -/
inductive HasEscapeOf (quote : Char) (c : Character) : List Char → Prop
  | mk {front escape behind : List Char} {before : List Character}
      (hfront : Decodes quote front before)
      (hescape : IsEscapeOf escape c) :
    HasEscapeOf quote c (front ++ '\\' :: escape ++ behind)

theorem HasEscapeOf.head
    {quote : Char} {c : Character} {escape : List Char} (h : IsEscapeOf escape c)
    (behind : List Char) :
    HasEscapeOf quote c ('\\' :: escape ++ behind) :=
  .mk .nil h

/-- What is decoded in front does not matter. -/
theorem HasEscapeOf.prepend
    {quote : Char} {c : Character} {body : List Char} (h : HasEscapeOf quote c body)
    {piece : List Char} {decoded : List Character}
    (hpiece : ∀ {front before}, Decodes quote front before →
      Decodes quote (piece ++ front) (decoded ++ before)) :
    HasEscapeOf quote c (piece ++ body) := by
  obtain @⟨front, escape, behind, before, hfront, hescape⟩ := h
  have hwhole : HasEscapeOf quote c (piece ++ front ++ '\\' :: escape ++ behind) :=
    .mk (hpiece hfront) hescape
  rwa [List.append_assoc piece, List.append_assoc piece] at hwhole

/-- A character of the decoded text stands between the quotes, or an escape for it does. -/
theorem Decodes.mem_or_hasEscapeOf
    {quote : Char} {body : List Char} {text : List Character} (h : Decodes quote body text)
    {c : Character} (hc : c ∈ text) :
    c ∈ Text.scalars body ∨ HasEscapeOf quote c body := by
  induction h with
  | nil => cases hc
  | @plain d body text hquote hbackslash hline hmore ih =>
    have hpiece : ∀ {front before}, Decodes quote front before →
        Decodes quote ([d] ++ front) ([.scalar d] ++ before) := .plain hquote hbackslash hline
    obtain rfl | hrest := List.mem_cons.mp hc
    · exact .inl List.mem_cons_self
    · exact (ih hrest).imp (List.mem_cons_of_mem _) fun h => h.prepend hpiece
  | @continuation body text hmore ih =>
    have hpiece : ∀ {front before}, Decodes quote front before →
        Decodes quote (['\\', '\n'] ++ front) ([] ++ before) := .continuation
    exact (ih hc).imp (List.mem_append_right (Text.scalars ['\\', '\n'])) fun h => h.prepend hpiece
  | @letter d body text hline hx hu hmore ih =>
    have hpiece : ∀ {front before}, Decodes quote front before →
        Decodes quote (['\\', d] ++ front) ([.scalar (plainEscape d)] ++ before) :=
      .letter hline hx hu
    obtain rfl | hrest := List.mem_cons.mp hc
    · exact .inr (.head (.letter hline hx hu) body)
    · exact (ih hrest).imp (List.mem_append_right (Text.scalars ['\\', d])) fun h => h.prepend hpiece
  | @codePoint escape d body text hescape hmore ih =>
    have hpiece : ∀ {front before}, Decodes quote front before →
        Decodes quote ('\\' :: escape ++ front) ([d] ++ before) := .codePoint hescape
    obtain rfl | hrest := List.mem_cons.mp hc
    · exact .inr (.head (.codePoint hescape) body)
    · refine (ih hrest).imp (fun hmem => ?_) fun h => h.prepend hpiece
      rw [Text.scalars_append]
      exact List.mem_append_right _ hmem

/-! ## The texts of tokens -/

/-- A string with the value stands in the text, and there an escape stands for the character. -/
inductive IsEscapedIn (text : List Char) (value : List Character) (c : Character) : Prop
  | mk {quote : Char} {body : List Char} (hquote : quote = '\'' ∨ quote = '"')
      (hvalue : Decodes quote body value) (hstands : quote :: body ++ [quote] <:+: text)
      (hescape : HasEscapeOf quote c body) :
    IsEscapedIn text value c

/-- The lexeme of every token stands in the text. -/
theorem Tiles.exists_isTextOf
    {tokens : List Token} {ending : Lead} {cs : List Char} (h : Tiles tokens ending cs)
    {lexeme : Lexeme}
    (hlexeme : lexeme ∈ tokens.map Token.lexeme) :
    ∃ text, IsTextOf text lexeme ∧ text <:+: cs := by
  induction h with
  | ending => cases hlexeme
  | @token token tokens ending pieces text behind hfits hlead htext hbehind ih =>
    obtain rfl | hmore := List.mem_cons.mp hlexeme
    · exact ⟨text, htext, gapText pieces, behind, rfl⟩
    · obtain ⟨found, hfound, hinfix⟩ := ih hmore
      exact ⟨found, hfound, hinfix.trans (List.suffix_append _ behind).isInfix⟩

/-- A character in the value of a string is one of the text, or the string has an escape for it. -/
theorem TokenStream.mem_or_isEscapedIn
    {text : String} {stream : TokenStream} (h : ofText text = .ok stream) {value : Text}
    (hvalue : .string value ∈ stream.tokens.map Token.lexeme) {c : Character}
    (hc : c ∈ value.toList) :
    c ∈ (text : Text).toList ∨ IsEscapedIn text.toList value.toList c := by
  obtain ⟨_, ⟨quote, body, hquote, hdecodes, rfl⟩, hstands⟩ :=
    (tiles_of_ofText h).exists_isTextOf hvalue
  obtain hmem | hescape := hdecodes.mem_or_hasEscapeOf hc
  · have hbody : c ∈ Text.scalars (quote :: body ++ [quote]) := by simp [hmem]
    exact .inl ((hstands.map Character.scalar).subset hbody)
  · exact .inr ⟨hquote, hdecodes, hstands, hescape⟩

end EntityDiagram.Source
