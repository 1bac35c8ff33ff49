import Mathlib.Algebra.Ring.Parity
import Mathlib.Data.List.DropRight
import Mathlib.Data.List.Induction
import EntityDiagram.Proofs.Render.LineStructure

/-!
# Quoted texts in Mermaid output

Labels and comments are written between double quotes, with a backslash before every quote of the text.
Backslashes of the text are written as they are, and a comment is cut off after its quotes were escaped.
So a quoted text need not be complete: a run of backslashes in front of a quote or at the end may have
the wrong parity, and the cut may fall between a quote and its backslash. It is stated here exactly when
a quoted text is complete.
-/

namespace EntityDiagram.Render.Mermaid

open Model (Attribute Diagram Entity Relationship)
open Text (replaceChar replaceChar_append)

/-! ## Complete texts -/

/-- How many backslashes stand at the end of a text. -/
def trailingBackslashes (cs : List Character) : Nat :=
  (cs.rtakeWhile (· == .scalar '\\')).length

/-- Between its quotes the text has escaped quotes only, and the quote behind it is not escaped. -/
structure IsComplete (inside : List Character) : Prop where
  quotes : ∀ front back, inside = front ++ .scalar '"' :: back → Odd (trailingBackslashes front)
  ending : Even (trailingBackslashes inside)

/-- In front of every double quote of the text there is an even number of backslashes. -/
def HasEvenQuotes (cs : List Character) : Prop :=
  ∀ front back, cs = front ++ .scalar '"' :: back → Even (trailingBackslashes front)

@[simp]
theorem trailingBackslashes_concat_backslash
    (cs : List Character) :
    trailingBackslashes (cs ++ [.scalar '\\']) = trailingBackslashes cs + 1 := by
  rw [trailingBackslashes, List.rtakeWhile_concat_pos _ _ _ rfl, List.length_append]
  rfl

theorem trailingBackslashes_concat
    {c : Character} (hc : c ≠ .scalar '\\') (cs : List Character) :
    trailingBackslashes (cs ++ [c]) = 0 := by
  rw [trailingBackslashes, List.rtakeWhile_concat_neg _ _ _ (by simpa using hc)]
  rfl

theorem trailingBackslashes_eq_zero
    {cs : List Character} (h : .scalar '\\' ∉ cs) :
    trailingBackslashes cs = 0 := by
  induction cs using List.reverseRecOn with
  | nil => rfl
  | append_singleton cs c _ =>
    refine trailingBackslashes_concat ?_ cs
    rintro rfl
    exact h (List.mem_append_right cs List.mem_cons_self)

/-- What holds in front of every quote of a text holds in front of those of its parts. -/
theorem forall_quotes_concat_iff
    {p : List Character → Prop} {cs : List Character} {c : Character} :
    (∀ front back, cs ++ [c] = front ++ .scalar '"' :: back → p front) ↔
      (∀ front back, cs = front ++ .scalar '"' :: back → p front) ∧ (c = .scalar '"' → p cs) := by
  constructor
  · intro h
    refine ⟨fun front back heq => h front (back ++ [c]) ?_, ?_⟩
    · rw [heq, List.append_assoc, List.cons_append]
    · rintro rfl
      exact h cs [] rfl
  · rintro ⟨hcs, hc⟩ front back heq
    induction back using List.reverseRecOn with
    | nil =>
      obtain ⟨rfl, hquote⟩ := List.append_inj' heq rfl
      exact hc (List.cons.inj hquote).1
    | append_singleton back last _ =>
      rw [← List.cons_append, ← List.append_assoc] at heq
      exact hcs front back (List.append_inj' heq rfl).1

/-! ## Escaped texts -/

/-- The characters of a text with a backslash before every double quote. -/
def escaped (cs : List Character) : List Character :=
  replaceChar '"' [.scalar '\\', .scalar '"'] cs

theorem escaped_concat_quote
    (cs : List Character) :
    escaped (cs ++ [.scalar '"']) = escaped cs ++ [.scalar '\\'] ++ [.scalar '"'] := by
  rw [escaped, replaceChar_append, List.append_assoc]
  rfl

theorem escaped_concat
    {c : Character} (hc : c ≠ .scalar '"') (cs : List Character) :
    escaped (cs ++ [c]) = escaped cs ++ [c] := by
  have hsingle : replaceChar '"' [.scalar '\\', .scalar '"'] [c] = [c] := by simp [replaceChar, hc]
  rw [escaped, replaceChar_append, hsingle]
  rfl

theorem trailingBackslashes_escaped
    (cs : List Character) :
    trailingBackslashes (escaped cs) = trailingBackslashes cs := by
  induction cs using List.reverseRecOn with
  | nil => rfl
  | append_singleton cs c ih =>
    by_cases hquote : c = .scalar '"'
    · rw [hquote, escaped_concat_quote, trailingBackslashes_concat (by decide),
        trailingBackslashes_concat (by decide)]
    · rw [escaped_concat hquote]
      by_cases hslash : c = .scalar '\\'
      · rw [hslash, trailingBackslashes_concat_backslash, trailingBackslashes_concat_backslash, ih]
      · rw [trailingBackslashes_concat hslash, trailingBackslashes_concat hslash]

/-- The quotes of an escaped text are escaped where those of the text were not. -/
theorem odd_quotes_escaped_iff
    {cs : List Character} :
    (∀ front back, escaped cs = front ++ .scalar '"' :: back → Odd (trailingBackslashes front)) ↔
      HasEvenQuotes cs := by
  unfold HasEvenQuotes
  induction cs using List.reverseRecOn with
  | nil => simp [escaped, replaceChar]
  | append_singleton cs c ih =>
    by_cases hquote : c = .scalar '"'
    · rw [hquote, escaped_concat_quote, forall_quotes_concat_iff, forall_quotes_concat_iff,
        forall_quotes_concat_iff, ih, trailingBackslashes_concat_backslash,
        trailingBackslashes_escaped, Nat.odd_add_one, Nat.not_odd_iff_even]
      simp
    · rw [escaped_concat hquote, forall_quotes_concat_iff, forall_quotes_concat_iff, ih]
      simp [hquote]

/-! ## Texts that are cut off -/

/-- The front of a text whose escaped form fits into so many places, and whether a quote behind it has
its backslash in the last of them. -/
def fit : Nat → List Character → List Character × Bool
  | _, [] => ([], false)
  | 0, _ :: _ => ([], false)
  | places + 1, c :: rest =>
    if c = .scalar '"' then
      match places with
      | 0 => ([], true)
      | places + 1 => (c :: (fit places rest).1, (fit places rest).2)
    else (c :: (fit places rest).1, (fit places rest).2)

theorem escaped_cons_quote
    (cs : List Character) :
    escaped (.scalar '"' :: cs) = .scalar '\\' :: .scalar '"' :: escaped cs :=
  rfl

theorem escaped_cons
    {c : Character} (hc : c ≠ .scalar '"') (cs : List Character) :
    escaped (c :: cs) = c :: escaped cs := by
  rw [escaped, replaceChar, List.flatMap_cons, if_neg hc]
  rfl

theorem take_escaped
    (places : Nat) (cs : List Character) :
    (escaped cs).take places =
      escaped (fit places cs).1 ++ if (fit places cs).2 then [.scalar '\\'] else [] := by
  fun_induction fit places cs with
  | case1 => exact List.take_nil
  | case2 => rfl
  | case3 rest => rfl
  | case4 rest places ih =>
    rw [escaped_cons_quote, escaped_cons_quote, List.take_succ_cons, List.take_succ_cons, ih]
    rfl
  | case5 places c rest hc ih =>
    rw [escaped_cons hc, escaped_cons hc, List.take_succ_cons, ih]
    rfl

theorem mem_of_mem_fit
    {places : Nat} {cs : List Character} {c : Character} (h : c ∈ (fit places cs).1) :
    c ∈ cs := by
  fun_induction fit places cs with
  | case1 | case2 | case3 => cases h
  | case4 rest places ih | case5 places d rest _ ih =>
    obtain rfl | hrest := List.mem_cons.mp h
    · exact List.mem_cons_self
    · exact List.mem_cons_of_mem _ (ih hrest)

/-- A text to be written between quotes. It may have to fit into a number of places. -/
structure Quotation where
  text : List Character
  places : Option Nat := none

namespace Quotation

/-- What is written between the quotes. -/
def inside (quotation : Quotation) : List Character :=
  match quotation.places with
  | none => escaped quotation.text
  | some places => (escaped quotation.text).take places

/-- What is kept of the text, and whether the next quote is written by half. -/
def kept (quotation : Quotation) : List Character × Bool :=
  match quotation.places with
  | none => (quotation.text, false)
  | some places => fit places quotation.text

/-- The runs of backslashes in front of quotes are even in what is kept, and so is the run at its end, or
odd where the next quote is written by half. -/
structure IsSafe (quotation : Quotation) : Prop where
  quotes : HasEvenQuotes quotation.kept.1
  ending : Even (trailingBackslashes quotation.kept.1) ↔ quotation.kept.2 = false

theorem inside_eq
    (quotation : Quotation) :
    quotation.inside =
      escaped quotation.kept.1 ++ if quotation.kept.2 then [.scalar '\\'] else [] := by
  unfold inside kept
  split
  · simp
  · exact take_escaped _ _

/-- The quote that was written by half adds a backslash. -/
theorem odd_quotes_inside_iff
    (quotation : Quotation) :
    (∀ front back, quotation.inside = front ++ .scalar '"' :: back →
        Odd (trailingBackslashes front)) ↔
      HasEvenQuotes quotation.kept.1 := by
  rw [inside_eq]
  split
  · rw [forall_quotes_concat_iff, odd_quotes_escaped_iff]
    simp
  · rw [List.append_nil, odd_quotes_escaped_iff]

theorem even_inside_iff
    (quotation : Quotation) :
    Even (trailingBackslashes quotation.inside) ↔
      (Even (trailingBackslashes quotation.kept.1) ↔ quotation.kept.2 = false) := by
  rw [inside_eq]
  split
  · rename_i hhalf
    rw [trailingBackslashes_concat_backslash, trailingBackslashes_escaped, Nat.even_add_one, hhalf]
    simp
  · rename_i hwhole
    rw [List.append_nil, trailingBackslashes_escaped, (Bool.not_eq_true _).mp hwhole]
    simp

theorem isComplete_inside_iff
    (quotation : Quotation) :
    IsComplete quotation.inside ↔ quotation.IsSafe :=
  ⟨fun h => ⟨quotation.odd_quotes_inside_iff.mp h.quotes, quotation.even_inside_iff.mp h.ending⟩,
    fun h => ⟨quotation.odd_quotes_inside_iff.mpr h.quotes, quotation.even_inside_iff.mpr h.ending⟩⟩

theorem notMem_kept
    {quotation : Quotation} (h : .scalar '\\' ∉ quotation.text) :
    .scalar '\\' ∉ quotation.kept.1 := by
  unfold kept
  split
  · exact h
  · exact fun hmem => h (mem_of_mem_fit hmem)

/-- Without backslashes only the cut matters. -/
theorem isComplete_inside_iff_of_notMem
    {quotation : Quotation} (h : .scalar '\\' ∉ quotation.text) :
    IsComplete quotation.inside ↔ quotation.kept.2 = false := by
  have hkept := trailingBackslashes_eq_zero (notMem_kept h)
  rw [isComplete_inside_iff]
  constructor
  · intro hsafe
    exact hsafe.ending.mp (hkept ▸ Even.zero)
  · intro hwhole
    refine ⟨fun front back heq => ?_, by simp [hkept, hwhole]⟩
    have hfront : .scalar '\\' ∉ front := fun hmem =>
      notMem_kept h (heq ▸ List.mem_append_left _ hmem)
    exact trailingBackslashes_eq_zero hfront ▸ Even.zero

end Quotation

/-! ## The lines of a diagram -/

/-- A line, with a quoted text at its end if it has one. -/
structure QuotingLine where
  head : Text
  quotation : Option Quotation := none

/-- The line as it is written. -/
def QuotingLine.text (line : QuotingLine) : Text :=
  match line.quotation with
  | none => line.head
  | some quotation => line.head ++ "\"" ++ .ofList quotation.inside ++ "\""

/-- The line of a relationship; white space and quotes have its label quoted. -/
def linkLine (link : Relationship) : QuotingLine :=
  if link.label.toList.any fun c => c.isIn Text.isBlank || c == .scalar '"' || c == .scalar '\'' then
    ⟨linkHead link, some { text := link.label.toList }⟩
  else { head := linkHead link ++ link.label }

/-- The description that is shown with an attribute. -/
def shownDescription? (options : MermaidOptions) (field : Attribute) : Option Text :=
  if options.showComments then
    field.docs.bind fun docs => docs.description.bind Text.nonempty?
  else none

/-- The line of an attribute; its description is a comment of limited length, with spaces for the line
breaks. -/
def fieldLine (options : MermaidOptions) (field : Attribute) : QuotingLine :=
  let head := attributeLine { options with showComments := false } field
  match shownDescription? options field with
  | none => { head := head }
  | some description =>
    ⟨head ++ " ", some ⟨replaceChar '\n' [.scalar ' '] description.toList, some commentLength⟩⟩

/-- The lines of a diagram with their quoted texts. -/
def quotingLines (options : MermaidOptions) (diagram : Diagram) : List QuotingLine :=
  { head := "erDiagram" } :: diagram.relationships.map linkLine ++
    if options.showProperties && options.showAttributes then
      diagram.entities.flatMap fun entity =>
        { head := "    " ++ entity.name ++ " \x7b" } ::
          entity.attributes.map (fieldLine options) ++ [{ head := "    \x7d" }]
    else []

theorem text_linkLine
    (link : Relationship) :
    (linkLine link).text = relationshipLine link := by
  rw [relationshipLine_eq, formatLabel, linkLine]
  split
  · simp only [QuotingLine.text, Quotation.inside, escaped, escapeQuotes, Text.append_assoc]
  · rfl

/-- Whether quotes or line breaks are replaced first makes no difference. -/
theorem replaceChar_escaped
    (cs : List Character) :
    replaceChar '\n' [.scalar ' '] (escaped cs) = escaped (replaceChar '\n' [.scalar ' '] cs) := by
  simp only [escaped, replaceChar, List.flatMap_assoc]
  refine List.flatMap_congr fun c _ => ?_
  by_cases hquote : c = .scalar '"'
  · rw [hquote]
    rfl
  · by_cases hbreak : c = .scalar '\n'
    · rw [hbreak]
      rfl
    · simp [hquote, hbreak]

theorem commentText_eq
    (description : Text) :
    commentText description = .ofList
      (Quotation.inside ⟨replaceChar '\n' [.scalar ' '] description.toList, some commentLength⟩) := by
  rw [commentText, Quotation.inside, ← replaceChar_escaped]
  rfl

theorem attributeLine_of_none
    {options : MermaidOptions} {field : Attribute} (h : shownDescription? options field = none) :
    attributeLine options field = attributeLine { options with showComments := false } field := by
  rw [shownDescription?] at h
  simp only [attributeLine, h]
  rfl

theorem attributeLine_of_some
    {options : MermaidOptions} {field : Attribute} {description : Text}
    (h : shownDescription? options field = some description) :
    attributeLine options field =
      attributeLine { options with showComments := false } field ++
        (" \"" ++ commentText description ++ "\"") := by
  rw [shownDescription?] at h
  simp only [attributeLine, h, Bool.false_eq_true, if_false]
  exact congrArg (· ++ _) (Text.append_empty _).symm

theorem text_fieldLine
    (options : MermaidOptions) (field : Attribute) :
    (fieldLine options field).text = attributeLine options field := by
  have hspace : (" \"" : Text) = " " ++ "\"" := rfl
  rw [fieldLine]
  cases hshown : shownDescription? options field with
  | none => exact (attributeLine_of_none hshown).symm
  | some description =>
    rw [attributeLine_of_some hshown]
    simp only [QuotingLine.text, commentText_eq, hspace, Text.append_assoc]

theorem map_text_quotingLines
    (options : MermaidOptions) (diagram : Diagram) :
    (quotingLines options diagram).map QuotingLine.text = diagramLines options diagram := by
  have hlinks : (diagram.relationships.map linkLine).map QuotingLine.text =
      diagram.relationships.map relationshipLine := by
    rw [List.map_map]
    exact List.map_congr_left fun link _ => text_linkLine link
  have hfields : ∀ entity : Entity, (entity.attributes.map (fieldLine options)).map QuotingLine.text =
      entity.attributes.map (attributeLine options) := by
    intro entity
    rw [List.map_map]
    exact List.map_congr_left fun field _ => text_fieldLine options field
  rw [quotingLines, diagramLines, List.map_append, List.map_cons, hlinks]
  split
  · rw [List.map_flatMap]
    simp only [List.map_append, List.map_cons, hfields]
    rfl
  · rfl

/-- Mermaid text consists of lines with at most one quoted text each, at the end. What is quoted is complete
exactly if it is safe, and where it has no backslashes, exactly if no quote was written by half. -/
theorem isComplete_iff_isSafe
    (options : MermaidOptions) (diagram : Diagram) :
    render options diagram = Text.unlines ((quotingLines options diagram).map QuotingLine.text) ∧
      ∀ line ∈ quotingLines options diagram, ∀ quotation ∈ line.quotation,
        (IsComplete quotation.inside ↔ quotation.IsSafe) ∧
          (.scalar '\\' ∉ quotation.text →
            (IsComplete quotation.inside ↔ quotation.kept.2 = false)) := by
  refine ⟨by rw [map_text_quotingLines, render], fun _ _ quotation _ => ?_⟩
  exact ⟨quotation.isComplete_inside_iff, fun h => quotation.isComplete_inside_iff_of_notMem h⟩

/-- Its label has no backslashes. -/
def plainLink : Relationship :=
  ⟨"A", "A", .oneToOne, "say \"a\"", true⟩

/-- Its label ends in a backslash. -/
def slashedLink : Relationship :=
  ⟨"A", "A", .oneToOne, "a \\", true⟩

/-- The cut falls between the quote of its description and the backslash of this quote. -/
def halvedField : Attribute where
  name := "x"
  type := { name := "string" }
  docs := some { description := some "yyyyyyyyyyyyyyyyyyyyyyyyyyyyyyyyyyyyyyyyyyyyyyyyy\"" }

def halvedDiagram : Diagram where
  entities := [{ name := "A", attributes := [halvedField] }]
  relationships := [plainLink, slashedLink]

theorem linkLine_mem_quotingLines
    (options : MermaidOptions) {diagram : Diagram} {link : Relationship}
    (h : link ∈ diagram.relationships) :
    linkLine link ∈ quotingLines options diagram :=
  List.mem_append_left _ (List.mem_cons_of_mem _ (List.mem_map_of_mem h))

theorem isComplete_iff_isSafe_halvedDiagram :
    (∃ quotation ∈ (linkLine plainLink).quotation, IsComplete quotation.inside) ∧
      ∃ quotation ∈ (linkLine slashedLink).quotation, ¬quotation.IsSafe ∧
        ¬IsComplete quotation.inside := by
  have hplain := (isComplete_iff_isSafe {} halvedDiagram).2 (linkLine plainLink)
    (linkLine_mem_quotingLines {} (.head _)) _ rfl
  have hslashed := (isComplete_iff_isSafe {} halvedDiagram).2 (linkLine slashedLink)
    (linkLine_mem_quotingLines {} (.tail _ (.head _))) _ rfl
  have hunsafe : ¬Quotation.IsSafe { text := slashedLink.label.toList } :=
    fun hsafe => absurd hsafe.ending (by decide)
  exact ⟨⟨_, rfl, (hplain.2 (by decide)).mpr rfl⟩,
    ⟨_, rfl, hunsafe, fun hcomplete => hunsafe (hslashed.1.mp hcomplete)⟩⟩

/-- In both lines the quote that should end the text is escaped. -/
theorem not_isComplete_halvedDiagram :
    (∃ line ∈ quotingLines { showComments := true } halvedDiagram,
        line.text = "    A ||--|| A : \"a \\\"" ∧
          ∃ quotation ∈ line.quotation, ¬IsComplete quotation.inside) ∧
      ∃ line ∈ quotingLines { showComments := true } halvedDiagram,
        line.text = "        string x \"yyyyyyyyyyyyyyyyyyyyyyyyyyyyyyyyyyyyyyyyyyyyyyyyy\\\"" ∧
          ∃ quotation ∈ line.quotation, ¬IsComplete quotation.inside := by
  refine ⟨⟨linkLine slashedLink, linkLine_mem_quotingLines _ (.tail _ (.head _)),
      by decide +kernel, _, rfl, fun h => absurd h.ending (by decide)⟩,
    ⟨fieldLine { showComments := true } halvedField, ?_, by decide +kernel, _, rfl,
      fun h => absurd h.ending (by decide)⟩⟩
  simp [quotingLines, halvedDiagram]

end EntityDiagram.Render.Mermaid
