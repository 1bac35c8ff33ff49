import EntityDiagram.Proofs.Model.UnionCollapse
import EntityDiagram.Proofs.Render.LineStructure

/-!
# The words of attribute lines

The line of an attribute in Mermaid text starts with the words of its type and of its name. Characters
that are not admitted are taken out of types, but for bars, which become words. So the text of a type
that was read has a letter, a digit or an underscore, unless the type is a reference without one, and
then its arguments are such references too. In a name these characters are replaced, so a name is as
long as before.
-/

namespace EntityDiagram.Render.Mermaid

open Declaration (IsDottedName)
open Model (AttributeType Diagram primitiveNames isPrimitiveName)

/-! ## Words -/

/-- The text has an ASCII letter, an ASCII digit or an underscore. -/
def HasWord (text : Text) : Prop :=
  ∃ c ∈ text.toList, isPlain c = true

instance (text : Text) : Decidable (HasWord text) :=
  decidable_of_iff (text.toList.any isPlain = true) List.any_eq_true

theorem hasWord_append_iff
    {left right : Text} :
    HasWord (left ++ right) ↔ HasWord left ∨ HasWord right := by
  simp only [HasWord, Text.toList_append, List.mem_append, or_and_right, exists_or]

/-! ## Names of types -/

theorem isBlank_of_isPlain
    {c : Character} (h : isPlain c = true) :
    c.isIn Text.isBlank = false := by
  obtain halphanum | hunderscore := Bool.or_eq_true_iff.mp h
  · cases c with
    | scalar c => exact Text.isBlank_of_isAlphanum halphanum
    | surrogate offset => cases halphanum
  · rw [beq_iff_eq.mp hunderscore]
    decide

theorem ne_of_isBlank
    {c d : Character} (hc : isPlain c = true) (hd : d.isIn Text.isBlank = true) :
    c ≠ d := by
  rintro rfl
  rw [isBlank_of_isPlain hc] at hd
  cases hd

theorem isSeparator_of_isPlain
    {c : Character} (h : isPlain c = true) :
    isSeparator c = false := by
  rw [isSeparator, isBlank_of_isPlain h, Bool.or_false, beq_eq_false_iff_ne]
  exact ne_of_isPlain h (by decide)

mutual

/-- What is held back is white space. -/
theorem mem_barsFrom_iff
    {c : Character} (hc : isPlain c = true) :
    (held cs : List Character) → c ∉ held →
      (c ∈ barsFrom held cs ↔ c ∈ cs ∨ .scalar '|' ∈ cs ∧ c ∈ barText)
  | held, [], hheld => by simp [barsFrom, hheld]
  | held, d :: rest, hheld => by
    have hbar : c ≠ .scalar '|' := ne_of_isPlain hc (by decide)
    unfold barsFrom
    split
    · rename_i hd
      rw [List.mem_append, mem_afterBar_iff hc rest, hd]
      grind
    · split
      · rename_i hd hblank
        have hne : c ≠ d := ne_of_isBlank hc hblank
        rw [mem_barsFrom_iff hc (held ++ [d]) rest (by simp [hheld, hne])]
        grind
      · rw [List.mem_append, List.mem_cons, mem_barsFrom_iff hc [] rest List.not_mem_nil]
        grind

theorem mem_afterBar_iff
    {c : Character} (hc : isPlain c = true) :
    (cs : List Character) →
      (c ∈ barsFrom.afterBar cs ↔ c ∈ cs ∨ .scalar '|' ∈ cs ∧ c ∈ barText)
  | [] => by simp [barsFrom.afterBar]
  | d :: rest => by
    have hbar : c ≠ .scalar '|' := ne_of_isPlain hc (by decide)
    unfold barsFrom.afterBar
    split
    · rename_i hblank
      have hne : c ≠ d := ne_of_isBlank hc hblank
      have hd : d ≠ .scalar '|' := by
        rintro rfl
        exact absurd hblank (by decide)
      rw [mem_afterBar_iff hc rest]
      grind
    · split
      · rename_i hd
        rw [List.mem_append, mem_afterBar_iff hc rest, hd]
        grind
      · rw [List.mem_cons, mem_barsFrom_iff hc [] rest List.not_mem_nil]
        grind

end

theorem mem_hyphenateFrom_iff
    {c : Character} (hc : isPlain c = true) (inRun : Bool) (cs : List Character) :
    c ∈ hyphenateFrom inRun cs ↔ c ∈ cs := by
  have hhyphen : c ≠ .scalar '-' := ne_of_isPlain hc (by decide)
  have hseparator := isSeparator_of_isPlain hc
  fun_induction hyphenateFrom inRun cs <;> grind

/-- A letter, a digit or an underscore stays, and every bar becomes a word. -/
theorem mem_sanitizeTypeChars_iff
    {c : Character} (hc : isPlain c = true) (cs : List Character) :
    c ∈ sanitizeTypeChars cs ↔ c ∈ cs ∨ .scalar '|' ∈ cs ∧ c ∈ barText := by
  have hadmitted : isTypeChar c = true := by
    simp only [isTypeChar, hc, Bool.true_or]
  have hangle : (c != .scalar '<' && c != .scalar '>') = true := by
    rw [Bool.and_eq_true, bne_iff_ne, bne_iff_ne]
    exact ⟨ne_of_isPlain hc (by decide), ne_of_isPlain hc (by decide)⟩
  rw [sanitizeTypeChars, List.mem_filter, and_iff_left hadmitted, hyphenate]
  rw [mem_hyphenateFrom_iff hc, List.mem_filter, and_iff_left hangle, replaceBars]
  exact mem_barsFrom_iff hc [] cs List.not_mem_nil

theorem hasWord_sanitizeTypeName_iff
    {name : Text} :
    HasWord (sanitizeTypeName name) ↔ HasWord name ∨ .scalar '|' ∈ name.toList := by
  constructor
  · rintro ⟨c, hmem, hc⟩
    rw [sanitizeTypeName, mem_sanitizeTypeChars_iff hc] at hmem
    exact hmem.imp (fun hmem => ⟨c, hmem, hc⟩) And.left
  · have hsanitized : ∀ c ∈ sanitizeTypeChars name.toList, isPlain c = true →
        HasWord (sanitizeTypeName name) := by
      intro c hmem hc
      exact ⟨c, by rwa [sanitizeTypeName], hc⟩
    rintro (⟨c, hmem, hc⟩ | hbar)
    · exact hsanitized c ((mem_sanitizeTypeChars_iff hc _).mpr (.inl hmem)) hc
    · have ho : isPlain (.scalar 'o') = true := by decide
      exact hsanitized _ ((mem_sanitizeTypeChars_iff ho _).mpr (.inr ⟨hbar, by decide⟩)) ho

/-! ## Types -/

theorem hasWord_furtherText_iff
    {types : List AttributeType} :
    HasWord (furtherText types) ↔ ∃ type ∈ types, HasWord (typeText type) := by
  have hhyphen : ¬HasWord "-" := by decide
  induction types with
  | nil =>
    rw [furtherText]
    simp [HasWord]
  | cons type types ih =>
    rw [furtherText, hasWord_append_iff, hasWord_append_iff, List.exists_mem_cons_iff]
    rw [or_iff_right hhyphen]
    exact or_congr_right ih

theorem hasWord_argumentsText_iff
    {arguments : Option (List AttributeType)} :
    HasWord (argumentsText arguments) ↔
      ∃ types ∈ arguments, ∃ type ∈ types, HasWord (typeText type) := by
  have htilde : ¬HasWord "~" := by decide
  cases arguments with
  | none => simp [argumentsText, HasWord]
  | some types =>
    cases types with
    | nil => simp [argumentsText, HasWord]
    | cons first rest =>
      rw [argumentsText, hasWord_append_iff, hasWord_append_iff, hasWord_append_iff,
        hasWord_furtherText_iff]
      rw [or_iff_left htilde, or_iff_right htilde]
      simp only [Option.mem_some_iff, exists_eq_left', List.exists_mem_cons_iff]

theorem hasWord_typeText_iff
    {type : AttributeType} :
    HasWord (typeText type) ↔ (HasWord type.name ∨ .scalar '|' ∈ type.name.toList) ∨
      ∃ types ∈ type.arguments, ∃ argument ∈ types, HasWord (typeText argument) := by
  obtain ⟨name, isArray, isOptional, isReference, target, isPrimitive, arguments, alternatives,
    literal⟩ := type
  have hbrackets : ¬HasWord (if isArray then "[]" else "" : Text) := by
    cases isArray <;> decide
  rw [typeText, hasWord_append_iff, hasWord_append_iff, hasWord_sanitizeTypeName_iff,
    hasWord_argumentsText_iff, or_iff_left hbrackets]

/-- A reference without a letter, a digit or an underscore in its name, and the same holds of its
arguments. -/
inductive IsUnspelled : AttributeType → Prop
  | mk {type : AttributeType} (hreference : type.isReference = true) (hname : ¬HasWord type.name)
      (harguments : ∀ types ∈ type.arguments, ∀ argument ∈ types, IsUnspelled argument) :
    IsUnspelled type

theorem isUnspelled_iff
    {type : AttributeType} :
    IsUnspelled type ↔ type.isReference = true ∧ ¬HasWord type.name ∧
      ∀ types ∈ type.arguments, ∀ argument ∈ types, IsUnspelled argument :=
  ⟨fun | .mk hreference hname harguments => ⟨hreference, hname, harguments⟩,
    fun ⟨hreference, hname, harguments⟩ => .mk hreference hname harguments⟩

/-- The type has a word in its text, unless it is such a reference. -/
def ShowsWord (type : AttributeType) : Prop :=
  HasWord (typeText type) ↔ ¬IsUnspelled type

theorem showsWord_of_name
    {type : AttributeType} (hreference : type.isReference = false)
    (hname : HasWord type.name ∨ .scalar '|' ∈ type.name.toList) :
    ShowsWord type := by
  rw [ShowsWord, hasWord_typeText_iff, isUnspelled_iff, hreference]
  exact ⟨fun _ => nofun, fun _ => .inl hname⟩

theorem hasWord_of_mem_primitiveNames
    {name : Text} (h : name ∈ primitiveNames) :
    HasWord name := by
  have hnames : ∀ primitive ∈ primitiveNames, HasWord primitive := by decide +kernel
  exact hnames name h

theorem showsWord_of_reference
    {type : AttributeType} (hreference : type.isReference = true)
    (hbar : .scalar '|' ∉ type.name.toList)
    (harguments : ∀ types ∈ type.arguments, ∀ argument ∈ types, ShowsWord argument) :
    ShowsWord type := by
  have hspelled : (∃ types ∈ type.arguments, ∃ argument ∈ types, HasWord (typeText argument)) ↔
      ¬∀ types ∈ type.arguments, ∀ argument ∈ types, IsUnspelled argument := by
    push Not
    exact exists_congr fun types => and_congr_right fun htypes =>
      exists_congr fun argument => and_congr_right fun hargument =>
        harguments types htypes argument hargument
  rw [ShowsWord, hasWord_typeText_iff, isUnspelled_iff, or_iff_left hbar, and_iff_right hreference]
  rw [hspelled, not_and_or, not_not]

/-- A dotted name has no bar. -/
theorem showsWord_named
    {name : String} (hname : IsDottedName name) {arguments : List AttributeType}
    (h : ∀ argument ∈ arguments, ShowsWord argument) :
    ShowsWord (AttributeType.named name arguments) := by
  by_cases hprimitive : isPrimitiveName name = true
  · refine showsWord_of_name ?_ (.inl ?_)
    · rw [AttributeType.named, hprimitive]
      rfl
    · exact hasWord_of_mem_primitiveNames (List.contains_iff_mem.mp hprimitive)
  · have hbar : .scalar '|' ∉ (name : Text).toList := fun hmem =>
      hname.notMem (by decide) (by decide +kernel) (Text.scalar_mem_scalars.mp hmem)
    refine showsWord_of_reference ?_ hbar ?_
    · simp [AttributeType.named, hprimitive]
    · intro types htypes
      obtain rfl := AttributeType.eq_of_mem_someArguments htypes
      exact h

theorem isInvariant_showsWord :
    AttributeType.IsInvariant ShowsWord where
  unknown := showsWord_of_name rfl (.inl (by decide))
  primitive name hname := showsWord_of_name rfl (.inl (hasWord_of_mem_primitiveNames hname))
  named _ _ hname := showsWord_named hname
  union members isOptional hlength _ := by
    refine showsWord_of_name rfl (.inr ?_)
    exact AttributeType.mem_intercalate_of_mem (by decide) (by rwa [List.length_map])
  marked type isArray isOptional literal h := by
    rw [ShowsWord, hasWord_typeText_iff, isUnspelled_iff] at h ⊢
    exact h

/-! ## Names -/

theorem length_sanitizeName
    (name : Text) :
    (sanitizeName name).toList.length = name.toList.length := by
  unfold sanitizeName
  split
  · rfl
  · rw [List.length_map]

/-- An identifier may have a line break behind it, and then it is left as it is. -/
theorem isPlain_sanitizeName
    {name : Text} (h : breaksLeft name = 0) :
    ∀ c ∈ (sanitizeName name).toList, isPlain c = true := by
  unfold sanitizeName
  split
  · rename_i hidentifier
    have hlast : name.toList.getLast? ≠ some (.scalar '\n') := by
      intro hlast
      rw [breaksLeft, if_pos ⟨hidentifier, hlast⟩] at h
      cases h
    have hplain := isPlain_of_isIdentifier hidentifier
    rwa [withoutFinalBreak, if_neg hlast] at hplain
  · intro c hc
    obtain ⟨d, -, rfl⟩ := List.mem_map.mp hc
    split
    · assumption
    · rfl

/-! ## Diagrams that are read -/

/-- In the line of an attribute that was read the text of the type consists of the admitted characters,
and there is a letter, a digit or an underscore in it unless the type is a reference without one. The
name is as long as before, and it consists of letters, digits and underscores unless it is an identifier
with a line break behind it. -/
theorem attributeWords_of_ofText
    {fileName text : String} {diagram : Diagram}
    (h : Diagram.ofText fileName text = .ok diagram) :
    ∀ entity ∈ diagram.entities, ∀ field ∈ entity.attributes,
      (∀ c ∈ (typeText field.type).toList, isTypeChar c = true) ∧
        (HasWord (typeText field.type) ↔ ¬IsUnspelled field.type) ∧
        (sanitizeName field.name).toList.length = field.name.toList.length ∧
        (breaksLeft field.name = 0 → ∀ c ∈ (sanitizeName field.name).toList, isPlain c = true) :=
  fun entity hentity field hfield =>
    ⟨isTypeChar_typeText field.type, isInvariant_showsWord.of_ofText h entity hentity field hfield,
      length_sanitizeName field.name, isPlain_sanitizeName⟩

/-- The name of an attribute is empty, and its type is named by a dollar sign. -/
def blankText : String :=
  "interface A \x7b a: string; '': $ \x7d"

def blankTokens : List Source.Token :=
  [⟨.ident "interface", ⟨⟨1, 1⟩, false, []⟩⟩, ⟨.ident "A", ⟨⟨1, 11⟩, false, []⟩⟩,
    ⟨.punct "\x7b", ⟨⟨1, 13⟩, false, []⟩⟩, ⟨.ident "a", ⟨⟨1, 15⟩, false, []⟩⟩,
    ⟨.punct ":", ⟨⟨1, 16⟩, false, []⟩⟩, ⟨.ident "string", ⟨⟨1, 18⟩, false, []⟩⟩,
    ⟨.punct ";", ⟨⟨1, 24⟩, false, []⟩⟩, ⟨.string "", ⟨⟨1, 26⟩, false, []⟩⟩,
    ⟨.punct ":", ⟨⟨1, 28⟩, false, []⟩⟩, ⟨.ident "$", ⟨⟨1, 30⟩, false, []⟩⟩,
    ⟨.punct "\x7d", ⟨⟨1, 32⟩, false, []⟩⟩]

theorem tokens_blankText :
    Source.TokenStream.ofText blankText = .ok ⟨blankTokens, ⟨⟨1, 33⟩, false, []⟩⟩ := by
  have hkeyword : Source.readGap ⟨.start, false, []⟩ "interface A \x7b a: string; '': $ \x7d".toList =
      .ok (⟨⟨1, 1⟩, false, []⟩, "interface A \x7b a: string; '': $ \x7d".toList) := by cbv
  have hname : Source.readGap ⟨⟨1, 10⟩, false, []⟩ " A \x7b a: string; '': $ \x7d".toList =
      .ok (⟨⟨1, 11⟩, false, []⟩, "A \x7b a: string; '': $ \x7d".toList) := by cbv
  have hopen : Source.readGap ⟨⟨1, 12⟩, false, []⟩ " \x7b a: string; '': $ \x7d".toList =
      .ok (⟨⟨1, 13⟩, false, []⟩, "\x7b a: string; '': $ \x7d".toList) := by cbv
  have hfield : Source.readGap ⟨⟨1, 14⟩, false, []⟩ " a: string; '': $ \x7d".toList =
      .ok (⟨⟨1, 15⟩, false, []⟩, "a: string; '': $ \x7d".toList) := by cbv
  have hcolon : Source.readGap ⟨⟨1, 16⟩, false, []⟩ ": string; '': $ \x7d".toList =
      .ok (⟨⟨1, 16⟩, false, []⟩, ": string; '': $ \x7d".toList) := by cbv
  have htype : Source.readGap ⟨⟨1, 17⟩, false, []⟩ " string; '': $ \x7d".toList =
      .ok (⟨⟨1, 18⟩, false, []⟩, "string; '': $ \x7d".toList) := by cbv
  have hmark : Source.readGap ⟨⟨1, 24⟩, false, []⟩ "; '': $ \x7d".toList =
      .ok (⟨⟨1, 24⟩, false, []⟩, "; '': $ \x7d".toList) := by cbv
  have hempty : Source.readGap ⟨⟨1, 25⟩, false, []⟩ " '': $ \x7d".toList =
      .ok (⟨⟨1, 26⟩, false, []⟩, "'': $ \x7d".toList) := by cbv
  have hquotes : Source.readLexeme (some (.punct ";")) ⟨1, 26⟩ '\'' "': $ \x7d".toList =
      .ok ⟨.string "", ⟨1, 26⟩, ⟨1, 28⟩, ": $ \x7d".toList⟩ := by
    have hread : Source.readString '\'' "': $ \x7d".toList = .ok ([], ": $ \x7d".toList) := by
      simp [Source.readString]
    rw [Source.readLexeme_quote (.inl rfl) hread]
    rfl
  have hemptyColon : Source.readGap ⟨⟨1, 28⟩, false, []⟩ ": $ \x7d".toList =
      .ok (⟨⟨1, 28⟩, false, []⟩, ": $ \x7d".toList) := by cbv
  have hdollar : Source.readGap ⟨⟨1, 29⟩, false, []⟩ " $ \x7d".toList =
      .ok (⟨⟨1, 30⟩, false, []⟩, "$ \x7d".toList) := by cbv
  have hclose : Source.readGap ⟨⟨1, 31⟩, false, []⟩ " \x7d".toList =
      .ok (⟨⟨1, 32⟩, false, []⟩, "\x7d".toList) := by cbv
  have hending : Source.readGap ⟨⟨1, 33⟩, false, []⟩ [] = .ok (⟨⟨1, 33⟩, false, []⟩, []) := by cbv
  exact Source.readTokens_token hkeyword rfl (Source.readTokens_token hname rfl
    (Source.readTokens_token hopen rfl (Source.readTokens_token hfield rfl
      (Source.readTokens_token hcolon rfl (Source.readTokens_token htype rfl
        (Source.readTokens_token hmark rfl (Source.readTokens_token hempty hquotes
          (Source.readTokens_token hemptyColon rfl (Source.readTokens_token hdollar rfl
            (Source.readTokens_token hclose rfl
              (Source.readTokens_ending hending)))))))))))

def plainField : Model.Attribute where
  name := "a"
  type := .primitive "string"

def blankField : Model.Attribute where
  name := ""
  type := { name := "$", isReference := true, target := some "$" }

def blankEntity : Model.Entity where
  name := "A"
  attributes := [plainField, blankField]
  file := some "a.ts"

def blankDiagram : Diagram where
  entities := [blankEntity]
  sources := ["a.ts"]

theorem ofText_blankText :
    Diagram.ofText "a.ts" blankText = .ok blankDiagram := by
  rw [Diagram.ofText, Declaration.SourceFile.ofText_eq tokens_blankText]
  rfl

theorem attributeWords_blankText :
    HasWord (typeText plainField.type) ∧
      (∀ c ∈ (sanitizeName plainField.name).toList, isPlain c = true) ∧
      ¬HasWord (typeText blankField.type) ∧ (sanitizeName blankField.name).toList.length = 0 := by
  have hfields := attributeWords_of_ofText ofText_blankText blankEntity List.mem_cons_self
  obtain ⟨-, hplain, -, hname⟩ := hfields plainField List.mem_cons_self
  obtain ⟨-, hblank, hlength, -⟩ := hfields blankField (List.mem_cons_of_mem _ List.mem_cons_self)
  have hspelled : ¬IsUnspelled plainField.type := by
    rintro ⟨⟨⟩, -⟩
  have hunspelled : IsUnspelled blankField.type :=
    .mk rfl (by decide) nofun
  exact ⟨hplain.mpr hspelled, hname (by decide), fun hword => hblank.mp hword hunspelled, hlength⟩

/-- Nothing is left of the type, and there is nothing to replace in the name. -/
theorem empty_words_blankText :
    Diagram.ofText "a.ts" blankText = .ok blankDiagram ∧ blankEntity ∈ blankDiagram.entities ∧
      blankField ∈ blankEntity.attributes ∧ typeText blankField.type = "" ∧
      sanitizeName blankField.name = "" :=
  ⟨ofText_blankText, List.mem_cons_self, List.mem_cons_of_mem _ List.mem_cons_self,
    by decide, by decide⟩

end EntityDiagram.Render.Mermaid
