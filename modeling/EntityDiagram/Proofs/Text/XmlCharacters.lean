import EntityDiagram.Proofs.Source.Names
import EntityDiagram.Proofs.Text.MarkupReading

/-!
# Characters that XML allows

No document may contain the characters that XML leaves out, not even as entities: the control
characters other than tab, line break and carriage return, the surrogates, and the last two code points
of the first plane. Those of a text, in order, go through escaping as they are.
-/

namespace EntityDiagram.Text

/-- The code points of the characters that XML 1.0 allows. -/
def xmlRanges : CodeRanges :=
  [(0x9, 0xA), (0xD, 0xD), (0x20, 0xD7FF), (0xE000, 0xFFFD), (0x10000, 0x10FFFF)]

/-- The code points of all other characters. -/
def nonXmlRanges : CodeRanges :=
  [(0x0, 0x8), (0xB, 0xC), (0xE, 0x1F), (0xD800, 0xDFFF), (0xFFFE, 0xFFFF)]

/-- A character that XML 1.0 allows. -/
def isXmlChar (c : Character) : Bool :=
  xmlRanges.contains c.code

/-- All characters of the text are allowed. -/
def IsXmlText (text : Text) : Prop :=
  ∀ c ∈ text.toList, isXmlChar c = true

/-- The characters that are not allowed, in order. -/
def nonXmlChars (cs : List Character) : List Character :=
  cs.filter fun c => !isXmlChar c

/-- The characters of the text that are not allowed, in order. -/
def nonXml (text : Text) : List Character :=
  nonXmlChars text.toList

/-! ## Classes of allowed characters -/

theorem code_lt
    (c : Character) :
    c.code < 0x110000 := by
  cases c with
  | scalar c =>
    have hvalid : c.toNat < 0xD800 ∨ 0xDFFF < c.toNat ∧ c.toNat < 0x110000 := c.valid
    simp only [Character.code]
    omega
  | surrogate index =>
    have hindex := index.isLt
    simp only [Character.code, Character.firstSurrogate]
    omega

theorem contains_nonXmlRanges
    (c : Character) :
    nonXmlRanges.contains c.code = !isXmlChar c := by
  have hlt := code_lt c
  rw [Bool.eq_iff_iff, Bool.not_eq_true', ← Bool.not_eq_true]
  simp only [isXmlChar, xmlRanges, nonXmlRanges, CodeRanges.contains, Bool.and_eq_true,
    Bool.or_eq_true, decide_eq_true_eq, Bool.false_eq_true, or_false]
  omega

theorem isXmlChar_of_apart
    {ranges : CodeRanges} (h : ranges.apart nonXmlRanges = true) {c : Char}
    (hc : ranges.has c = true) :
    isXmlChar c = true := by
  have hnone : nonXmlRanges.contains (Character.scalar c).code = false := CodeRanges.has_eq_false h hc
  rwa [contains_nonXmlRanges, Bool.not_eq_false'] at hnone

theorem isXmlChar_of_isAlphanumeric
    {c : Char} (h : isAlphanumeric c = true) :
    isXmlChar c = true := by
  simp only [isAlphanumeric, isLetter, isDigit, isDecimal, Bool.or_eq_true] at h
  obtain (hletter | hdecimal | hdigit) | hnumeral := h
  · exact isXmlChar_of_apart (by decide +kernel) hletter
  · exact isXmlChar_of_apart (by decide +kernel) hdecimal
  · exact isXmlChar_of_apart (by decide +kernel) hdigit
  · exact isXmlChar_of_apart (by decide +kernel) hnumeral

theorem isXmlChar_of_isAlphanum
    {c : Char} (h : c.isAlphanum = true) :
    isXmlChar c = true := by
  obtain ⟨hlow, hhigh⟩ := toNat_of_isAlphanum h
  simp only [isXmlChar, Character.code, xmlRanges, CodeRanges.contains_cons_iff]
  omega

/-- All characters of names are allowed. -/
theorem isXmlChar_of_isNamePart
    {c : Char} (h : Source.isNamePart c = true) :
    isXmlChar c = true := by
  simp only [Source.isNamePart, Bool.or_eq_true, beq_iff_eq] at h
  obtain (halphanumeric | rfl) | rfl := h
  · exact isXmlChar_of_isAlphanumeric halphanumeric
  · decide
  · decide

/-! ## The characters that are not allowed -/

theorem nonXmlChars_append
    (a b : List Character) :
    nonXmlChars (a ++ b) = nonXmlChars a ++ nonXmlChars b :=
  List.filter_append ..

theorem nonXmlChars_cons
    {c : Character} (h : isXmlChar c = true) (rest : List Character) :
    nonXmlChars (c :: rest) = nonXmlChars rest := by
  rw [nonXmlChars, List.filter_cons_of_neg]
  · rfl
  · simp [h]

theorem nonXmlChars_of_forall
    {cs : List Character} (h : ∀ c ∈ cs, isXmlChar c = true) :
    nonXmlChars cs = [] := by
  rw [nonXmlChars, List.filter_eq_nil_iff]
  intro c hc
  rw [h c hc]
  decide

theorem nonXml_append
    (a b : Text) :
    nonXml (a ++ b) = nonXml a ++ nonXml b := by
  rw [nonXml, toList_append, nonXmlChars_append]
  rfl

theorem nonXml_intercalate
    {separator : Text} (h : nonXml separator = []) (texts : List Text) :
    nonXml (separator.intercalate texts) = texts.flatMap nonXml := by
  induction texts with
  | nil => rfl
  | cons first rest ih =>
    cases rest with
    | nil => simp
    | cons second rest =>
      rw [intercalate_cons_cons, nonXml_append, nonXml_append, h, List.append_nil, ih]
      rfl

theorem mem_nonXml_iff
    {text : Text} {c : Character} :
    c ∈ nonXml text ↔ c ∈ text.toList ∧ isXmlChar c = false := by
  rw [nonXml, nonXmlChars, List.mem_filter, Bool.not_eq_true']

theorem nonXml_eq_nil_iff
    {text : Text} :
    nonXml text = [] ↔ IsXmlText text := by
  constructor
  · intro hnone c hc
    by_contra hforbidden
    have hmem : c ∈ nonXml text := mem_nonXml_iff.mpr ⟨hc, Bool.not_eq_true _ ▸ hforbidden⟩
    rw [hnone] at hmem
    cases hmem
  · exact nonXmlChars_of_forall

/-- Only allowed characters are replaced, and the replacements consist of such characters. -/
theorem nonXmlChars_escapeMarkupChars
    (cs : List Character) :
    nonXmlChars (escapeMarkupChars cs) = nonXmlChars cs := by
  induction cs with
  | nil => rfl
  | cons c rest ih =>
    have hfirst : nonXmlChars (escapeMarkupChars [c]) = nonXmlChars [c] := by
      obtain hplain | rfl | rfl | rfl | rfl | rfl := Markup.isPlain_or c
      · rw [Markup.escapeMarkupChars_singleton hplain]
      all_goals decide
    rw [← List.singleton_append, Markup.escapeMarkupChars_append, nonXmlChars_append,
      nonXmlChars_append, hfirst, ih]

/-! ## Spelled documents -/

namespace Markup

mutual

/-- The characters that are not allowed in the attribute values of an element and of those inside. -/
def Element.nonXml : Element → List Character
  | .node _ attributes children =>
    (attributes.flatMap fun entry => Text.nonXml entry.2) ++ nonXmlOfAll children

def Element.nonXmlOfAll : List Element → List Character
  | [] => []
  | element :: rest => element.nonXml ++ nonXmlOfAll rest

end

theorem Element.nonXmlOfAll_eq_flatMap
    (elements : List Element) :
    nonXmlOfAll elements = elements.flatMap Element.nonXml := by
  induction elements with
  | nil => rfl
  | cons element rest ih => rw [nonXmlOfAll, ih, List.flatMap_cons]

theorem isXmlChar_of_isSpace
    {c : Character} (h : isSpace c = true) :
    isXmlChar c = true := by
  obtain rfl | rfl | rfl | rfl := eq_of_isSpace h
  all_goals decide

theorem nonXml_of_isName
    {name : Text} (h : isName name = true) :
    Text.nonXml name = [] := by
  rw [isName, Bool.and_eq_true, List.all_eq_true] at h
  apply nonXmlChars_of_forall
  intro c hc
  have hpart := h.2 c hc
  cases c with
  | surrogate index => cases hpart
  | scalar c =>
    simp only [isNamePart, Character.isIn_scalar, Bool.or_eq_true, beq_iff_eq] at hpart
    obtain (((halphanum | rfl) | rfl) | rfl) | rfl := hpart
    · exact isXmlChar_of_isAlphanum halphanum
    all_goals decide

/-- Only the values of attributes have characters that are not allowed. -/
theorem nonXmlChars_attributesChars
    {attributes : Attributes} (h : ∀ entry ∈ attributes, isName entry.1 = true) :
    nonXmlChars (attributesChars attributes) =
      attributes.flatMap fun entry => Text.nonXml entry.2 := by
  induction attributes with
  | nil => rfl
  | cons entry rest ih =>
    obtain ⟨hentry, hrest⟩ := List.forall_mem_cons.mp h
    have hblank : isXmlChar (.scalar ' ') = true := by decide
    have hequals : isXmlChar (.scalar '=') = true := by decide
    have hquote : isXmlChar (.scalar '"') = true := by decide
    have hname : nonXmlChars entry.1.toList = [] := nonXml_of_isName hentry
    have hfirst : nonXmlChars (attributeChars entry) = Text.nonXml entry.2 := by
      rw [attributeChars, nonXmlChars_append, nonXmlChars_append, nonXmlChars_cons hblank, hname,
        nonXmlChars_cons hequals, nonXmlChars_cons hquote, nonXmlChars_cons hquote,
        nonXmlChars_escapeMarkupChars]
      exact List.append_nil _
    rw [attributesChars, List.flatMap_cons, nonXmlChars_append, hfirst, ← attributesChars, ih hrest,
      List.flatMap_cons]

/-- What spells elements has only those characters that are not allowed which are in the values of
their attributes. -/
theorem Spells.nonXmlChars_eq
    {cs : List Character} {elements : List Element} (h : Spells cs elements) :
    nonXmlChars cs = Element.nonXmlOfAll elements := by
  have hopen : isXmlChar (.scalar '<') = true := by decide
  have hslash : isXmlChar (.scalar '/') = true := by decide
  have hclose : nonXmlChars [.scalar '>'] = [] := by decide
  have hend : nonXmlChars [.scalar ' ', .scalar '/', .scalar '>'] = [] := by decide
  have hnone : ∀ name, isName name = true → nonXmlChars name.toList = [] := fun _ =>
    nonXml_of_isName
  induction h with
  | nil => rfl
  | space hspace _ ih => rw [nonXmlChars_cons (isXmlChar_of_isSpace hspace), ih]
  | @empty name attributes cs elements hname hattributes _ ih =>
    have hvalues := nonXmlChars_attributesChars (forall_isName hattributes).1
    simp only [Tag.chars, nonXmlChars_append, nonXmlChars_cons hopen, hend, hnone name hname, hvalues,
      ih, List.nil_append, List.append_nil]
    rw [Element.nonXmlOfAll, Element.nonXml, Element.nonXmlOfAll, List.append_nil]
  | @nested name attributes inner cs children elements hname hattributes _ _ ihinner ih =>
    have hvalues := nonXmlChars_attributesChars (forall_isName hattributes).1
    simp only [Tag.chars, nonXmlChars_append, nonXmlChars_cons hopen, nonXmlChars_cons hslash, hclose,
      hnone name hname, hvalues, ihinner, ih, List.nil_append, List.append_nil]
    rw [Element.nonXmlOfAll, Element.nonXml]

end Markup

end EntityDiagram.Text
