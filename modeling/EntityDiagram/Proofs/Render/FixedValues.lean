import EntityDiagram.CommandLine.Moment
import EntityDiagram.Proofs.Source.NumeralSpelling
import EntityDiagram.Proofs.Text.XmlCharacters
import EntityDiagram.Render.Drawio

/-!
# Values of a drawing that come from no text

Numbers, styles and the current time are written without being escaped. They consist of few characters,
all of which are allowed in a document and stand for themselves in an attribute value.
-/

namespace EntityDiagram.Render.Drawio

open Model (Cardinality)
open Number (Binary64 Measure)
open Text (isXmlChar nonXml)
open Text.Markup (isPlain)

/-! ## The characters -/

/-- A character of numbers, styles and points in time. -/
def isFixedChar (c : Char) : Bool :=
  c.isAlphanum || c == '-' || c == '+' || c == '.' || c == ':' || c == ';' || c == '=' || c == '#'

/-- The text consists of characters of numbers, styles and points in time. -/
def IsFixedText (text : String) : Prop :=
  ∀ c ∈ text.toList, isFixedChar c = true

theorem isPlain_of_isFixedChar
    {c : Char} (h : isFixedChar c = true) :
    isPlain c = true := by
  obtain hplain | hspecial := Text.Markup.isPlain_or c
  · exact hplain
  · simp only [Character.scalar.injEq] at hspecial
    obtain rfl | rfl | rfl | rfl | rfl := hspecial
    all_goals exact absurd h (by decide)

theorem isXmlChar_of_isFixedChar
    {c : Char} (h : isFixedChar c = true) :
    isXmlChar c = true := by
  simp only [isFixedChar, Bool.or_eq_true, beq_iff_eq] at h
  obtain ((((((halphanum | rfl) | rfl) | rfl) | rfl) | rfl) | rfl) | rfl := h
  · exact Text.isXmlChar_of_isAlphanum halphanum
  all_goals decide

/-- There is nothing to escape. -/
theorem IsFixedText.escapeMarkup_eq_self
    {text : String} (h : IsFixedText text) :
    Text.escapeMarkup text = text := by
  have hplain : ∀ c ∈ (text : Text).toList, isPlain c = true :=
    Text.forall_mem_scalars.mpr fun c hc => isPlain_of_isFixedChar (h c hc)
  rw [Text.escapeMarkup, Text.Markup.escapeMarkupChars_eq_self hplain]

theorem IsFixedText.nonXml_eq_nil
    {text : String} (h : IsFixedText text) :
    nonXml text = [] :=
  Text.nonXml_eq_nil_iff.mpr
    (Text.forall_mem_scalars.mpr fun c hc => isXmlChar_of_isFixedChar (h c hc))

@[simp]
theorem isFixedText_append
    (a b : String) :
    IsFixedText (a ++ b) ↔ IsFixedText a ∧ IsFixedText b := by
  simp only [IsFixedText, String.toList_append, List.forall_mem_append]

/-! ## Numbers -/

theorem isFixedChar_toDigits
    (n : Nat) :
    ∀ c ∈ Nat.toDigits 10 n, isFixedChar c = true :=
  Source.Numeral.forall_mem_toDigits (by decide) (by decide) n

theorem isFixedText_ofList
    {cs : List Char} (h : cs.all isFixedChar = true) :
    IsFixedText (String.ofList cs) := by
  intro c hc
  rw [String.toList_ofList] at hc
  exact List.all_eq_true.mp h c hc

theorem isFixedText_nat
    (n : Nat) :
    IsFixedText (toString n) := by
  intro c hc
  exact isFixedChar_toDigits n c (by simpa using hc)

theorem isFixedText_int
    (n : Int) :
    IsFixedText (toString n) := by
  cases n with
  | ofNat n => exact isFixedText_nat n
  | negSucc n =>
    exact (isFixedText_append "-" _).mpr ⟨isFixedText_ofList (by decide), isFixedText_nat (n + 1)⟩

theorem forall_mem_positional
    {P : Char → Prop} (hzero : P '0') (hpoint : P '.') {digits : List Char}
    (hdigits : ∀ c ∈ digits, P c) (point : Int) :
    ∀ c ∈ Number.positional digits point, P c := by
  have hzeros : ∀ n, ∀ c ∈ List.replicate n '0', P c := fun _ c hc =>
    List.eq_of_mem_replicate hc ▸ hzero
  unfold Number.positional
  simp only
  split_ifs
  · simp only [List.cons_append, List.forall_mem_cons, List.forall_mem_append]
    exact ⟨hzero, hpoint, hzeros _, hdigits⟩
  · simp only [List.forall_mem_cons, List.forall_mem_append]
    exact ⟨⟨hdigits, hzeros _⟩, hpoint, hzero, by simp⟩
  · simp only [List.forall_mem_cons, List.forall_mem_append]
    exact ⟨fun c hc => hdigits c (List.mem_of_mem_take hc), hpoint,
      fun c hc => hdigits c (List.mem_of_mem_drop hc)⟩

theorem forall_mem_scientific
    {P : Char → Prop} (hpoint : P '.') (hletter : P 'e') (hplus : P '+') (hminus : P '-')
    (hdigit : ∀ n, ∀ c ∈ Nat.toDigits 10 n, P c) {digits : List Char}
    (hdigits : ∀ c ∈ digits, P c) (power : Int) :
    ∀ c ∈ Number.scientific digits power, P c := by
  have hzero : P '0' := hdigit 0 '0' (by decide)
  have hzeros : ∀ n, ∀ c ∈ List.replicate n '0', P c := fun _ c hc =>
    List.eq_of_mem_replicate hc ▸ hzero
  have hsign : P (if power < 0 then '-' else '+') := by
    split
    · exact hminus
    · exact hplus
  unfold Number.scientific
  simp only [List.forall_mem_cons, List.forall_mem_append]
  refine ⟨?_, hletter, hsign, hzeros _, hdigit _⟩
  split
  · simp
  · exact hdigits
  · rename_i d more _
    obtain ⟨hd, hmore⟩ := List.forall_mem_cons.mp hdigits
    simp only [List.forall_mem_cons]
    exact ⟨hd, hpoint, hmore⟩

/-- The digits, the point and the exponent of a positive double. -/
theorem isFixedChar_positiveText
    (x : Binary64) :
    ∀ c ∈ Number.positiveText x, isFixedChar c = true := by
  have hdigits : ∀ c ∈ Number.stripZeros (Nat.toDigits 10 (Number.shortest x).units),
      isFixedChar c = true := by
    intro c hc
    rw [Number.stripZeros, List.mem_reverse] at hc
    exact isFixedChar_toDigits _ c (List.mem_reverse.mp ((List.dropWhile_sublist _).subset hc))
  unfold Number.positiveText
  simp only
  split
  · exact forall_mem_positional (P := (isFixedChar · = true)) rfl rfl hdigits _
  · exact forall_mem_scientific (P := (isFixedChar · = true)) rfl rfl rfl rfl isFixedChar_toDigits hdigits _

theorem isFixedText_double
    (x : Binary64) :
    IsFixedText x.text := by
  have hmagnitude : ∀ c ∈ (if (!x.isFinite) = true then ['i', 'n', 'f']
      else if x.isZero = true then ['0', '.', '0'] else Number.positiveText x),
      isFixedChar c = true := by
    split_ifs
    · exact List.all_eq_true.mp rfl
    · exact List.all_eq_true.mp rfl
    · exact isFixedChar_positiveText x
  unfold Binary64.text
  split
  · exact isFixedText_ofList (by decide)
  · refine isFixedText_ofList (List.all_eq_true.mpr ?_)
    split
    · exact List.forall_mem_cons.mpr ⟨rfl, hmagnitude⟩
    · exact hmagnitude

theorem isFixedText_text
    (a : Measure) :
    IsFixedText a.text ∧ IsFixedText a.plainText := by
  cases a with
  | whole n => exact ⟨isFixedText_int n, isFixedText_int n⟩
  | binary x =>
    refine ⟨isFixedText_double x, ?_⟩
    rw [Measure.plainText]
    split
    · exact isFixedText_int _
    · exact isFixedText_double x

/-! ## Styles -/

theorem isFixedText_containerStyle :
    IsFixedText containerStyle := by
  unfold containerStyle
  simp only [isFixedText_append, isFixedText_nat]
  and_intros
  any_goals exact isFixedText_ofList (by decide)
  trivial

theorem isFixedText_rowStyle
    (isPrimary : Bool) :
    IsFixedText (rowStyle isPrimary) := by
  unfold rowStyle
  simp only [isFixedText_append]
  cases isPrimary
  all_goals
    and_intros
    all_goals exact isFixedText_ofList (by decide)

theorem isFixedText_arrows
    (text : String) :
    IsFixedText (startArrow text) ∧ IsFixedText (endArrow text) := by
  constructor
  · unfold startArrow
    split_ifs
    all_goals exact isFixedText_ofList (by decide)
  · unfold endArrow
    split_ifs
    all_goals exact isFixedText_ofList (by decide)

theorem isFixedText_edgeStyle
    (cardinality : Cardinality) :
    IsFixedText (edgeStyle cardinality) := by
  unfold edgeStyle
  simp only [isFixedText_append, isFixedText_arrows]
  and_intros
  any_goals exact isFixedText_ofList (by decide)
  all_goals trivial

/-! ## Points in time -/

theorem isFixedText_moment
    (moment : CommandLine.Moment) :
    IsFixedText moment.text := by
  have hpadded : ∀ width n, IsFixedText (CommandLine.padded width n) := by
    intro width n c hc
    rw [CommandLine.padded, String.toList_ofList, List.mem_append] at hc
    obtain hzero | hdigit := hc
    · rw [List.eq_of_mem_replicate hzero]
      rfl
    · exact isFixedChar_toDigits n c hdigit
  have hfraction : IsFixedText moment.fractionText := by
    unfold CommandLine.Moment.fractionText
    simp only
    split
    · exact isFixedText_ofList (by decide)
    · exact (isFixedText_append "." _).mpr ⟨isFixedText_ofList (by decide), hpadded 6 _⟩
  unfold CommandLine.Moment.text CommandLine.Date.text
  simp only [isFixedText_append, hpadded, hfraction]
  and_intros
  any_goals exact isFixedText_ofList (by decide)
  all_goals trivial

end EntityDiagram.Render.Drawio
