import Mathlib.Data.List.TakeWhile
import EntityDiagram.Proofs.Source.Concatenation

/-!
# Names

What a name consists of, and what follows for its characters. The classes of characters are tables,
so that two classes have no character in common is a fact about two tables. It is checked by going
through both at once.
-/

namespace EntityDiagram.Text

/-! ## Classes without common characters -/

/-- Whether no range of the one table meets a range of the other, where so many steps show it. Of the
two first ranges the lower one is left behind. -/
def CodeRanges.apartWithin : Nat → CodeRanges → CodeRanges → Bool
  | 0, _, _ => false
  | _ + 1, [], _ => true
  | _ + 1, _, [] => true
  | steps + 1, (low, high) :: rest, (low', high') :: rest' =>
    if high < low' then apartWithin steps rest ((low', high') :: rest')
    else if high' < low then apartWithin steps ((low, high) :: rest) rest'
    else false

/-- Whether no range of the one table meets a range of the other. -/
def CodeRanges.apart (ranges ranges' : CodeRanges) : Bool :=
  apartWithin (ranges.length + ranges'.length) ranges ranges'

theorem CodeRanges.contains_cons_iff
    {low high n : Nat} {rest : CodeRanges} :
    CodeRanges.contains ((low, high) :: rest) n = true ↔
      low ≤ n ∧ (n ≤ high ∨ rest.contains n = true) := by
  simp [CodeRanges.contains]

theorem CodeRanges.not_contains_of_apartWithin
    {steps : Nat} {ranges ranges' : CodeRanges} (h : apartWithin steps ranges ranges' = true)
    {n : Nat} (hn : ranges.contains n = true) :
    ¬ranges'.contains n = true := by
  fun_induction apartWithin steps ranges ranges' with
  | case1 => cases h
  | case2 => cases hn
  | case3 => exact Bool.false_ne_true
  | case4 steps low high rest low' high' rest' hbelow ih =>
    intro hn'
    obtain ⟨-, hhigh | hrest⟩ := contains_cons_iff.mp hn
    · have := (contains_cons_iff.mp hn').1
      omega
    · exact ih h hrest hn'
  | case5 steps low high rest low' high' rest' _ hbelow ih =>
    intro hn'
    obtain ⟨-, hhigh | hrest⟩ := contains_cons_iff.mp hn'
    · have := (contains_cons_iff.mp hn).1
      omega
    · exact ih h hn hrest
  | case6 => cases h

theorem CodeRanges.has_eq_false
    {ranges ranges' : CodeRanges} (h : ranges.apart ranges' = true) {c : Char}
    (hc : ranges.has c = true) :
    ranges'.has c = false := by
  rw [← Bool.not_eq_true]
  exact not_contains_of_apartWithin h hc

theorem isLetter_of_isBlank
    {c : Char} (h : isBlank c = true) :
    isLetter c = false :=
  CodeRanges.has_eq_false (by decide +kernel) h

theorem isLetter_of_isDigit
    {c : Char} (h : isDigit c = true) :
    isLetter c = false := by
  obtain hdecimal | hother := Bool.or_eq_true_iff.mp h
  · exact CodeRanges.has_eq_false (by decide +kernel) hdecimal
  · exact CodeRanges.has_eq_false (by decide +kernel) hother

theorem isBlank_of_isDigit
    {c : Char} (h : isDigit c = true) :
    isBlank c = false := by
  obtain hdecimal | hother := Bool.or_eq_true_iff.mp h
  · exact CodeRanges.has_eq_false (by decide +kernel) hdecimal
  · exact CodeRanges.has_eq_false (by decide +kernel) hother

theorem isAlphanumeric_of_isBlank
    {c : Char} (h : isBlank c = true) :
    isAlphanumeric c = false := by
  have hdecimal : isDecimal c = false := CodeRanges.has_eq_false (by decide +kernel) h
  have hdigit : otherDigitRanges.has c = false := CodeRanges.has_eq_false (by decide +kernel) h
  have hnumeral : otherNumeralRanges.has c = false := CodeRanges.has_eq_false (by decide +kernel) h
  rw [isAlphanumeric, isLetter_of_isBlank h, isDigit, hdecimal, hdigit, hnumeral]
  rfl

/-- The plain letters and digits lie between the digit zero and the letter z. -/
theorem toNat_of_isAlphanum
    {c : Char} (h : c.isAlphanum = true) :
    48 ≤ c.toNat ∧ c.toNat ≤ 122 := by
  delta Char.isAlphanum Char.isAlpha Char.isUpper Char.isLower Char.isDigit at h
  simp only [Bool.or_eq_true, Bool.and_eq_true, decide_eq_true_eq, UInt32.le_iff_toNat_le,
    ge_iff_le, Char.toNat_val, Char.reduceToNat] at h
  omega

theorem isBlank_of_isAlphanum
    {c : Char} (h : c.isAlphanum = true) :
    isBlank c = false := by
  obtain ⟨hlow, hhigh⟩ := toNat_of_isAlphanum h
  rw [← Bool.not_eq_true]
  intro hblank
  simp only [isBlank, CodeRanges.has, CodeRanges.contains, blankRanges, Bool.and_eq_true,
    Bool.or_eq_true, decide_eq_true_eq, Bool.false_eq_true] at hblank
  omega

end EntityDiagram.Text

namespace EntityDiagram.Source

/-! ## Runs of characters -/

/-- Characters of a class are taken up to a character that is not in it. -/
theorem takeWhile_append_of_stop
    {α : Type} {p : α → Bool} {front behind : List α} (hfront : ∀ c ∈ front, p c = true)
    (hbehind : ∀ c ∈ behind.head?, p c = false) :
    (front ++ behind).takeWhile p = front := by
  rw [List.takeWhile_append_of_pos hfront]
  cases behind with
  | nil => rw [List.takeWhile_nil, List.append_nil]
  | cons c behind => rw [List.takeWhile_cons_of_neg (by simp [hbehind c rfl]), List.append_nil]

/-- What is taken ends where the others start. -/
theorem dropWhile_append_of_stop
    {α : Type} {p : α → Bool} {front behind : List α} (hfront : ∀ c ∈ front, p c = true)
    (hbehind : ∀ c ∈ behind.head?, p c = false) :
    (front ++ behind).dropWhile p = behind := by
  rw [List.dropWhile_append_of_pos hfront]
  cases behind with
  | nil => rfl
  | cons c behind => rw [List.dropWhile_cons_of_neg (by simp [hbehind c rfl])]

/-! ## The characters of names -/

/-- A character that may start a name, and others that may continue one. -/
inductive IsName : List Char → Prop
  | mk {c : Char} {rest : List Char} (hstart : isNameStart c = true)
      (hrest : ∀ d ∈ rest, isNamePart d = true) :
    IsName (c :: rest)

instance (cs : List Char) : Decidable (IsName cs) :=
  match cs with
  | [] => isFalse nofun
  | c :: rest =>
    decidable_of_iff (isNameStart c = true ∧ rest.all isNamePart = true)
      ⟨fun h => .mk h.1 (List.all_eq_true.mp h.2),
        fun | .mk hstart hrest => ⟨hstart, List.all_eq_true.mpr hrest⟩⟩

theorem isNamePart_of_isNameStart
    {c : Char} (h : isNameStart c = true) :
    isNamePart c = true := by
  simp only [isNameStart, Bool.or_eq_true] at h
  simp only [isNamePart, Text.isAlphanumeric, Bool.or_eq_true]
  tauto

theorem IsName.isNamePart
    {cs : List Char} (h : IsName cs) :
    ∀ c ∈ cs, Source.isNamePart c = true := by
  obtain ⟨hstart, hrest⟩ := h
  exact List.forall_mem_cons.mpr ⟨isNamePart_of_isNameStart hstart, hrest⟩

theorem IsName.exists_cons
    {cs : List Char} (h : IsName cs) :
    ∃ c rest, cs = c :: rest ∧ isNameStart c = true ∧
      ∀ d ∈ rest, Source.isNamePart d = true := by
  obtain ⟨hstart, hrest⟩ := h
  exact ⟨_, _, rfl, hstart, hrest⟩

theorem IsName.ne_nil
    {cs : List Char} (h : IsName cs) :
    cs ≠ [] := by
  cases h
  exact List.cons_ne_nil _ _

/-- No character that cannot be part of a name occurs in one. -/
theorem IsName.notMem
    {cs : List Char} (h : IsName cs) {c : Char} (hc : Source.isNamePart c = false) :
    c ∉ cs := by
  intro hmem
  rw [h.isNamePart c hmem] at hc
  cases hc

theorem isNamePart_of_isBlank
    {c : Char} (h : Text.isBlank c = true) :
    isNamePart c = false := by
  have hunderscore : c ≠ '_' := by
    rintro rfl
    exact absurd h (by decide)
  have hdollar : c ≠ '$' := by
    rintro rfl
    exact absurd h (by decide)
  simp [isNamePart, Text.isAlphanumeric_of_isBlank h, hunderscore, hdollar]

theorem isNameStart_of_isDigit
    {c : Char} (h : Text.isDigit c = true) :
    isNameStart c = false := by
  have hunderscore : c ≠ '_' := by
    rintro rfl
    exact absurd h (by decide +kernel)
  have hdollar : c ≠ '$' := by
    rintro rfl
    exact absurd h (by decide +kernel)
  simp [isNameStart, Text.isLetter_of_isDigit h, hunderscore, hdollar]

/-- A numeral starts with a character that starts no name, no gap and no regular expression. -/
theorem first_of_startsNumeral
    {c : Char} {rest : List Char} (h : startsNumeral c rest = true) :
    isNameStart c = false ∧ Text.isBlank c = false ∧ c ≠ '/' := by
  rw [startsNumeral, Bool.or_eq_true, Bool.and_eq_true, beq_iff_eq] at h
  rcases h with hdigit | ⟨rfl, -⟩
  · refine ⟨isNameStart_of_isDigit hdigit, Text.isBlank_of_isDigit hdigit, ?_⟩
    rintro rfl
    exact absurd hdigit (by decide +kernel)
  · exact ⟨by decide +kernel, by decide, by decide⟩

/-! ## The names of a text -/

/-- The names among the tokens are names. -/
def HasNames (tokens : List Token) : Prop :=
  ∀ token ∈ tokens, ∀ name, token.lexeme = .ident name → IsName name.toList

theorem HasNames.of_suffix
    {tokens rest : List Token} (h : HasNames tokens) (hsuffix : rest <:+ tokens) :
    HasNames rest :=
  fun token hmem => h token (hsuffix.mem hmem)

/-- Only where a name may start is one read. -/
theorem isName_of_readLexeme
    {previous : Option Lexeme} {start : Position} {c : Char} {rest : List Char} {span : LexemeSpan}
    (h : readLexeme previous start c rest = .ok span) {name : String}
    (hname : span.lexeme = .ident name) :
    IsName name.toList := by
  by_cases hstart : isNameStart c = true
  · rw [readLexeme, if_pos hstart] at h
    obtain rfl := Except.ok.inj h
    obtain rfl := Lexeme.ident.inj hname
    rw [String.toList_ofList]
    exact .mk hstart fun d hd => List.mem_takeWhile_imp hd
  · rw [readLexeme, if_neg hstart] at h
    repeat' split at h
    all_goals cases h
    all_goals cases hname

theorem readTokens_hasNames
    {previous : Option Lexeme} {position : Position} {cs : List Char} {stream : TokenStream}
    (h : readTokens previous position cs = .ok stream) :
    HasNames stream.tokens := by
  fun_induction readTokens previous position cs generalizing stream with
  | case1 => cases h
  | case2 =>
    obtain rfl := Except.ok.inj h
    exact List.forall_mem_nil _
  | case3 => cases h
  | case4 => cases h
  | case5 previous position cs lead c rest hgap span hlexeme more hmore token =>
    rename_i ih
    obtain rfl := Except.ok.inj h
    exact List.forall_mem_cons.mpr ⟨fun _ => isName_of_readLexeme hlexeme, ih hmore⟩

theorem TokenStream.hasNames_of_ofText
    {text : String} {stream : TokenStream} (h : ofText text = .ok stream) :
    HasNames stream.tokens :=
  readTokens_hasNames h

end EntityDiagram.Source
