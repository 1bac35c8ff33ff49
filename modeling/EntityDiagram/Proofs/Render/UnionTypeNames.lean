import EntityDiagram.Proofs.Render.AttributeWords
import EntityDiagram.Proofs.Text.Lines

/-!
# Names of unions in Mermaid text

A type's name is reduced to the admitted characters in passes over the whole text, and the passes work
on runs: a bar takes in the white space around it, and a run of commas and white space becomes one
hyphen. Where no white space adjoins the seam between two names, no run goes on across it, since the
word that the bar becomes has hyphens at its ends and a hyphen is in no run. So the name of a union is
reduced member by member.

A reduced name has nothing left for any pass to work on.
-/

namespace EntityDiagram.Render.Mermaid

open Declaration (TypeExpr)
open Model (AttributeType)
open Text (IsTrimmed isBlank)

/-! ## Bars -/

/-- What stands between the names of a union's members. -/
def barBetween : List Character :=
  [' ', '|', ' ']

section Bars

variable {c : Character} (held rest : List Character)

theorem barsFrom_bar :
    barsFrom held (.scalar '|' :: rest) = barText ++ barsFrom.afterBar rest := by
  rw [barsFrom, if_pos rfl]

theorem barsFrom_blank
    (hblank : c.isIn isBlank = true) :
    barsFrom held (c :: rest) = barsFrom (held ++ [c]) rest := by
  have hbar : c ≠ .scalar '|' := by
    rintro rfl
    exact absurd hblank (by decide)
  rw [barsFrom, if_neg hbar, if_pos hblank]

theorem barsFrom_solid
    (hbar : c ≠ .scalar '|') (hblank : c.isIn isBlank = false) :
    barsFrom held (c :: rest) = held ++ c :: barsFrom [] rest := by
  rw [barsFrom, if_neg hbar, if_neg (by simp [hblank])]

theorem afterBar_bar :
    barsFrom.afterBar (.scalar '|' :: rest) = barText ++ barsFrom.afterBar rest := by
  rw [barsFrom.afterBar, if_neg (by decide), if_pos rfl]

theorem afterBar_blank
    (hblank : c.isIn isBlank = true) :
    barsFrom.afterBar (c :: rest) = barsFrom.afterBar rest := by
  rw [barsFrom.afterBar, if_pos hblank]

theorem afterBar_solid
    (hbar : c ≠ .scalar '|') (hblank : c.isIn isBlank = false) :
    barsFrom.afterBar (c :: rest) = c :: barsFrom [] rest := by
  rw [barsFrom.afterBar, if_neg (by simp [hblank]), if_neg hbar]

end Bars

/-- Behind a bar a text without white space at its start is read as at its own start. -/
theorem afterBar_eq_replaceBars
    {cs : List Character} (h : ∀ c ∈ cs.head?, c.isIn isBlank = false) :
    barsFrom.afterBar cs = replaceBars cs := by
  cases cs with
  | nil => rfl
  | cons c rest =>
    have hblank : c.isIn isBlank = false := h c rfl
    by_cases hbar : c = .scalar '|'
    · rw [hbar, afterBar_bar, replaceBars, barsFrom_bar]
    · rw [afterBar_solid rest hbar hblank, replaceBars, barsFrom_solid [] rest hbar hblank,
        List.nil_append]

/-- The end of a text ends no otherwise than the text. -/
theorem last_of_append
    {front rest : List Character} (h : ∀ c ∈ (front ++ rest).getLast?, c.isIn isBlank = false) :
    ∀ c ∈ rest.getLast?, c.isIn isBlank = false := by
  intro c hc
  apply h
  rw [List.getLast?_append, Option.mem_def.mp hc]
  rfl

mutual

/-- A bar with a blank in front takes in nothing else of a text that does not end in white space. -/
theorem barsFrom_append_bar
    (b : List Character) :
    (held a : List Character) → (∀ c ∈ held, c.isIn isBlank = true) →
    (∀ c ∈ (held ++ a).getLast?, c.isIn isBlank = false) →
    barsFrom held (a ++ .scalar ' ' :: .scalar '|' :: b) =
      barsFrom held a ++ barText ++ barsFrom.afterBar b
  | held, [], hheld, hlast => by
    have hnil : held = [] := by
      rw [List.append_nil] at hlast
      cases hend : held.getLast? with
      | none => exact List.getLast?_eq_none_iff.mp hend
      | some c => exact absurd (hheld c (List.mem_of_getLast? hend)) (by simp [hlast c hend])
    rw [hnil, List.nil_append, barsFrom_blank _ _ (by decide), barsFrom_bar]
    rfl
  | held, c :: rest, hheld, hlast => by
    have hrest : ∀ d ∈ rest.getLast?, d.isIn isBlank = false := by
      rw [List.append_cons] at hlast
      exact last_of_append hlast
    by_cases hbar : c = .scalar '|'
    · rw [hbar, List.cons_append, barsFrom_bar, barsFrom_bar, afterBar_append_bar b rest hrest]
      simp only [List.append_assoc]
    · cases hblank : c.isIn isBlank with
      | true =>
        have hheld' : ∀ d ∈ held ++ [c], d.isIn isBlank = true := by
          simpa [or_imp, forall_and, hblank] using hheld
        rw [List.cons_append, barsFrom_blank _ _ hblank, barsFrom_blank _ _ hblank]
        exact barsFrom_append_bar b (held ++ [c]) rest hheld' (List.append_cons .. ▸ hlast)
      | false =>
        rw [List.cons_append, barsFrom_solid _ _ hbar hblank, barsFrom_solid _ _ hbar hblank,
          barsFrom_append_bar b [] rest (by simp) hrest]
        simp only [List.append_assoc, List.cons_append]

/-- The same for a text behind another bar. -/
theorem afterBar_append_bar
    (b : List Character) :
    (a : List Character) → (∀ c ∈ a.getLast?, c.isIn isBlank = false) →
    barsFrom.afterBar (a ++ .scalar ' ' :: .scalar '|' :: b) =
      barsFrom.afterBar a ++ barText ++ barsFrom.afterBar b
  | [], _ => by
    rw [List.nil_append, afterBar_blank _ (by decide), afterBar_bar]
    rfl
  | c :: rest, hlast => by
    have hrest : ∀ d ∈ rest.getLast?, d.isIn isBlank = false := by
      rw [← List.singleton_append] at hlast
      exact last_of_append hlast
    by_cases hbar : c = .scalar '|'
    · rw [hbar, List.cons_append, afterBar_bar, afterBar_bar, afterBar_append_bar b rest hrest]
      simp only [List.append_assoc]
    · cases hblank : c.isIn isBlank with
      | true =>
        rw [List.cons_append, afterBar_blank _ hblank, afterBar_blank _ hblank]
        exact afterBar_append_bar b rest hrest
      | false =>
        rw [List.cons_append, afterBar_solid _ hbar hblank, afterBar_solid _ hbar hblank,
          barsFrom_append_bar b [] rest (by simp) hrest]
        simp only [List.append_assoc, List.cons_append]

end

/-- The bar between two texts becomes a word between the texts with their own bars replaced. -/
theorem replaceBars_join
    {a b : List Character} (ha : ∀ c ∈ a.getLast?, c.isIn isBlank = false)
    (hb : ∀ c ∈ b.head?, c.isIn isBlank = false) :
    replaceBars (a ++ barBetween ++ b) = replaceBars a ++ barText ++ replaceBars b := by
  have hseam : a ++ barBetween ++ b = a ++ .scalar ' ' :: .scalar '|' :: .scalar ' ' :: b :=
    List.append_assoc ..
  rw [hseam, replaceBars, barsFrom_append_bar _ [] a (by simp) ha, afterBar_blank _ (by decide),
    afterBar_eq_replaceBars hb]
  rfl

/-- The names of a union's members with bars between them. -/
theorem intercalate_bar_cons_cons
    (first second : List Character) (more : List (List Character)) :
    barBetween.intercalate (first :: second :: more) =
      first ++ .scalar ' ' :: .scalar '|' :: .scalar ' ' ::
        barBetween.intercalate (second :: more) := by
  rw [List.intercalate_cons_cons, List.append_assoc]
  rfl

/-- The bars between any number of texts become words. The texts may be empty, so what is behind a bar
may start with the blank in front of the next one. -/
theorem afterBar_intercalate
    {names : List (List Character)} (h : ∀ name ∈ names, IsTrimmed name) :
    barsFrom.afterBar (barBetween.intercalate names) =
      barText.intercalate (names.map replaceBars) := by
  induction names with
  | nil => rfl
  | cons first rest ih =>
    obtain ⟨hfirst, hrest⟩ := List.forall_mem_cons.mp h
    have hfront : barsFrom.afterBar first = replaceBars first := afterBar_eq_replaceBars hfirst.head
    cases rest with
    | nil => simpa using hfront
    | cons second more =>
      rw [intercalate_bar_cons_cons, afterBar_append_bar _ first hfirst.last,
        afterBar_blank _ (by decide), ih hrest, hfront]
      exact (List.intercalate_cons_cons ..).symm

theorem replaceBars_intercalate
    {names : List (List Character)} (h : ∀ name ∈ names, IsTrimmed name) :
    replaceBars (barBetween.intercalate names) =
      barText.intercalate (names.map replaceBars) := by
  match names with
  | [] => rfl
  | [single] => simp
  | first :: second :: more =>
    obtain ⟨hfirst, hrest⟩ := List.forall_mem_cons.mp h
    rw [intercalate_bar_cons_cons, replaceBars, barsFrom_append_bar _ [] first (by simp) hfirst.last,
      afterBar_blank _ (by decide), afterBar_intercalate hrest]
    exact (List.intercalate_cons_cons ..).symm

/-! ## The later passes -/

/-- What the passes behind the first make of a text. -/
def reduceRuns (cs : List Character) : List Character :=
  (hyphenate (cs.filter fun c => c != .scalar '<' && c != .scalar '>')).filter isTypeChar

theorem sanitizeTypeChars_eq
    (cs : List Character) :
    sanitizeTypeChars cs = reduceRuns (replaceBars cs) :=
  rfl

theorem hyphenateFrom_solid
    {c : Character} (hc : isSeparator c = false) (inRun : Bool) (rest : List Character) :
    hyphenateFrom inRun (c :: rest) = c :: hyphenateFrom false rest := by
  rw [hyphenateFrom, if_neg (by simp [hc])]

/-- No run of separators goes on across a character that is none. -/
theorem hyphenateFrom_append_cons
    {c : Character} (hc : isSeparator c = false) (inRun : Bool) (a b : List Character) :
    hyphenateFrom inRun (a ++ c :: b) = hyphenateFrom inRun a ++ c :: hyphenateFrom false b := by
  induction a generalizing inRun with
  | nil => exact hyphenateFrom_solid hc inRun b
  | cons d rest ih =>
    rw [List.cons_append, hyphenateFrom, hyphenateFrom, ih, ih]
    split
    · split <;> rfl
    · rfl

theorem hyphenate_append_or
    (a b : List Character) :
    hyphenate (a ++ barText ++ b) = hyphenate a ++ barText ++ hyphenate b := by
  have hword : a ++ barText ++ b = a ++ .scalar '-' ::
      ([] ++ .scalar 'o' :: ([] ++ .scalar 'r' :: ([] ++ .scalar '-' :: b))) :=
    List.append_assoc ..
  have hnone : isSeparator (.scalar '-') = false ∧ isSeparator (.scalar 'o') = false ∧
      isSeparator (.scalar 'r') = false := by
    decide
  rw [hword, hyphenate, hyphenateFrom_append_cons hnone.1, hyphenateFrom_append_cons hnone.2.1,
    hyphenateFrom_append_cons hnone.2.2, hyphenateFrom_append_cons hnone.1, List.append_assoc]
  rfl

theorem reduceRuns_append_or
    (a b : List Character) :
    reduceRuns (a ++ barText ++ b) = reduceRuns a ++ barText ++ reduceRuns b := by
  have hword : barText.filter (fun c => c != .scalar '<' && c != .scalar '>') = barText ∧
      barText.filter isTypeChar = barText := by decide
  simp only [reduceRuns, List.filter_append, hword, hyphenate_append_or]

theorem reduceRuns_intercalate
    (texts : List (List Character)) :
    reduceRuns (barText.intercalate texts) =
      barText.intercalate (texts.map reduceRuns) := by
  induction texts with
  | nil => rfl
  | cons first rest ih =>
    cases rest with
    | nil => simp
    | cons second more =>
      rw [List.intercalate_cons_cons, reduceRuns_append_or, ih]
      exact (List.intercalate_cons_cons ..).symm

/-! ## Reduced names -/

/-- An admitted character is none that a pass works on. -/
theorem of_isTypeChar
    {c : Character} (h : isTypeChar c = true) :
    c ≠ .scalar '|' ∧ c ≠ .scalar '<' ∧ c ≠ .scalar '>' ∧ c.isIn isBlank = false ∧
      isSeparator c = false := by
  simp only [isTypeChar, Bool.or_eq_true, beq_iff_eq] at h
  obtain (((hplain | rfl) | rfl) | rfl) | rfl := h
  · have hne : ∀ d, isPlain d = false → c ≠ d := fun d hd => ne_of_isPlain hplain hd
    exact ⟨hne _ (by decide), hne _ (by decide), hne _ (by decide), isBlank_of_isPlain hplain,
      isSeparator_of_isPlain hplain⟩
  all_goals decide

theorem replaceBars_eq_self
    {cs : List Character} (h : ∀ c ∈ cs, isTypeChar c = true) :
    replaceBars cs = cs := by
  induction cs with
  | nil => rfl
  | cons c rest ih =>
    obtain ⟨hc, hrest⟩ := List.forall_mem_cons.mp h
    obtain ⟨hbar, -, -, hblank, -⟩ := of_isTypeChar hc
    rw [replaceBars, barsFrom_solid [] rest hbar hblank, ← replaceBars, ih hrest, List.nil_append]

theorem hyphenate_eq_self
    {cs : List Character} (h : ∀ c ∈ cs, isTypeChar c = true) :
    hyphenate cs = cs := by
  induction cs with
  | nil => rfl
  | cons c rest ih =>
    obtain ⟨hc, hrest⟩ := List.forall_mem_cons.mp h
    obtain ⟨-, -, -, -, hseparator⟩ := of_isTypeChar hc
    rw [hyphenate, hyphenateFrom_solid hseparator, ← hyphenate, ih hrest]

/-- Admitted characters all stay. -/
theorem sanitizeTypeChars_eq_self
    {cs : List Character} (h : ∀ c ∈ cs, isTypeChar c = true) :
    sanitizeTypeChars cs = cs := by
  have hangle : cs.filter (fun c => c != .scalar '<' && c != .scalar '>') = cs := by
    rw [List.filter_eq_self]
    intro c hc
    obtain ⟨-, hopen, hclose, -, -⟩ := of_isTypeChar (h c hc)
    rw [bne_iff_ne.mpr hopen, bne_iff_ne.mpr hclose, Bool.and_self]
  rw [sanitizeTypeChars_eq, replaceBars_eq_self h, reduceRuns, hangle, hyphenate_eq_self h,
    List.filter_eq_self]
  exact h

theorem isTypeChar_of_mem_sanitizeTypeChars
    {c : Character} {cs : List Character} (h : c ∈ sanitizeTypeChars cs) :
    isTypeChar c = true :=
  (List.mem_filter.mp h).2

/-! ## Unions -/

theorem sanitizeTypeName_join
    {a b : Text} (ha : ∀ c ∈ a.toList.getLast?, c.isIn isBlank = false)
    (hb : ∀ c ∈ b.toList.head?, c.isIn isBlank = false) :
    sanitizeTypeName (a ++ " | " ++ b) = sanitizeTypeName a ++ "-or-" ++ sanitizeTypeName b := by
  have hchars : reduceRuns (replaceBars (a.toList ++ barBetween ++ b.toList)) =
      reduceRuns (replaceBars a.toList) ++ barText ++ reduceRuns (replaceBars b.toList) := by
    rw [replaceBars_join ha hb, reduceRuns_append_or]
  exact Text.toList_inj.mp hchars

theorem sanitizeTypeName_intercalate
    {names : List Text} (h : ∀ name ∈ names, IsTrimmed name.toList) :
    sanitizeTypeName (Text.intercalate " | " names) =
      Text.intercalate "-or-" (names.map sanitizeTypeName) := by
  have htrimmed : ∀ name ∈ names.map Text.toList, IsTrimmed name := List.forall_mem_map.mpr h
  have hchars : reduceRuns (replaceBars (barBetween.intercalate (names.map Text.toList))) =
      barText.intercalate ((names.map sanitizeTypeName).map Text.toList) := by
    rw [replaceBars_intercalate htrimmed, reduceRuns_intercalate]
    simp only [List.map_map]
    rfl
  exact Text.toList_inj.mp hchars

/-- The text of a type that has a name and nothing else to show. -/
theorem typeText_of_name
    {type : AttributeType} (harguments : type.arguments = none) (harray : type.isArray = false) :
    typeText type = sanitizeTypeName type.name := by
  obtain ⟨name, isArray, _, _, _, _, arguments, _, _⟩ := type
  obtain rfl : arguments = none := harguments
  obtain rfl : isArray = false := harray
  simp [typeText, argumentsText]

/-- Reducing a name goes through a bar between two texts if no white space adjoins the bar's own; the
reduced name has admitted characters only and is not reduced further; and so a union that keeps its
members is shown as the reduced names of the members with a word between them. -/
theorem sanitizeTypeName_laws :
    (∀ a b : Text, (∀ c ∈ a.toList.getLast?, c.isIn isBlank = false) →
      (∀ c ∈ b.toList.head?, c.isIn isBlank = false) →
      sanitizeTypeName (a ++ " | " ++ b) = sanitizeTypeName a ++ "-or-" ++ sanitizeTypeName b) ∧
    (∀ name : Text, (∀ c ∈ (sanitizeTypeName name).toList, isTypeChar c = true) ∧
      sanitizeTypeName (sanitizeTypeName name) = sanitizeTypeName name) ∧
    ∀ members : List TypeExpr,
      (AttributeType.solid (AttributeType.resolveAll members)).length ≠ 1 →
      (∀ member ∈ members, IsTrimmed (AttributeType.resolve member).name.toList) →
      typeText (AttributeType.resolve (.union members)) =
        Text.intercalate "-or-" (members.map fun member =>
          sanitizeTypeName (AttributeType.resolve member).name) := by
  refine ⟨fun a b ha hb => sanitizeTypeName_join ha hb, fun name => ?_, ?_⟩
  · have hadmitted : ∀ c ∈ (sanitizeTypeName name).toList, isTypeChar c = true := by
      intro c hc
      rw [sanitizeTypeName] at hc
      exact isTypeChar_of_mem_sanitizeTypeChars hc
    refine ⟨hadmitted, ?_⟩
    rw [sanitizeTypeName, sanitizeTypeChars_eq_self hadmitted]
  · intro members hseveral htrimmed
    have hnames : ∀ name ∈ members.map (fun member => (AttributeType.resolve member).name),
        IsTrimmed name.toList := List.forall_mem_map.mpr htrimmed
    have hunion : AttributeType.resolve (.union members) =
        AttributeType.ofUnion (AttributeType.resolveAll members) := by
      rw [AttributeType.resolve]
    rw [hunion, AttributeType.ofUnion_several hseveral, typeText_of_name rfl rfl,
      AttributeType.resolveAll_eq_map, List.map_map]
    exact (sanitizeTypeName_intercalate hnames).trans (by rw [List.map_map]; rfl)

/-- A dotted name, a built-in type and an array. -/
def mixedMembers : List TypeExpr :=
  [.reference "Db.Key" [], .keyword "null", .array (.keyword "string")]

/-- Runs of every kind up to the seam, and a union that keeps its members. -/
theorem sanitizeTypeName_laws_ragged :
    (∀ c ∈ ("K ,<" : Text).toList.getLast?, c.isIn isBlank = false) ∧
      (∀ c ∈ ("|, V" : Text).toList.head?, c.isIn isBlank = false) ∧
      sanitizeTypeName ("K ,<" ++ " | " ++ "|, V") = "K--or--or--V" ∧
      (AttributeType.solid (AttributeType.resolveAll mixedMembers)).length ≠ 1 ∧
      (∀ member ∈ mixedMembers, IsTrimmed (AttributeType.resolve member).name.toList) ∧
      typeText (AttributeType.resolve (.union mixedMembers)) = "DbKey-or-null-or-string" := by
  obtain ⟨hjoin, -, hunion⟩ := sanitizeTypeName_laws
  have hfront : ∀ c ∈ ("K ,<" : Text).toList.getLast?, c.isIn isBlank = false := by
    intro c hc
    obtain rfl : .scalar '<' = c := Option.some.inj hc
    decide
  have hback : ∀ c ∈ ("|, V" : Text).toList.head?, c.isIn isBlank = false := by
    intro c hc
    obtain rfl : .scalar '|' = c := Option.some.inj hc
    decide
  have hseveral : (AttributeType.solid (AttributeType.resolveAll mixedMembers)).length ≠ 1 := by
    decide
  have htrimmed : ∀ member ∈ mixedMembers, IsTrimmed (AttributeType.resolve member).name.toList := by
    decide
  exact ⟨hfront, hback, hjoin _ _ hfront hback, hseveral, htrimmed, hunion _ hseveral htrimmed⟩

end EntityDiagram.Render.Mermaid
