import EntityDiagram.Proofs.Source.Names

/-!
# Numerals in front of white space

The spelling of a numeral is read again as a whole where white space or the end of the text follows. A
numeral is put together from digits, a fraction, an exponent and a final `n`, and each part stops at the
first character of the next one. A spelling that was read as a decimal one is not taken for a based one:
the letter of a base would have been the next character in the first text as well.
-/

namespace EntityDiagram.Source

/-- A text that is empty or starts with white space. -/
def StartsBlank (tail : List Char) : Prop :=
  ∀ c ∈ tail.head?, Text.isBlank c = true

theorem StartsBlank.cons
    {c : Char} {tail : List Char} (h : StartsBlank (c :: tail)) :
    Text.isBlank c = true :=
  h c rfl

theorem startsBlank_append
    {blanks : List Char} (hne : blanks ≠ []) (hblanks : ∀ c ∈ blanks, Text.isBlank c = true)
    (cs : List Char) :
    StartsBlank (blanks ++ cs) := by
  cases blanks with
  | nil => exact absurd rfl hne
  | cons first blanks =>
    rintro c hc
    obtain rfl : first = c := Option.some.inj hc
    exact hblanks first List.mem_cons_self

/-- A character that is no white space is not the next one. -/
theorem StartsBlank.head?_ne
    {tail : List Char} (h : StartsBlank tail) {c : Char} (hc : Text.isBlank c = false) :
    tail.head? ≠ some c := by
  intro hhead
  have hblank := h c hhead
  rw [hc] at hblank
  cases hblank

/-- What has been taken is taken again in front of a text that stops it. -/
theorem takeWhile_again
    {p : Char → Bool} {behind : List Char} (hbehind : ∀ c ∈ behind.head?, p c = false)
    (cs : List Char) :
    (cs.takeWhile p ++ behind).takeWhile p = cs.takeWhile p :=
  takeWhile_append_of_stop (fun _ hc => List.mem_takeWhile_imp hc) hbehind

/-! ## Numerals -/

theorem toNat_of_isBlank
    {c : Char} (h : Text.isBlank c = true) :
    c.toNat ≤ 0x20 ∨ 0x85 ≤ c.toNat := by
  simp only [Text.isBlank, Text.blankRanges, Text.CodeRanges.has, Text.CodeRanges.contains,
    Bool.and_eq_true, Bool.or_eq_true, decide_eq_true_eq] at h
  omega

theorem ne_of_isBlank
    {c d : Char} (h : Text.isBlank c = true) (hd : Text.isBlank d = false) :
    c ≠ d := by
  rintro rfl
  rw [hd] at h
  cases h

namespace Numeral

theorem isDecimal_of_isBlank
    {c : Char} (h : Text.isBlank c = true) :
    Text.isDecimal c = false := by
  have hname := isNamePart_of_isBlank h
  simp only [isNamePart, Text.isAlphanumeric, Text.isDigit, Bool.or_eq_false_iff] at hname
  exact hname.1.1.1.2.1

theorem isDecimalPart_of_isBlank
    {c : Char} (h : Text.isBlank c = true) :
    isDecimalPart c = false := by
  have hunderscore := ne_of_isBlank h (d := '_') (by decide)
  simp [isDecimalPart, isDecimal_of_isBlank h, hunderscore]

theorem isBasedPart_of_isBlank
    {c : Char} (h : Text.isBlank c = true) (marker : Char) :
    isBasedPart marker c = false := by
  have hvalue : Text.hexValue? c = none := by
    have hnat := toNat_of_isBlank h
    have hapart : ∀ low high : Char, 0x20 < low.toNat → high.toNat < 0x85 → ¬(low ≤ c ∧ c ≤ high) := by
      intro low high hlow hhigh hrange
      have hbelow : low.toNat ≤ c.toNat := hrange.1
      have habove : c.toNat ≤ high.toNat := hrange.2
      omega
    rw [Text.hexValue?, if_neg (hapart _ _ (by decide) (by decide)),
      if_neg (hapart _ _ (by decide) (by decide)), if_neg (hapart _ _ (by decide) (by decide))]
  have hoctal : ¬('0' ≤ c ∧ c ≤ '7') := by
    intro hrange
    have hdigit : '0' ≤ c ∧ c ≤ '9' := ⟨hrange.1, Char.le_trans hrange.2 (by decide)⟩
    rw [Text.hexValue?, if_pos hdigit] at hvalue
    cases hvalue
  have hother : ∀ d, Text.isBlank d = false → c ≠ d := fun _ => ne_of_isBlank h
  unfold isBasedPart
  split_ifs
  · simp [Text.isHex, hvalue, hother '_' (by decide)]
  · simp [hother '0' (by decide), hother '1' (by decide), hother '_' (by decide)]
  · simpa [hother '_' (by decide)] using hoctal
  · rfl

/-- In front of the text a numeral has come to its end, but for a final `n`. -/
def StopsDigits (tail : List Char) : Prop :=
  ∀ c ∈ tail.head?, c = 'n' ∨ Text.isBlank c = true

theorem StopsDigits.isDecimalPart
    {tail : List Char} (h : StopsDigits tail) :
    ∀ c ∈ tail.head?, Numeral.isDecimalPart c = false := by
  intro c hc
  rcases h c hc with rfl | hblank
  · decide
  · exact isDecimalPart_of_isBlank hblank

theorem StopsDigits.isDecimal
    {tail : List Char} (h : StopsDigits tail) :
    ∀ c ∈ tail.head?, Text.isDecimal c = false := by
  intro c hc
  have hpart := h.isDecimalPart c hc
  rw [Numeral.isDecimalPart, Bool.or_eq_false_iff] at hpart
  exact hpart.1

theorem StopsDigits.head?_ne
    {tail : List Char} (h : StopsDigits tail) {c : Char} (hn : c ≠ 'n')
    (hblank : Text.isBlank c = false) :
    tail.head? ≠ some c := by
  intro hhead
  rcases h c hhead with rfl | hc
  · exact hn rfl
  · rw [hblank] at hc
    cases hc

theorem suffixPart_eq_nil
    {cs : List Char} (h : cs.head? ≠ some 'n') :
    suffixPart cs = [] := by
  unfold suffixPart
  split
  · exact absurd rfl h
  · rfl

theorem suffixPart_eq
    (cs : List Char) :
    suffixPart cs = ['n'] ∨ suffixPart cs = [] := by
  unfold suffixPart
  split
  · exact .inl rfl
  · exact .inr rfl

theorem suffixPart_again
    {tail : List Char} (htail : StartsBlank tail) (cs : List Char) :
    suffixPart (suffixPart cs ++ tail) = suffixPart cs := by
  rcases suffixPart_eq cs with hsuffix | hsuffix
  · rw [hsuffix]
    rfl
  · rw [hsuffix]
    exact suffixPart_eq_nil (htail.head?_ne (by decide))

theorem stopsDigits_suffixPart
    {tail : List Char} (htail : StartsBlank tail) (cs : List Char) :
    StopsDigits (suffixPart cs ++ tail) := by
  intro c hc
  rcases suffixPart_eq cs with hsuffix | hsuffix
  · rw [hsuffix] at hc
    exact .inl (Option.some.inj hc).symm
  · rw [hsuffix] at hc
    exact .inr (htail c hc)

theorem exponentPart_eq_nil
    {tail : List Char} (h : StopsDigits tail) :
    exponentPart tail = [] := by
  cases tail with
  | nil => rfl
  | cons letter rest =>
    have hletter : ¬(letter = 'e' ∨ letter = 'E') := by
      rintro (rfl | rfl)
      · exact h.head?_ne (c := 'e') (by decide) (by decide) rfl
      · exact h.head?_ne (c := 'E') (by decide) (by decide) rfl
    rw [exponentPart]
    exact if_neg fun hexponent => hletter hexponent.1

/-- The sign in front of digits is read again as long as there are digits. -/
theorem signPart_again
    {digits : List Char} (hne : digits ≠ []) (hdigits : ∀ d ∈ digits, Text.isDecimal d = true)
    (cs more : List Char) :
    signPart (signPart cs ++ (digits ++ more)) = signPart cs := by
  have hnone : signPart (digits ++ more) = [] := by
    cases digits with
    | nil => exact absurd rfl hne
    | cons d digits =>
      have hd := hdigits d List.mem_cons_self
      have hsign : ¬(d = '+' ∨ d = '-') := by
        rintro (rfl | rfl) <;> exact absurd hd (by decide)
      exact if_neg hsign
  cases cs with
  | nil => exact hnone
  | cons c rest =>
    by_cases hsign : c = '+' ∨ c = '-'
    · have hpart : signPart (c :: rest) = [c] := if_pos hsign
      rw [hpart]
      exact if_pos hsign
    · have hpart : signPart (c :: rest) = [] := if_neg hsign
      rw [hpart]
      exact hnone

theorem exponentPart_again
    {more : List Char} (hmore : StopsDigits more) (cs : List Char) :
    exponentPart (exponentPart cs ++ more) = exponentPart cs := by
  cases cs with
  | nil => exact exponentPart_eq_nil hmore
  | cons letter rest =>
    rw [exponentPart]
    split
    · rename_i hexponent
      obtain ⟨hletter, hdigits⟩ := hexponent
      have hall : ∀ d ∈ (rest.drop (signPart rest).length).takeWhile Text.isDecimal,
          Text.isDecimal d = true := fun _ hd => List.mem_takeWhile_imp hd
      rw [List.append_assoc, List.cons_append, exponentPart, signPart_again hdigits hall,
        List.drop_left, takeWhile_again hmore.isDecimal, if_pos ⟨hletter, hdigits⟩]
    · exact exponentPart_eq_nil hmore

theorem fractionPart_again
    {more : List Char} (hpoint : more.head? ≠ some '.')
    (hmore : ∀ c ∈ more.head?, isDecimalPart c = false) (cs : List Char) :
    fractionPart (fractionPart cs ++ more) = fractionPart cs := by
  have hnone : fractionPart more = [] := by
    unfold fractionPart
    split
    · exact absurd rfl hpoint
    · rfl
  by_cases hfraction : fractionPart cs = []
  · rw [hfraction]
    exact hnone
  · unfold fractionPart at hfraction ⊢
    split at hfraction
    · rename_i rest
      exact congrArg ('.' :: ·) (takeWhile_again hmore rest)
    · exact absurd rfl hfraction

theorem withSuffix_again
    {tail : List Char} (htail : StartsBlank tail) (cs digits : List Char) :
    withSuffix (withSuffix cs digits ++ tail) digits = withSuffix cs digits := by
  rw [withSuffix, withSuffix, List.append_assoc, List.drop_left, suffixPart_again htail]

/-- The rest of a numeral behind its mantissa. -/
def scalePart (cs mantissa : List Char) : List Char :=
  exponentPart (cs.drop mantissa.length) ++
    suffixPart (cs.drop (mantissa ++ exponentPart (cs.drop mantissa.length)).length)

theorem withSuffix_eq_append_scalePart
    (cs mantissa : List Char) :
    withSuffix cs (mantissa ++ exponentPart (cs.drop mantissa.length)) =
      mantissa ++ scalePart cs mantissa := by
  rw [withSuffix, scalePart, List.append_assoc]

theorem head?_scalePart
    {tail : List Char} (htail : StartsBlank tail) (cs mantissa : List Char) :
    ∀ c ∈ (scalePart cs mantissa ++ tail).head?, isDecimalPart c = false ∧ c ≠ '.' := by
  intro c hc
  rw [scalePart, List.append_assoc] at hc
  have hstops := stopsDigits_suffixPart htail
    (cs.drop (mantissa ++ exponentPart (cs.drop mantissa.length)).length)
  cases hexponent : exponentPart (cs.drop mantissa.length) with
  | nil =>
    rw [hexponent, List.nil_append] at hc
    rw [hexponent] at hstops
    refine ⟨hstops.isDecimalPart c hc, ?_⟩
    rintro rfl
    exact hstops.head?_ne (by decide) (by decide) hc
  | cons letter more =>
    rw [hexponent] at hc
    obtain rfl : letter = c := Option.some.inj hc
    have hletter : letter = 'e' ∨ letter = 'E' := by
      cases hcs : cs.drop mantissa.length with
      | nil =>
        rw [hcs] at hexponent
        cases hexponent
      | cons first rest =>
        rw [hcs, exponentPart] at hexponent
        split at hexponent
        · rename_i hfound
          rw [← (List.cons.inj hexponent).1]
          exact hfound.1
        · cases hexponent
    rcases hletter with rfl | rfl <;> decide

/-- Behind its mantissa a numeral is read again as it was read. -/
theorem scale_again
    {tail : List Char} (htail : StartsBlank tail) (cs mantissa : List Char) :
    withSuffix (mantissa ++ (scalePart cs mantissa ++ tail))
        (mantissa ++ exponentPart ((mantissa ++ (scalePart cs mantissa ++ tail)).drop
          mantissa.length)) =
      mantissa ++ scalePart cs mantissa := by
  have hstops := stopsDigits_suffixPart htail
    (cs.drop (mantissa ++ exponentPart (cs.drop mantissa.length)).length)
  have hexponent : exponentPart (scalePart cs mantissa ++ tail) =
      exponentPart (cs.drop mantissa.length) := by
    rw [scalePart, List.append_assoc, exponentPart_again hstops]
  rw [List.drop_left, hexponent, ← List.append_assoc, ← withSuffix_eq_append_scalePart]
  exact withSuffix_again htail cs _

theorem decimalSpelling?_whole
    {c : Char} (hdecimal : Text.isDecimal c = true) {digits behind : List Char}
    (hdigits : ∀ d ∈ digits, isDecimalPart d = true)
    (hbehind : ∀ d ∈ behind.head?, isDecimalPart d = false) :
    decimalSpelling? (c :: (digits ++ behind)) =
      some (withSuffix (c :: (digits ++ behind)) (c :: digits ++ fractionPart behind ++
        exponentPart ((c :: (digits ++ behind)).drop
          (c :: digits ++ fractionPart behind).length))) := by
  have hdrop : (c :: (digits ++ behind)).drop (c :: digits).length = behind := List.drop_left
  rw [decimalSpelling?, if_pos hdecimal, takeWhile_append_of_stop hdigits hbehind]
  dsimp only
  rw [hdrop]

theorem decimalSpelling?_point
    {c : Char} (hdecimal : Text.isDecimal c = false) {digits behind : List Char}
    (hdigits : ∀ d ∈ digits, isDecimalPart d = true)
    (hbehind : ∀ d ∈ behind.head?, isDecimalPart d = false) :
    decimalSpelling? (c :: (digits ++ behind)) =
      if c = '.' ∧ (digits ++ behind).head?.any Text.isDecimal then
        some (withSuffix (c :: (digits ++ behind)) (c :: digits ++
          exponentPart ((c :: (digits ++ behind)).drop (c :: digits).length)))
      else none := by
  rw [decimalSpelling?, if_neg (by simp [hdecimal]), takeWhile_append_of_stop hdigits hbehind]

/-- A decimal numeral is read again in front of white space. -/
theorem decimalSpelling?_again
    {cs spelling tail : List Char} (h : decimalSpelling? cs = some spelling)
    (htail : StartsBlank tail) :
    decimalSpelling? (spelling ++ tail) = some spelling := by
  cases cs with
  | nil => cases h
  | cons c rest =>
    obtain ⟨digits, behind, hrest, hdigits, hbehind⟩ : ∃ digits behind, rest = digits ++ behind ∧
        (∀ d ∈ digits, isDecimalPart d = true) ∧ ∀ d ∈ behind.head?, isDecimalPart d = false := by
      refine ⟨rest.takeWhile isDecimalPart, rest.dropWhile isDecimalPart,
        List.takeWhile_append_dropWhile.symm, fun _ hd => List.mem_takeWhile_imp hd, ?_⟩
      intro d hd
      have hstop := List.head?_dropWhile_not isDecimalPart rest
      rw [hd] at hstop
      exact hstop
    subst hrest
    by_cases hdecimal : Text.isDecimal c = true
    · rw [decimalSpelling?_whole hdecimal hdigits hbehind, withSuffix_eq_append_scalePart] at h
      obtain rfl := Option.some.inj h
      generalize hmantissa : c :: digits ++ fractionPart behind = mantissa
      have hscale := head?_scalePart htail (c :: (digits ++ behind)) mantissa
      have hagain := scale_again htail (c :: (digits ++ behind)) mantissa
      generalize scalePart (c :: (digits ++ behind)) mantissa = scale at hscale hagain ⊢
      have hfraction : fractionPart (fractionPart behind ++ (scale ++ tail)) = fractionPart behind :=
        fractionPart_again (fun hpoint => (hscale '.' hpoint).2 rfl) (fun d hd => (hscale d hd).1) _
      have hstop : ∀ d ∈ (fractionPart behind ++ (scale ++ tail)).head?, isDecimalPart d = false := by
        intro d hd
        unfold fractionPart at hd
        split at hd
        · obtain rfl : '.' = d := Option.some.inj hd
          decide
        · exact (hscale d hd).1
      have hwritten : c :: (digits ++ (fractionPart behind ++ (scale ++ tail))) =
          mantissa ++ (scale ++ tail) := by
        rw [← hmantissa, List.append_assoc, List.cons_append]
      have hread := decimalSpelling?_whole hdecimal hdigits hstop
      rw [hfraction, hmantissa, hwritten, hagain] at hread
      rw [List.append_assoc, hread]
    · rw [Bool.not_eq_true] at hdecimal
      rw [decimalSpelling?_point hdecimal hdigits hbehind, withSuffix_eq_append_scalePart] at h
      split at h
      · rename_i hpoint
        obtain rfl := Option.some.inj h
        have hscale := head?_scalePart htail (c :: (digits ++ behind)) (c :: digits)
        have hagain := scale_again htail (c :: (digits ++ behind)) (c :: digits)
        generalize scalePart (c :: (digits ++ behind)) (c :: digits) = scale at hscale hagain ⊢
        have hread := decimalSpelling?_point hdecimal hdigits fun d hd => (hscale d hd).1
        have hhead : (digits ++ (scale ++ tail)).head?.any Text.isDecimal = true := by
          cases digits with
          | nil =>
            obtain ⟨d, hd, hdigit⟩ := (Option.any_eq_true _ _).mp hpoint.2
            have hpart := hbehind d hd
            rw [isDecimalPart, hdigit] at hpart
            cases hpart
          | cons d digits => exact hpoint.2
        have hwritten : c :: (digits ++ (scale ++ tail)) = c :: digits ++ (scale ++ tail) := rfl
        rw [if_pos ⟨hpoint.1, hhead⟩, hwritten, hagain] at hread
        rw [List.append_assoc, hread]
      · cases h

theorem basedSpelling?_again
    {cs spelling tail : List Char} (h : basedSpelling? cs = some spelling)
    (htail : StartsBlank tail) :
    basedSpelling? (spelling ++ tail) = some spelling := by
  unfold basedSpelling? at h
  split at h
  · rename_i marker rest
    dsimp only at h
    split at h
    · cases h
    · rename_i hdigits
      obtain rfl := Option.some.inj h
      have hstop : ∀ c ∈ (suffixPart (('0' :: marker :: rest).drop
          ('0' :: marker :: rest.takeWhile (isBasedPart marker)).length) ++ tail).head?,
          isBasedPart marker c = false := by
        intro c hc
        rcases stopsDigits_suffixPart htail _ c hc with rfl | hblank
        · unfold isBasedPart
          split_ifs <;> decide
        · exact isBasedPart_of_isBlank hblank marker
      have hwritten : withSuffix ('0' :: marker :: rest)
          ('0' :: marker :: rest.takeWhile (isBasedPart marker)) ++ tail =
          '0' :: marker :: (rest.takeWhile (isBasedPart marker) ++
            (suffixPart (('0' :: marker :: rest).drop
              ('0' :: marker :: rest.takeWhile (isBasedPart marker)).length) ++ tail)) := by
        rw [withSuffix, List.append_assoc, List.cons_append, List.cons_append]
      have hagain := withSuffix_again htail ('0' :: marker :: rest)
        ('0' :: marker :: rest.takeWhile (isBasedPart marker))
      rw [hwritten] at hagain ⊢
      unfold basedSpelling?
      simp only [takeWhile_again hstop, if_neg hdigits, hagain]
  · cases h

/-- No based numeral starts where none did, if what is left ends in front of white space. -/
theorem basedSpelling?_again_eq_none
    {cs front tail : List Char} (h : basedSpelling? cs = none) (hfront : front <+: cs)
    (htail : StartsBlank tail) :
    basedSpelling? (front ++ tail) = none := by
  have hnone : ∀ {marker rest}, rest.takeWhile (isBasedPart marker) = [] →
      basedSpelling? ('0' :: marker :: rest) = none := by
    intro marker rest hdigits
    unfold basedSpelling?
    exact if_pos hdigits
  have hother : ∀ {c rest}, c ≠ '0' → basedSpelling? (c :: rest) = none := by
    intro c rest hzero
    unfold basedSpelling?
    split
    · rename_i heq
      exact absurd (List.cons.inj heq).1 hzero
    · rfl
  match front with
  | [] =>
    cases tail with
    | nil => rfl
    | cons c tail => exact hother (ne_of_isBlank htail.cons (by decide))
  | [c] =>
    by_cases hzero : c = '0'
    · subst hzero
      cases tail with
      | nil => rfl
      | cons marker tail =>
        have hmarker : ∀ d, Text.isBlank d = false → marker ≠ d := fun _ => ne_of_isBlank htail.cons
        refine hnone ?_
        have hbased : isBasedPart marker = fun _ => false := by
          funext digit
          simp [isBasedPart, hmarker 'x' (by decide), hmarker 'X' (by decide),
            hmarker 'b' (by decide), hmarker 'B' (by decide), hmarker 'o' (by decide),
            hmarker 'O' (by decide)]
        cases tail with
        | nil => rfl
        | cons d tail => rw [hbased, List.takeWhile_cons_of_neg (by decide)]
    · exact hother hzero
  | c :: marker :: front =>
    by_cases hzero : c = '0'
    · subst hzero
      obtain ⟨behind, rfl⟩ := hfront
      refine hnone ?_
      have hdigits : (front ++ behind).takeWhile (isBasedPart marker) = [] := by
        by_contra hdigits
        have hsome : basedSpelling? ('0' :: marker :: (front ++ behind)) ≠ none := by
          unfold basedSpelling?
          simp [hdigits]
        exact hsome h
      cases front with
      | nil =>
        cases tail with
        | nil => rfl
        | cons d tail =>
          exact List.takeWhile_cons_of_neg (by simp [isBasedPart_of_isBlank htail.cons])
      | cons d front =>
        have hd : ¬isBasedPart marker d = true := by
          intro hd
          rw [List.cons_append, List.takeWhile_cons_of_pos hd] at hdigits
          cases hdigits
        exact List.takeWhile_cons_of_neg hd
    · exact hother hzero

/-- A numeral is read again in front of white space. -/
theorem spelling?_again
    {cs spelling tail : List Char} (h : spelling? cs = some spelling) (htail : StartsBlank tail) :
    spelling? (spelling ++ tail) = some spelling := by
  have hfront := spelling?_isPrefix h
  rw [spelling?] at h ⊢
  cases hbased : basedSpelling? cs with
  | some found =>
    rw [hbased] at h
    obtain rfl := Option.some.inj h
    rw [basedSpelling?_again hbased htail, Option.some_or]
  | none =>
    rw [hbased, Option.none_or] at h
    rw [basedSpelling?_again_eq_none hbased hfront htail, Option.none_or]
    exact decimalSpelling?_again h htail

/-- A numeral starts with a digit, or with a point in front of one. -/
theorem startsNumeral_of_spelling?
    {c : Char} {rest spelling : List Char} (h : spelling? (c :: rest) = some spelling) :
    startsNumeral c rest = true := by
  have hdigit : ∀ {d}, Text.isDecimal d = true → Text.isDigit d = true := by
    intro d hd
    rw [Text.isDigit, hd, Bool.true_or]
  rw [startsNumeral, Bool.or_eq_true, Bool.and_eq_true]
  by_cases hdecimal : Text.isDecimal c = true
  · exact .inl (hdigit hdecimal)
  · have hbased : basedSpelling? (c :: rest) = none := by
      unfold basedSpelling?
      split
      · rename_i heq
        rw [(List.cons.inj heq).1] at hdecimal
        exact absurd (by decide) hdecimal
      · rfl
    rw [spelling?, hbased, Option.none_or, decimalSpelling?, if_neg hdecimal] at h
    split at h
    · rename_i hpoint
      obtain ⟨d, hd, hnext⟩ := (Option.any_eq_true _ _).mp hpoint.2
      exact .inr ⟨by simpa using hpoint.1, (Option.any_eq_true _ _).mpr ⟨d, hd, hdigit hnext⟩⟩
    · cases h

end Numeral

end EntityDiagram.Source
