import EntityDiagram.Declaration.Literal

/-!
# Numerals that read back

Every natural number has a numeral. Decimal integers with too many digits are refused, so a number
that needs more digits than that is spelled in hexadecimal, where no bound applies. The main
statement is that the numeral of a number has that number as its value.
-/

namespace EntityDiagram.Source.Numeral

/-- A numeral for a number: in decimal where decimal is read, in hexadecimal beyond. -/
def spellingOf (n : Nat) : String :=
  if (Nat.toDigits 10 n).length ≤ maxIntegerDigits then String.ofList (Nat.toDigits 10 n)
  else String.ofList ('0' :: 'x' :: Nat.toDigits 16 n)

theorem ofDigits_append
    (base : Nat) (digits : List Nat) (last : Nat) :
    ofDigits base (digits ++ [last]) = ofDigits base digits * base + last := by
  simp [ofDigits]

/-- A property of the digits below a base holds of every digit that a number is written with. -/
theorem forall_mem_toDigits
    {base : Nat} (hbase : 1 < base) {P : Char → Prop}
    (hP : ∀ d < base, P d.digitChar) (n : Nat) :
    ∀ c ∈ Nat.toDigits base n, P c := by
  induction n using Nat.base_induction base hbase with
  | single d hd =>
    intro c hc
    rw [Nat.toDigits_of_lt_base hd, List.mem_singleton] at hc
    exact hc ▸ hP d hd
  | digit m d hd hm ih =>
    intro c hc
    rw [← Nat.toDigits_append_toDigits hbase hm hd, List.mem_append,
      Nat.toDigits_of_lt_base hd, List.mem_singleton] at hc
    rcases hc with hc | rfl
    · exact ih c hc
    · exact hP d hd

/-- Reading the digits of a number one by one gives back the number. -/
theorem ofDigits_filterMap_toDigits
    {base : Nat} (hbase : 1 < base) {value? : Char → Option Nat}
    (hvalue : ∀ d < base, value? d.digitChar = some d) (n : Nat) :
    ofDigits base ((Nat.toDigits base n).filterMap value?) = n := by
  induction n using Nat.base_induction base hbase with
  | single d hd => simp [Nat.toDigits_of_lt_base hd, hvalue d hd, ofDigits]
  | digit m d hd hm ih =>
    rw [← Nat.toDigits_append_toDigits hbase hm hd, List.filterMap_append,
      Nat.toDigits_of_lt_base hd]
    simp [hvalue d hd, ofDigits_append, ih, Nat.mul_comm]

theorem decimalValue?_digitChar :
    ∀ d < 10, Text.decimalValue? d.digitChar = some d := by
  decide

theorem hexValue?_digitChar :
    ∀ d < 16, Text.hexValue? d.digitChar = some d := by
  decide

/-- A spelling without separators and without an `n` is plain already. -/
theorem plain_eq_self
    {cs : List Char} (h : ∀ c ∈ cs, c ≠ '_' ∧ c ≠ 'n') :
    plain cs = cs := by
  have hfilter : cs.filter (· ≠ '_') = cs :=
    List.filter_eq_self.mpr fun c hc => by simpa using (h c hc).1
  have hdrop : cs.reverse.dropWhile (· = 'n') = cs.reverse := by
    cases hcs : cs.reverse with
    | nil => rfl
    | cons last front =>
      have hlast : last ∈ cs := List.mem_reverse.mp (hcs ▸ List.mem_cons_self)
      simp [(h last hlast).2]
  rw [plain, hfilter, hdrop, List.reverse_reverse]

theorem value_ofList_toDigits_ten
    {n : Nat} (hn : (Nat.toDigits 10 n).length ≤ maxIntegerDigits) :
    value (String.ofList (Nat.toDigits 10 n)) = .integer n := by
  have hplain : plain (Nat.toDigits 10 n) = Nat.toDigits 10 n :=
    plain_eq_self (forall_mem_toDigits (by decide) (by decide) n)
  have hreal : (Nat.toDigits 10 n).any (fun c => c == '.' || c == 'e' || c == 'E') = false :=
    List.any_eq_false.mpr (forall_mem_toDigits (by decide) (by decide) n)
  have hbase : ∀ c ∈ Nat.toDigits 10 n, baseOf? c = none :=
    forall_mem_toDigits (by decide) (by decide) n
  have hlength : ¬ maxIntegerDigits < ((Nat.toDigits 10 n).filterMap Text.decimalValue?).length :=
    Nat.not_lt.mpr (Nat.le_trans (List.length_filterMap_le ..) hn)
  have hdecimal : decimalValue (Nat.toDigits 10 n) = .integer n := by
    rw [decimalValue, if_neg (by simp [hreal])]
    simp only [if_neg hlength,
      ofDigits_filterMap_toDigits (by decide) decimalValue?_digitChar]
  rw [value, String.toList_ofList, hplain]
  split
  · rename_i marker digits heq
    rw [hbase marker (heq ▸ by simp)]
    exact hdecimal
  · exact hdecimal

theorem value_ofList_toDigits_sixteen
    (n : Nat) :
    value (String.ofList ('0' :: 'x' :: Nat.toDigits 16 n)) = .integer n := by
  have hplain : plain ('0' :: 'x' :: Nat.toDigits 16 n) = '0' :: 'x' :: Nat.toDigits 16 n := by
    refine plain_eq_self ?_
    have hdigits : ∀ c ∈ Nat.toDigits 16 n, c ≠ '_' ∧ c ≠ 'n' :=
      forall_mem_toDigits (by decide) (by decide) n
    simpa using hdigits
  rw [value, String.toList_ofList, hplain]
  simp [baseOf?, ofDigits_filterMap_toDigits (by decide) hexValue?_digitChar]

/-- The numeral of a number has that number as its value. -/
theorem value_spellingOf
    (n : Nat) :
    value (spellingOf n) = .integer n := by
  unfold spellingOf
  split
  · rename_i hn
    exact value_ofList_toDigits_ten hn
  · exact value_ofList_toDigits_sixteen n

end EntityDiagram.Source.Numeral

namespace EntityDiagram.Declaration

theorem Literal.ofNumeral_spellingOf
    (n : Nat) :
    Literal.ofNumeral (Source.Numeral.spellingOf n) = .ok (.integer n) := by
  simp [Literal.ofNumeral, Source.Numeral.value_spellingOf]

end EntityDiagram.Declaration
