import EntityDiagram.Text.Numeral
import EntityDiagram.Number.Binary64

/-!
# Numerals

How far a numeral reaches, and what number its spelling stands for. A numeral is a based one (`0x`,
`0b` or `0o` and digits of that base) or a decimal one with an optional fraction and exponent; digits
may be separated by underscores, and a final `n` belongs to the numeral. Decimal numerals take the
decimal digits of every script.

A based numeral may consist of underscores alone and then has no value. Nor has a decimal integer with
too many digits, zeros in front included; based integers and decimal fractions may be of any length.
-/

namespace EntityDiagram.Source.Numeral

/-- A decimal digit or a separator. -/
def isDecimalPart (c : Char) : Bool :=
  Text.isDecimal c || c == '_'

/-- The digits of the three bases that have a marker letter. -/
def isBasedPart (marker c : Char) : Bool :=
  if marker = 'x' ∨ marker = 'X' then Text.isHex c || c == '_'
  else if marker = 'b' ∨ marker = 'B' then c == '0' || c == '1' || c == '_'
  else if marker = 'o' ∨ marker = 'O' then (decide ('0' ≤ c) && decide (c ≤ '7')) || c == '_'
  else false

/-- The final `n` of a numeral, if the text starts with it. -/
def suffixPart : List Char → List Char
  | 'n' :: _ => ['n']
  | _ => []

/-- The sign of an exponent, if the text starts with one. -/
def signPart : List Char → List Char
  | c :: _ => if c = '+' ∨ c = '-' then [c] else []
  | [] => []

/-- The exponent at the start of a text; nothing where no digit follows the letter. -/
def exponentPart : List Char → List Char
  | [] => []
  | letter :: rest =>
    let sign := signPart rest
    let digits := (rest.drop sign.length).takeWhile Text.isDecimal
    if (letter = 'e' ∨ letter = 'E') ∧ digits ≠ [] then letter :: sign ++ digits else []

/-- The fraction at the start of a text that continues a numeral. -/
def fractionPart : List Char → List Char
  | '.' :: rest => '.' :: rest.takeWhile isDecimalPart
  | _ => []

/-- A numeral's digits with the final `n` that follows them in the text. -/
def withSuffix (cs digits : List Char) : List Char :=
  digits ++ suffixPart (cs.drop digits.length)

/-- The spelling of a based numeral at the start of a text. -/
def basedSpelling? (cs : List Char) : Option (List Char) :=
  match cs with
  | '0' :: marker :: rest =>
    let digits := rest.takeWhile (isBasedPart marker)
    if digits = [] then none else some (withSuffix cs ('0' :: marker :: digits))
  | _ => none

/-- The spelling of a decimal numeral at the start of a text. -/
def decimalSpelling? (cs : List Char) : Option (List Char) :=
  match cs with
  | [] => none
  | c :: rest =>
    if Text.isDecimal c then
      let whole := c :: rest.takeWhile isDecimalPart
      let mantissa := whole ++ fractionPart (cs.drop whole.length)
      some (withSuffix cs (mantissa ++ exponentPart (cs.drop mantissa.length)))
    else if c = '.' ∧ rest.head?.any Text.isDecimal then
      let mantissa := c :: rest.takeWhile isDecimalPart
      some (withSuffix cs (mantissa ++ exponentPart (cs.drop mantissa.length)))
    else none

/-- The spelling of the numeral at the start of a text. -/
def spelling? (cs : List Char) : Option (List Char) :=
  (basedSpelling? cs).or (decimalSpelling? cs)

/-- The number with the given digits in a base. -/
def ofDigits (base : Nat) (digits : List Nat) : Nat :=
  digits.foldl (fun total digit => total * base + digit) 0

/-- The spelling of a numeral without separators and without the final `n`. -/
def plain (spelling : List Char) : List Char :=
  ((spelling.filter (· ≠ '_')).reverse.dropWhile (· = 'n')).reverse

/-- The number that an exponent stands for, its letter left out. -/
def exponentValue : List Char → Int
  | '-' :: digits => -(ofDigits 10 (digits.filterMap Text.decimalValue?) : Nat)
  | digits => (ofDigits 10 (digits.filterMap Text.decimalValue?) : Nat)

/-- The double that a plain decimal spelling with a point or an exponent stands for. -/
def realValue (spelling : List Char) : Number.Binary64 :=
  let (mantissa, power) := spelling.span fun c => c ≠ 'e' && c ≠ 'E'
  let (whole, fraction) := mantissa.span (· ≠ '.')
  let fractionDigits := fraction.filterMap Text.decimalValue?
  let units := ofDigits 10 (whole.filterMap Text.decimalValue? ++ fractionDigits)
  Number.Binary64.ofDecimal units (exponentValue power.tail - fractionDigits.length)

/-- The base that a marker letter names. -/
def baseOf? (marker : Char) : Option Nat :=
  if marker = 'x' ∨ marker = 'X' then some 16
  else if marker = 'b' ∨ marker = 'B' then some 2
  else if marker = 'o' ∨ marker = 'O' then some 8
  else none

/-- The value of a numeral. -/
inductive Value where
  | integer (n : Nat)
  | real (x : Number.Binary64)
  /-- A base without any digit; the spelling is the plain one. -/
  | missing (spelling : String)
  /-- A decimal integer with more digits than are read. -/
  | tooLong (digits : Nat)
  deriving DecidableEq, Repr

/-- The greatest number of digits that a decimal integer may have. -/
def maxIntegerDigits : Nat := 4300

/-- The value of a plain decimal spelling. -/
def decimalValue (spelling : List Char) : Value :=
  if spelling.any fun c => c == '.' || c == 'e' || c == 'E' then .real (realValue spelling)
  else
    let digits := spelling.filterMap Text.decimalValue?
    if maxIntegerDigits < digits.length then .tooLong digits.length
    else .integer (ofDigits 10 digits)

/-- The value that a spelling stands for. -/
def value (spelling : String) : Value :=
  let cs := plain spelling.toList
  match cs with
  | '0' :: marker :: digits =>
    match baseOf? marker with
    | some base =>
      if digits.isEmpty then .missing (String.ofList cs)
      else .integer (ofDigits base (digits.filterMap Text.hexValue?))
    | none => decimalValue cs
  | _ => decimalValue cs

theorem basedSpelling?_ne_nil
    {cs spelling : List Char}
    (h : basedSpelling? cs = some spelling) :
    spelling ≠ [] := by
  unfold basedSpelling? at h
  split at h
  · simp only at h
    split at h
    · simp at h
    · simp [← Option.some.inj h, withSuffix]
  · simp at h

theorem decimalSpelling?_ne_nil
    {cs spelling : List Char}
    (h : decimalSpelling? cs = some spelling) :
    spelling ≠ [] := by
  unfold decimalSpelling? at h
  split at h
  · simp at h
  · split at h
    · simp [← Option.some.inj h, withSuffix]
    · split at h
      · simp [← Option.some.inj h, withSuffix]
      · simp at h

/-- A numeral has at least one character. -/
theorem spelling?_ne_nil
    {cs spelling : List Char}
    (h : spelling? cs = some spelling) :
    spelling ≠ [] := by
  unfold spelling? at h
  cases hbased : basedSpelling? cs with
  | some found =>
    rw [hbased] at h
    exact basedSpelling?_ne_nil (hbased.trans h)
  | none =>
    rw [hbased] at h
    exact decimalSpelling?_ne_nil h

end EntityDiagram.Source.Numeral
