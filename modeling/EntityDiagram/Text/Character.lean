/-!
# Characters and texts

A character is a code point: a Unicode scalar value or a surrogate. Neither a source text nor a file
holds a surrogate, but the escapes of a source text can name one, so the texts that are read, kept and
drawn are lists of code points. Every string is such a text.
-/

namespace EntityDiagram

/-- A code point. -/
inductive Character where
  | scalar (c : Char)
  /-- One of the 2048 surrogates, counted from the first one. -/
  | surrogate (index : Fin 2048)
  deriving DecidableEq, Repr

namespace Character

instance : Coe Char Character := ⟨scalar⟩

/-- The code point of the first surrogate. -/
def firstSurrogate : Nat := 0xD800

/-- The code point of a character. -/
def code : Character → Nat
  | scalar c => c.toNat
  | surrogate index => firstSurrogate + index

instance : Hashable Character := ⟨fun c => hash c.code⟩

/-- The character with a code point, if there is one. -/
def ofCode? (n : Nat) : Option Character :=
  if h : n.isValidChar then some (scalar (Char.ofNatAux n h))
  else if h : n - firstSurrogate < 2048 then some (surrogate ⟨n - firstSurrogate, h⟩)
  else none

/-- Whether a character is a scalar value of a class. No surrogate belongs to a class. -/
def isIn (isMember : Char → Bool) : Character → Bool
  | scalar c => isMember c
  | surrogate _ => false

@[simp]
theorem isIn_scalar
    (isMember : Char → Bool) (c : Char) :
    (scalar c).isIn isMember = isMember c :=
  rfl

@[simp]
theorem isIn_surrogate
    (isMember : Char → Bool) (index : Fin 2048) :
    (surrogate index).isIn isMember = false :=
  rfl

/-- A character is what its code point is the code point of. -/
theorem ofCode?_eq_some_iff
    {n : Nat} {c : Character} :
    ofCode? n = some c ↔ c.code = n := by
  constructor
  · intro h
    by_cases hvalid : n.isValidChar
    · rw [ofCode?, dif_pos hvalid] at h
      obtain rfl := Option.some.inj h
      rfl
    · by_cases hsurrogate : n - firstSurrogate < 2048
      · rw [ofCode?, dif_neg hvalid, dif_pos hsurrogate] at h
        obtain rfl := Option.some.inj h
        have hfirst : ¬n < 0xD800 := fun hless => hvalid (.inl hless)
        exact Nat.add_sub_cancel' (Nat.le_of_not_lt hfirst)
      · rw [ofCode?, dif_neg hvalid, dif_neg hsurrogate] at h
        cases h
  · rintro rfl
    cases c with
    | scalar c => exact dif_pos c.valid
    | surrogate index =>
      have hindex := index.isLt
      have hcode : (surrogate index).code - firstSurrogate = index := Nat.add_sub_cancel_left ..
      have hinvalid : ¬(surrogate index).code.isValidChar := by
        simp only [Nat.isValidChar, code, firstSurrogate]
        omega
      rw [ofCode?, dif_neg hinvalid, dif_pos (hcode ▸ hindex)]
      exact congrArg (fun index => some (surrogate index)) (Fin.ext hcode)

/-- Whether a character is a surrogate. -/
def isSurrogate : Character → Bool
  | scalar _ => false
  | surrogate _ => true

end Character

/-- A list of characters. -/
structure Text where
  ofList ::
  toList : List Character
  deriving DecidableEq, Hashable, Repr

namespace Text

/-- The characters of a list of scalar values. -/
def scalars (cs : List Char) : List Character :=
  cs.map .scalar

/-- A string as a text. -/
@[coe]
def ofString (string : String) : Text :=
  ofList (scalars string.toList)

instance : Coe String Text := ⟨ofString⟩

instance : Inhabited Text := ⟨ofList []⟩

instance : Append Text := ⟨fun a b => ofList (a.toList ++ b.toList)⟩

/-- The scalar values that characters are, unless a surrogate is among them. -/
def scalars? : List Character → Option (List Char)
  | [] => some []
  | .scalar c :: rest => (scalars? rest).map (c :: ·)
  | .surrogate _ :: _ => none

/-- The string that a text is, unless it holds a surrogate. -/
def string? (text : Text) : Option String :=
  (scalars? text.toList).map String.ofList

/-- Whether a text has no characters. -/
def isEmpty (text : Text) : Bool :=
  text.toList.isEmpty

/-- Texts one after the other. -/
def join (texts : List Text) : Text :=
  ofList (texts.flatMap toList)

/-- Texts with a separator between them. -/
def intercalate (separator : Text) (texts : List Text) : Text :=
  ofList (separator.toList.intercalate (texts.map toList))

/-- Whether a text comes before another one, or is the same, in the order of code points. -/
def isBefore (a b : Text) : Bool :=
  !decide (b.toList.map Character.code < a.toList.map Character.code)

/-- A text, or nothing where it is empty. -/
def nonempty? (text : Text) : Option Text :=
  if text.isEmpty then none else some text

section

variable {a b : Text} {string front back : String}

theorem toList_inj :
    a.toList = b.toList ↔ a = b := by
  cases a
  cases b
  simp

@[simp]
theorem toList_eq_nil_iff :
    a.toList = [] ↔ a = "" :=
  toList_inj (a := a) (b := "")

@[simp]
theorem isEmpty_iff :
    a.isEmpty = true ↔ a = "" := by
  rw [isEmpty, List.isEmpty_iff, toList_eq_nil_iff]

@[simp]
theorem isEmpty_eq_false_iff :
    a.isEmpty = false ↔ a ≠ "" := by
  rw [← Bool.not_eq_true, isEmpty_iff]

@[simp]
theorem scalars_nil :
    scalars [] = [] :=
  rfl

@[simp]
theorem scalars_cons
    (c : Char) (cs : List Char) :
    scalars (c :: cs) = .scalar c :: scalars cs :=
  rfl

@[simp]
theorem scalars_append
    (front back : List Char) :
    scalars (front ++ back) = scalars front ++ scalars back :=
  List.map_append

@[simp]
theorem scalar_mem_scalars
    {c : Char} {cs : List Char} :
    .scalar c ∈ scalars cs ↔ c ∈ cs := by
  simp [scalars]

theorem forall_mem_scalars
    {p : Character → Prop} {cs : List Char} :
    (∀ c ∈ scalars cs, p c) ↔ ∀ c ∈ cs, p (.scalar c) :=
  List.forall_mem_map

theorem scalars_inj
    {front back : List Char} :
    scalars front = scalars back ↔ front = back :=
  List.map_inj_right fun _ _ => Character.scalar.inj

@[simp]
theorem toList_append
    (a b : Text) :
    (a ++ b).toList = a.toList ++ b.toList :=
  rfl

@[simp]
theorem toList_intercalate
    (separator : Text) (texts : List Text) :
    (separator.intercalate texts).toList = separator.toList.intercalate (texts.map toList) :=
  rfl

@[simp]
theorem toList_ofString
    (string : String) :
    (ofString string).toList = scalars string.toList :=
  rfl

@[simp]
theorem ofString_inj :
    ofString front = ofString back ↔ front = back := by
  rw [← toList_inj, toList_ofString, toList_ofString, scalars_inj, String.toList_inj]

theorem scalars?_eq_some_iff
    {cs : List Character} {found : List Char} :
    scalars? cs = some found ↔ cs = scalars found := by
  fun_induction scalars? cs generalizing found with
  | case1 => cases found <;> simp
  | case2 c rest ih =>
    rw [Option.map_eq_some_iff]
    cases found with
    | nil => simp
    | cons first more => simp [ih, and_assoc, and_comm]
  | case3 index rest => cases found <;> simp

theorem string?_eq_some_iff :
    a.string? = some string ↔ a = ofString string := by
  rw [string?, Option.map_eq_some_iff, ← toList_inj, toList_ofString]
  constructor
  · rintro ⟨found, hfound, rfl⟩
    rw [scalars?_eq_some_iff.mp hfound, String.toList_ofList]
  · intro h
    exact ⟨string.toList, scalars?_eq_some_iff.mpr h, String.ofList_toList⟩

@[simp]
theorem string?_ofString
    (string : String) :
    (ofString string).string? = some string :=
  string?_eq_some_iff.mpr rfl

theorem ofString_append
    (front back : String) :
    ofString (front ++ back) = ofString front ++ ofString back := by
  rw [← toList_inj, toList_ofString, String.toList_append, scalars_append]
  rfl

@[simp]
theorem intercalate_singleton
    (separator text : Text) :
    separator.intercalate [text] = text := by
  rw [← toList_inj, toList_intercalate, List.map_singleton, List.intercalate_singleton]

theorem intercalate_cons_cons
    (separator first second : Text) (rest : List Text) :
    separator.intercalate (first :: second :: rest) =
      first ++ separator ++ separator.intercalate (second :: rest) := by
  rw [← toList_inj]
  simp [List.intercalate_cons_cons]

@[simp]
theorem empty_append
    (text : Text) :
    ("" : Text) ++ text = text :=
  rfl

@[simp]
theorem append_empty
    (text : Text) :
    text ++ ("" : Text) = text :=
  toList_inj.mp (by simp)

theorem append_assoc
    (a b c : Text) :
    a ++ b ++ c = a ++ (b ++ c) := by
  rw [← toList_inj]
  simp

end

end Text

end EntityDiagram
