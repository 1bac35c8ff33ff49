import EntityDiagram.Source.Fault
import EntityDiagram.Source.Numeral

/-!
# Quoted texts, templates and regular expressions

The three kinds of lexeme whose end has to be searched for. Each reader starts behind the opening
mark and returns what it read together with the text behind the closing mark.

A backslash protects the character after it from being read as the end. In a template it also keeps
an escaped line break from starting a new line for positions; an unescaped one does start one.
-/

namespace EntityDiagram.Source

/-- The character that a one-letter escape stands for: itself, unless it has a meaning. -/
def plainEscape (c : Char) : Char :=
  if c = 'n' then '\n'
  else if c = 't' then '\t'
  else if c = 'r' then '\r'
  else if c = 'b' then '\x08'
  else if c = 'f' then '\x0c'
  else if c = 'v' then '\x0b'
  else if c = '0' then '\x00'
  else c

/-- The number that hexadecimal digits stand for, if there are exactly so many of them. -/
def hexNumber? (width : Nat) (cs : List Char) : Option Nat :=
  let digits := cs.filterMap Text.hexValue?
  if cs.length = width ∧ digits.length = width then some (Numeral.ofDigits 16 digits) else none

/-- The character of an escape by code point, `\xHH`, `\uHHHH` or `\u{H…}`, and the text behind it.
The argument is the text behind the letter. Two escapes of surrogates are two characters. -/
def codePointEscape? (letter : Char) (cs : List Char) : Option (Character × List Char) :=
  if letter = 'x' then
    (hexNumber? 2 (cs.take 2)).bind Character.ofCode? |>.map fun c => (c, cs.drop 2)
  else
    match cs with
    | '\x7b' :: body =>
      let digits := body.takeWhile Text.isHex
      let behind := body.drop digits.length
      if digits ≠ [] ∧ behind.head? = some '\x7d' then
        (hexNumber? digits.length digits).bind Character.ofCode? |>.map fun c => (c, behind.tail)
      else none
    | _ => (hexNumber? 4 (cs.take 4)).bind Character.ofCode? |>.map fun c => (c, cs.drop 4)

theorem codePointEscape?_length
    {letter : Char} {c : Character} {cs behind : List Char}
    (h : codePointEscape? letter cs = some (c, behind)) :
    behind.length ≤ cs.length := by
  unfold codePointEscape? at h
  split at h
  · obtain ⟨_, _, heq⟩ := Option.map_eq_some_iff.mp h
    simp [← (Prod.mk.inj heq).2]
  · split at h
    · rename_i body
      simp only at h
      split at h
      · obtain ⟨_, _, heq⟩ := Option.map_eq_some_iff.mp h
        simp only [← (Prod.mk.inj heq).2, List.length_tail, List.length_drop, List.length_cons]
        omega
      · simp at h
    · obtain ⟨_, _, heq⟩ := Option.map_eq_some_iff.mp h
      simp [← (Prod.mk.inj heq).2]

/-- Something read, put in front of what a reader goes on to read. -/
def prepend {α : Type} (front : List α) (read : List α × List Char) : List α × List Char :=
  (front ++ read.1, read.2)

/-- The decoded text of a string up to its closing quote. -/
def readString (quote : Char) (cs : List Char) : Except Fault (List Character × List Char) :=
  match cs with
  | [] => .error .unterminatedString
  | c :: rest =>
    if c = '\n' then .error .unterminatedString
    else if c = quote then .ok ([], rest)
    else if c = '\\' then
      match rest with
      | [] => .error .unterminatedString
      | letter :: behind =>
        if letter = 'u' ∨ letter = 'x' then
          match _h : codePointEscape? letter behind with
          | none => .error .invalidEscape
          | some (decoded, more) => (readString quote more).map (prepend [decoded])
        else if letter = '\n' then readString quote behind
        else (readString quote behind).map (prepend [plainEscape letter])
    else (readString quote rest).map (prepend [c])
termination_by cs.length
decreasing_by
  · have := codePointEscape?_length _h
    simp only [List.length_cons]
    omega
  · simp only [List.length_cons]
    omega
  · simp only [List.length_cons]
    omega
  · simp

/-- The rest of a regular expression's body with its closing slash. Inside a class a slash does not
close the expression. -/
def readRegexBody (inClass : Bool) : List Char → Option (List Char × List Char)
  | [] => none
  | c :: rest =>
    if c = '\n' then none
    else if c = '\\' then
      match rest with
      | [] => none
      | escaped :: behind =>
        if escaped = '\n' then none
        else (readRegexBody inClass behind).map (prepend [c, escaped])
    else if c = '/' ∧ inClass = false then some ([c], rest)
    else (readRegexBody (c = '[' || (inClass && c != ']')) rest).map (prepend [c])

/-- What was read of a template: its text, the position behind its closing mark, and the text
there. -/
structure TemplateSpan where
  text : List Char
  behind : Position
  rest : List Char

/-- A template span with more text in front. -/
def TemplateSpan.prepend (front : List Char) (span : TemplateSpan) : TemplateSpan :=
  { span with text := front ++ span.text }

/-- The text of a template up to its closing back quote, at a depth of open substitutions; the
position of the end of the text where there is none. -/
def readTemplate (depth : Nat) (position : Position) : List Char → Except Position TemplateSpan
  | [] => .error position
  | c :: rest =>
    if c = '\\' then
      match rest with
      | [] => .error position
      | escaped :: behind =>
        (readTemplate depth (position.right 2) behind).map (.prepend [c, escaped])
    else if c = '\x60' ∧ depth = 0 then .ok ⟨[], position.right 1, rest⟩
    else if c = '$' ∧ rest.head? = some '\x7b' then
      match rest with
      | [] => .error position
      | brace :: behind =>
        (readTemplate (depth + 1) (position.right 2) behind).map (.prepend [c, brace])
    else
      let depth' := if c = '\x7d' then depth - 1 else depth
      (readTemplate depth' (position.advance c) rest).map (.prepend [c])

/-- A reading with something in front succeeds where the reading behind does. -/
theorem map_prepend_eq_ok
    {front text : List Character} {behind : List Char}
    {read : Except Fault (List Character × List Char)}
    (h : read.map (prepend front) = .ok (text, behind)) :
    ∃ more, read = .ok (more, behind) ∧ text = front ++ more := by
  cases read with
  | error e => simp [Except.map] at h
  | ok found =>
    obtain ⟨more, rest⟩ := found
    simp only [Except.map, prepend, Except.ok.injEq, Prod.mk.injEq] at h
    exact ⟨more, by rw [h.2], h.1.symm⟩

theorem readString_length
    {quote : Char} {cs behind : List Char} {text : List Character}
    (h : readString quote cs = .ok (text, behind)) :
    behind.length < cs.length := by
  fun_induction readString quote cs generalizing text with
  | case1 => simp at h
  | case2 => simp at h
  | case3 => simp_all
  | case4 => simp at h
  | case5 => simp at h
  | case6 letter rest _ decoded more hescape _ _ ih =>
    obtain ⟨_, hread, _⟩ := map_prepend_eq_ok h
    have := ih hread
    have := codePointEscape?_length hescape
    simp only [List.length_cons]
    omega
  | case7 rest _ _ _ ih =>
    have := ih h
    simp only [List.length_cons]
    omega
  | case8 letter rest _ _ _ _ ih =>
    obtain ⟨_, hread, _⟩ := map_prepend_eq_ok h
    have := ih hread
    simp only [List.length_cons]
    omega
  | case9 c rest _ _ _ ih =>
    obtain ⟨_, hread, _⟩ := map_prepend_eq_ok h
    have := ih hread
    simp only [List.length_cons]
    omega

theorem readRegexBody_length
    {inClass : Bool} {cs body behind : List Char}
    (h : readRegexBody inClass cs = some (body, behind)) :
    behind.length < cs.length := by
  fun_induction readRegexBody inClass cs generalizing body with
  | case1 => simp at h
  | case2 => simp at h
  | case3 => simp at h
  | case4 => simp at h
  | case5 inClass escaped rest _ _ ih =>
    obtain ⟨found, hread, heq⟩ := Option.map_eq_some_iff.mp h
    have := @ih found.1 (by rw [hread, ← (Prod.mk.inj heq).2])
    simp only [List.length_cons]
    omega
  | case6 => simp_all
  | case7 inClass c rest _ _ _ ih =>
    obtain ⟨found, hread, heq⟩ := Option.map_eq_some_iff.mp h
    have := @ih found.1 (by rw [hread, ← (Prod.mk.inj heq).2])
    simp only [List.length_cons]
    omega

theorem map_templatePrepend_eq_ok
    {front : List Char} {span : TemplateSpan} {read : Except Position TemplateSpan}
    (h : read.map (.prepend front) = .ok span) :
    ∃ more, read = .ok more ∧ span = more.prepend front := by
  cases read with
  | error e => simp [Except.map] at h
  | ok found => exact ⟨found, rfl, (Except.ok.inj h).symm⟩

theorem readTemplate_length
    {depth : Nat} {position : Position} {cs : List Char} {span : TemplateSpan}
    (h : readTemplate depth position cs = .ok span) :
    span.rest.length < cs.length := by
  fun_induction readTemplate depth position cs generalizing span with
  | case1 => simp at h
  | case2 => simp at h
  | case3 =>
    rename_i ih
    obtain ⟨found, hread, rfl⟩ := map_templatePrepend_eq_ok h
    have := ih hread
    simp only [TemplateSpan.prepend, List.length_cons]
    omega
  | case4 => simp [← Except.ok.inj h]
  | case5 => simp at h
  | case6 =>
    rename_i ih
    obtain ⟨found, hread, rfl⟩ := map_templatePrepend_eq_ok h
    have := ih hread
    simp only [TemplateSpan.prepend, List.length_cons]
    omega
  | case7 =>
    rename_i ih
    obtain ⟨found, hread, rfl⟩ := map_templatePrepend_eq_ok h
    have := ih hread
    simp only [TemplateSpan.prepend, List.length_cons]
    omega

end EntityDiagram.Source
