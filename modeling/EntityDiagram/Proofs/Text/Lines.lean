import Mathlib.Data.List.Basic
import Mathlib.Data.List.TakeWhile
import EntityDiagram.Text.Blank
import EntityDiagram.Text.Lines

/-!
# The lines of joined and of trimmed texts

Where texts are joined by line breaks, the lines of the whole are the lines of the texts, one text
after the other, and every line break in a text makes one line more. Trimming the end takes away
lines without contents and shortens the last one that is left.
-/

namespace EntityDiagram.Text

/-! ## Lines -/

theorem lines_cons
    {c : Character} (hc : c ≠ .scalar '\n') {cs line : List Character} {more : List (List Character)}
    (h : lines cs = line :: more) :
    lines (c :: cs) = (c :: line) :: more := by
  rw [lines, if_neg hc, h]

theorem lines_newline_cons
    (cs : List Character) :
    lines (.scalar '\n' :: cs) = [] :: lines cs := by
  rw [lines, if_pos rfl]

/-- The last line of a text is open to what comes behind the text; the lines before are not. -/
theorem lines_append
    (front : List Character) :
    ∃ before last, lines front = before ++ [last] ∧ .scalar '\n' ∉ last ∧
      ∀ back, lines (front ++ back) = before ++ lines (last ++ back) := by
  induction front with
  | nil => exact ⟨[], [], rfl, List.not_mem_nil, fun _ => rfl⟩
  | cons c front ih =>
    obtain ⟨before, last, hfront, hlast, happend⟩ := ih
    by_cases hc : c = .scalar '\n'
    · subst hc
      refine ⟨[] :: before, last, ?_, hlast, fun back => ?_⟩
      · rw [lines_newline_cons, hfront, List.cons_append]
      · rw [List.cons_append, lines_newline_cons, happend, List.cons_append]
    · cases before with
      | nil =>
        refine ⟨[], c :: last, lines_cons hc hfront, List.not_mem_cons_of_ne_of_not_mem
          (Ne.symm hc) hlast, fun back => ?_⟩
        obtain ⟨line, more, hmore⟩ := List.exists_cons_of_ne_nil (lines_ne_nil (last ++ back))
        rw [List.cons_append, List.cons_append, lines_cons hc (happend back |>.trans hmore),
          lines_cons hc hmore]
        rfl
      | cons first before =>
        refine ⟨(c :: first) :: before, last, lines_cons hc hfront, hlast, fun back => ?_⟩
        rw [List.cons_append, lines_cons hc (happend back)]
        rfl

theorem lines_append_newline
    (front back : List Character) :
    lines (front ++ .scalar '\n' :: back) = lines front ++ lines back := by
  induction front with
  | nil => exact lines_newline_cons back
  | cons c front ih =>
    by_cases hc : c = .scalar '\n'
    · subst hc
      rw [List.cons_append, lines_newline_cons, ih, lines_newline_cons, List.cons_append]
    · obtain ⟨line, more, hmore⟩ := List.exists_cons_of_ne_nil (lines_ne_nil front)
      rw [hmore, List.cons_append] at ih
      rw [List.cons_append, lines_cons hc ih, lines_cons hc hmore, List.cons_append]

/-- What stands in front of a text without a line break becomes part of the first line. -/
theorem lines_append_of_newline_notMem
    {front : List Character} (h : .scalar '\n' ∉ front) (cs : List Character) :
    ∃ line more, lines cs = line :: more ∧ lines (front ++ cs) = (front ++ line) :: more := by
  induction front with
  | nil =>
    obtain ⟨line, more, hmore⟩ := List.exists_cons_of_ne_nil (lines_ne_nil cs)
    exact ⟨line, more, hmore, hmore⟩
  | cons c front ih =>
    rw [List.mem_cons, not_or] at h
    obtain ⟨hc, hfront⟩ := h
    obtain ⟨line, more, hcs, hlines⟩ := ih hfront
    exact ⟨line, more, hcs, lines_cons (Ne.symm hc) hlines⟩

theorem lines_of_newline_notMem
    {cs : List Character} (h : .scalar '\n' ∉ cs) :
    lines cs = [cs] := by
  obtain ⟨line, more, hnil, hlines⟩ := lines_append_of_newline_notMem h []
  obtain ⟨rfl, rfl⟩ := List.cons.inj hnil
  rwa [List.append_nil] at hlines

/-- How many line breaks a text has. -/
def breaks (text : Text) : Nat :=
  text.toList.count (.scalar '\n')

theorem breaks_append
    (s t : Text) :
    breaks (s ++ t) = breaks s + breaks t := by
  rw [breaks, toList_append, List.count_append, breaks, breaks]

theorem breaks_eq_zero_iff
    {text : Text} :
    breaks text = 0 ↔ .scalar '\n' ∉ text.toList :=
  List.count_eq_zero

theorem lines_of_breaks
    {text : Text} (h : breaks text = 0) :
    lines text.toList = [text.toList] :=
  lines_of_newline_notMem (breaks_eq_zero_iff.mp h)

theorem length_lines
    (text : Text) :
    (lines text.toList).length = 1 + breaks text := by
  unfold breaks
  induction text.toList with
  | nil => rfl
  | cons c cs ih =>
    by_cases hc : c = .scalar '\n'
    · subst hc
      rw [lines_newline_cons, List.length_cons, ih, List.count_cons_self]
      omega
    · obtain ⟨line, more, hmore⟩ := List.exists_cons_of_ne_nil (lines_ne_nil cs)
      rw [lines_cons hc hmore, List.count_cons_of_ne hc, ← ih, hmore]
      rfl

/-- The first line starts where the text starts. -/
theorem exists_eq_cons_of_lines
    {cs line : List Character} {c : Character} {more : List (List Character)}
    (h : lines cs = (c :: line) :: more) :
    ∃ rest, cs = c :: rest := by
  cases cs with
  | nil => cases h
  | cons d cs =>
    by_cases hd : d = .scalar '\n'
    · rw [hd, lines_newline_cons] at h
      cases h
    · obtain ⟨first, others, hcs⟩ := List.exists_cons_of_ne_nil (lines_ne_nil cs)
      rw [lines_cons hd hcs] at h
      obtain ⟨hline, -⟩ := List.cons.inj h
      obtain ⟨rfl, -⟩ := List.cons.inj hline
      exact ⟨cs, rfl⟩

theorem mem_of_mem_lines
    {cs line : List Character} (h : line ∈ lines cs) {c : Character} (hc : c ∈ line) :
    c ∈ cs := by
  induction cs generalizing line with
  | nil =>
    obtain rfl := List.mem_singleton.mp h
    exact hc
  | cons d cs ih =>
    by_cases hd : d = .scalar '\n'
    · subst hd
      rw [lines_newline_cons] at h
      obtain rfl | hmore := List.mem_cons.mp h
      · cases hc
      · exact List.mem_cons_of_mem _ (ih hmore hc)
    · obtain ⟨first, more, hmore⟩ := List.exists_cons_of_ne_nil (lines_ne_nil cs)
      rw [lines_cons hd hmore] at h
      obtain rfl | hrest := List.mem_cons.mp h
      · obtain rfl | hfirst := List.mem_cons.mp hc
        · exact List.mem_cons_self
        · exact List.mem_cons_of_mem _ (ih (hmore ▸ List.mem_cons_self) hfirst)
      · exact List.mem_cons_of_mem _ (ih (hmore ▸ List.mem_cons_of_mem first hrest) hc)

/-- No line of a text has a line break. -/
theorem newline_notMem_of_mem_lines
    {cs line : List Character} (h : line ∈ lines cs) :
    .scalar '\n' ∉ line := by
  induction cs generalizing line with
  | nil =>
    obtain rfl := List.mem_singleton.mp h
    exact List.not_mem_nil
  | cons c cs ih =>
    by_cases hc : c = .scalar '\n'
    · rw [hc, lines_newline_cons] at h
      obtain rfl | hmore := List.mem_cons.mp h
      · exact List.not_mem_nil
      · exact ih hmore
    · obtain ⟨first, more, hmore⟩ := List.exists_cons_of_ne_nil (lines_ne_nil cs)
      rw [lines_cons hc hmore] at h
      obtain rfl | hrest := List.mem_cons.mp h
      · exact List.not_mem_cons_of_ne_of_not_mem (Ne.symm hc) (ih (hmore ▸ List.mem_cons_self))
      · exact ih (hmore ▸ List.mem_cons_of_mem first hrest)

/-- Joined texts keep their lines. -/
theorem lines_unlines
    {texts : List Text} (h : texts ≠ []) :
    lines (unlines texts).toList = texts.flatMap fun text => lines text.toList := by
  rw [unlines, toList_intercalate]
  induction texts with
  | nil => exact (h rfl).elim
  | cons first rest ih =>
    cases rest with
    | nil => simp
    | cons second rest =>
      have hmore := ih (List.cons_ne_nil second rest)
      rw [List.map_cons, List.map_cons, List.intercalate_cons_cons, ← List.map_cons,
        List.append_assoc, List.flatMap_cons, ← hmore]
      exact lines_append_newline first.toList _

theorem lines_unlines_of_mem
    {texts : List Text} {text : Text} (h : text ∈ texts) :
    ∃ front back, lines (unlines texts).toList = front ++ (lines text.toList ++ back) := by
  rw [lines_unlines (List.ne_nil_of_mem h)]
  obtain ⟨before, behind, rfl⟩ := List.append_of_mem h
  rw [List.flatMap_append, List.flatMap_cons]
  exact ⟨_, _, rfl⟩

/-- Lines joined by line breaks, as characters. -/
def joined (texts : List (List Character)) : List Character :=
  [Character.scalar '\n'].intercalate texts

theorem toList_unlines
    (texts : List Text) :
    (unlines texts).toList = joined (texts.map toList) :=
  rfl

theorem joined_cons_cons
    (first second : List Character) (rest : List (List Character)) :
    joined (first :: second :: rest) = first ++ .scalar '\n' :: joined (second :: rest) := by
  simp [joined, List.intercalate_cons_cons]

theorem joined_singleton
    (line : List Character) :
    joined [line] = line := by
  simp [joined]

theorem joined_lines
    (cs : List Character) :
    joined (lines cs) = cs := by
  induction cs with
  | nil => rfl
  | cons c cs ih =>
    obtain ⟨first, more, hmore⟩ := List.exists_cons_of_ne_nil (lines_ne_nil cs)
    by_cases hc : c = .scalar '\n'
    · rw [hc, lines_newline_cons, hmore, joined_cons_cons, ← hmore, ih, List.nil_append]
    · rw [hmore] at ih
      rw [lines_cons hc hmore, ← ih]
      cases more with
      | nil => rw [joined_singleton, joined_singleton]
      | cons second more => rw [joined_cons_cons, joined_cons_cons, List.cons_append]

theorem lines_joined
    {texts : List (List Character)} (hne : texts ≠ []) (h : ∀ text ∈ texts, .scalar '\n' ∉ text) :
    lines (joined texts) = texts := by
  induction texts with
  | nil => exact (hne rfl).elim
  | cons first rest ih =>
    obtain ⟨hfirst, hrest⟩ := List.forall_mem_cons.mp h
    cases rest with
    | nil => rw [joined_singleton, lines_of_newline_notMem hfirst]
    | cons second rest =>
      rw [joined_cons_cons, lines_append_newline, lines_of_newline_notMem hfirst,
        ih (List.cons_ne_nil second rest) hrest, List.singleton_append]

theorem joined_concat_append
    (texts : List (List Character)) (last behind : List Character) :
    joined (texts ++ [last ++ behind]) = joined (texts ++ [last]) ++ behind := by
  induction texts with
  | nil => rw [List.nil_append, List.nil_append, joined_singleton, joined_singleton]
  | cons first rest ih =>
    obtain ⟨second, more, hmore⟩ := List.exists_cons_of_ne_nil
      (List.append_ne_nil_of_right_ne_nil rest (List.cons_ne_nil last []))
    obtain ⟨second', more', hmore'⟩ := List.exists_cons_of_ne_nil
      (List.append_ne_nil_of_right_ne_nil rest (List.cons_ne_nil (last ++ behind) []))
    rw [hmore, hmore'] at ih
    rw [List.cons_append, List.cons_append, hmore, hmore', joined_cons_cons, joined_cons_cons, ih,
      List.append_assoc, List.cons_append]

theorem joined_concat_nil
    {texts : List (List Character)} (h : texts ≠ []) :
    joined (texts ++ [[]]) = joined texts ++ [.scalar '\n'] := by
  induction texts with
  | nil => exact (h rfl).elim
  | cons first rest ih =>
    cases rest with
    | nil => simp [joined_cons_cons, joined_singleton]
    | cons second rest =>
      have hrest := ih (List.cons_ne_nil second rest)
      rw [List.cons_append] at hrest
      rw [List.cons_append, List.cons_append, joined_cons_cons, joined_cons_cons, hrest,
        List.append_assoc, List.cons_append]

/-! ## Replacing characters -/

/-- Replacing one character keeps the number of any other that the new text does not have. -/
theorem count_replaceChar
    {old c : Character} (hold : c ≠ old) {new : List Character} (hnew : c ∉ new) (cs : List Character) :
    (replaceChar old new cs).count c = cs.count c := by
  induction cs with
  | nil => rfl
  | cons d cs ih =>
    rw [replaceChar, List.flatMap_cons, List.count_append, ← replaceChar, ih, List.count_cons]
    split
    · rename_i hd
      rw [List.count_eq_zero.mpr hnew, if_neg (by simpa [hd] using hold.symm), Nat.zero_add,
        Nat.add_zero]
    · rw [List.count_singleton, Nat.add_comm]

/-- A character that was replaced is gone, if the new text does not have it. -/
theorem notMem_replaceChar
    {old : Character} {new : List Character} (h : old ∉ new) (cs : List Character) :
    old ∉ replaceChar old new cs := by
  intro hmem
  obtain ⟨c, -, hc⟩ := List.mem_flatMap.mp hmem
  split at hc
  · exact h hc
  · rename_i hne
    exact hne (List.mem_singleton.mp hc).symm

/-! ## Trimming -/

theorem trimStart_of_not_blank
    {c : Character} (h : c.isIn isBlank = false) (cs : List Character) :
    trimStart (c :: cs) = c :: cs := by
  rw [trimStart, List.dropWhile_cons_of_neg (by simp [h])]

/-- The text neither starts nor ends with white space. -/
structure IsTrimmed (cs : List Character) : Prop where
  head : ∀ c ∈ cs.head?, c.isIn isBlank = false
  last : ∀ c ∈ cs.getLast?, c.isIn isBlank = false

instance (cs : List Character) : Decidable (IsTrimmed cs) :=
  decidable_of_iff ((cs.head?.any (Character.isIn isBlank) ||
      cs.getLast?.any (Character.isIn isBlank)) = false) <| by
    rw [Bool.or_eq_false_iff, Option.any_eq_false, Option.any_eq_false]
    exact ⟨fun h => ⟨h.1, h.2⟩, fun h => ⟨h.head, h.last⟩⟩

theorem trimStart_blank_append
    {blanks : List Character} (h : ∀ c ∈ blanks, c.isIn isBlank = true) (cs : List Character) :
    trimStart (blanks ++ cs) = trimStart cs :=
  List.dropWhile_append_of_pos h

theorem trimEnd_append_blank
    {blanks : List Character} (h : ∀ c ∈ blanks, c.isIn isBlank = true) (cs : List Character) :
    trimEnd (cs ++ blanks) = trimEnd cs := by
  rw [trimEnd, List.reverse_append, List.dropWhile_append_of_pos, trimEnd]
  exact fun c hc => h c (List.mem_reverse.mp hc)

theorem trimEnd_trimStart_append_blank
    {blanks : List Character} (h : ∀ c ∈ blanks, c.isIn isBlank = true) (cs : List Character) :
    trimEnd (trimStart (cs ++ blanks)) = trimEnd (trimStart cs) := by
  by_cases hcs : ∀ c ∈ cs, c.isIn isBlank = true
  · -- All of it is white space, so nothing is left of either.
    have hnil : trimStart cs = [] := List.dropWhile_eq_nil_iff.mpr hcs
    rw [trimStart_blank_append hcs, hnil, ← List.append_nil blanks, trimStart_blank_append h]
    rfl
  · have hne : trimStart cs ≠ [] := fun hnil => hcs (List.dropWhile_eq_nil_iff.mp hnil)
    rw [trimStart, List.dropWhile_append, ← trimStart, if_neg (by simpa using hne),
      trimEnd_append_blank h]

theorem IsTrimmed.trimStart_eq
    {cs : List Character} (h : IsTrimmed cs) :
    trimStart cs = cs := by
  cases cs with
  | nil => rfl
  | cons c cs => exact trimStart_of_not_blank (h.head c rfl) cs

theorem IsTrimmed.trimEnd_eq
    {cs : List Character} (h : IsTrimmed cs) :
    trimEnd cs = cs := by
  have hreverse : IsTrimmed cs.reverse := by
    refine ⟨?_, ?_⟩
    · rw [List.head?_reverse]
      exact h.last
    · rw [List.getLast?_reverse]
      exact h.head
  rw [trimEnd, ← trimStart, hreverse.trimStart_eq, List.reverse_reverse]

/-- White space around a trimmed text is what trimming takes away. -/
theorem IsTrimmed.trim_eq
    {cs : List Character} (h : IsTrimmed cs) {front behind : List Character}
    (hfront : ∀ c ∈ front, c.isIn isBlank = true) (hbehind : ∀ c ∈ behind, c.isIn isBlank = true) :
    trimEnd (trimStart (front ++ (cs ++ behind))) = cs := by
  rw [trimStart_blank_append hfront, trimEnd_trimStart_append_blank hbehind, h.trimStart_eq,
    h.trimEnd_eq]

/-- Trimming the end takes away white space. -/
theorem exists_trimEnd_append
    (cs : List Character) :
    ∃ blanks, (∀ c ∈ blanks, c.isIn isBlank = true) ∧ trimEnd cs ++ blanks = cs := by
  refine ⟨(cs.reverse.takeWhile (Character.isIn isBlank)).reverse, fun c hc => ?_, ?_⟩
  · exact List.mem_takeWhile_imp (List.mem_reverse.mp hc)
  · rw [trimEnd, ← List.reverse_append, List.takeWhile_append_dropWhile, List.reverse_reverse]

/-- White space behind a text takes no line away that ends with another character. -/
theorem mem_lines_of_mem_append
    {cs blanks line : List Character} (hblanks : ∀ c ∈ blanks, c.isIn isBlank = true)
    (hline : line ∈ lines (cs ++ blanks)) {c : Character} (hlast : line.getLast? = some c)
    (hc : c.isIn isBlank = false) :
    line ∈ lines cs := by
  obtain ⟨before, last, hlines, hbreak, happend⟩ := lines_append cs
  obtain ⟨first, more, hmore, hjoined⟩ := lines_append_of_newline_notMem hbreak blanks
  have hend : ∀ piece ∈ first :: more, piece.getLast? ≠ some c := by
    intro piece hpiece hpieceLast
    have hmem := mem_of_mem_lines (hmore ▸ hpiece) (List.mem_of_getLast? hpieceLast)
    rw [hblanks c hmem] at hc
    cases hc
  rw [happend, hjoined, List.mem_append, List.mem_cons] at hline
  rw [hlines, List.mem_append, List.mem_singleton]
  obtain hbefore | rfl | hrest := hline
  · exact .inl hbefore
  · -- The white space behind the last line is no part of it.
    cases first with
    | nil => exact .inr (List.append_nil last)
    | cons d first =>
      rw [List.getLast?_append_of_ne_nil _ (List.cons_ne_nil d first)] at hlast
      exact absurd hlast (hend _ List.mem_cons_self)
  · exact absurd hlast (hend line (List.mem_cons_of_mem first hrest))

end EntityDiagram.Text
