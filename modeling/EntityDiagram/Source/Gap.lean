import EntityDiagram.Source.Fault
import EntityDiagram.Text.Blank

/-!
# Gaps between tokens

A gap is a run of white space, line comments and block comments. Reading it yields the lead of the
token behind it. Only block comments that start with a second star, and are not just `/**/`, are
documentation and kept.
-/

namespace EntityDiagram.Source

/-- The body of a block comment and the text behind its end. -/
def commentBody : List Char → Option (List Char × List Char)
  | [] => none
  | c :: rest =>
    match c, rest with
    | '*', '/' :: behind => some ([], behind)
    | _, _ => (commentBody rest).map fun (body, behind) => (c :: body, behind)

/-- A block comment from its first to its last character. -/
def blockComment (body : List Char) : List Char :=
  '/' :: '*' :: body ++ ['*', '/']

/-- A block comment with this body documents what follows. -/
def isDocumentation (body : List Char) : Bool :=
  body.head? == some '*'

/-- The lead after one more block comment. -/
def Lead.afterComment (lead : Lead) (body : List Char) : Lead where
  position := lead.position.after (blockComment body)
  newline := lead.newline || body.contains '\n'
  docs := if isDocumentation body then lead.docs ++ [String.ofList (blockComment body)] else lead.docs

theorem commentBody_length
    {cs body behind : List Char}
    (h : commentBody cs = some (body, behind)) :
    behind.length < cs.length := by
  induction cs generalizing body with
  | nil => simp [commentBody] at h
  | cons c rest ih =>
    unfold commentBody at h
    split at h
    · simp only [Option.some.injEq, Prod.mk.injEq] at h
      simp only [← h.2, List.length_cons]
      omega
    · obtain ⟨found, hfound, heq⟩ := Option.map_eq_some_iff.mp h
      have hlt := @ih found.1 (by rw [hfound, ← (Prod.mk.inj heq).2])
      simp only [List.length_cons]
      omega

theorem length_dropWhile_le
    (p : Char → Bool) (cs : List Char) :
    (cs.dropWhile p).length ≤ cs.length :=
  (List.dropWhile_sublist p).length_le

/-- Reads a gap that continues after the given lead; what is left starts with a lexeme or is
empty. -/
def readGap (lead : Lead) (cs : List Char) : Except SourceError (Lead × List Char) :=
  match cs with
  | [] => .ok (lead, [])
  | c :: rest =>
    if c = '\n' then
      readGap { lead with position := lead.position.nextLine, newline := true } rest
    else if Text.isBlank c then
      readGap { lead with position := lead.position.right 1 } rest
    else if c = '/' ∧ rest.head? = some '/' then
      let width := ((c :: rest).takeWhile (· ≠ '\n')).length
      readGap { lead with position := lead.position.right width } (rest.dropWhile (· ≠ '\n'))
    else if c = '/' ∧ rest.head? = some '*' then
      match _h : commentBody rest.tail with
      | none => .error ⟨.unterminatedComment, lead.position⟩
      | some (body, behind) => readGap (lead.afterComment body) behind
    else .ok (lead, c :: rest)
termination_by cs.length
decreasing_by
  · simp
  · simp
  · have := length_dropWhile_le (· ≠ '\n') rest
    simp only [List.length_cons]
    omega
  · have := commentBody_length _h
    simp only [List.length_tail, List.length_cons] at *
    omega

theorem readGap_length
    {lead lead' : Lead} {cs behind : List Char}
    (h : readGap lead cs = .ok (lead', behind)) :
    behind.length ≤ cs.length := by
  fun_induction readGap lead cs with
  | case1 => simp_all
  | case2 lead rest ih => have := ih h; simp; omega
  | case3 lead c rest _ _ ih => have := ih h; simp; omega
  | case4 lead c rest _ _ _ width ih =>
    have := ih h
    have := length_dropWhile_le (· ≠ '\n') rest
    simp only [List.length_cons]
    omega
  | case5 => simp at h
  | case6 lead c rest _ _ _ _ body behind' hbody ih =>
    have := ih h
    have := commentBody_length hbody
    simp only [List.length_tail, List.length_cons] at *
    omega
  | case7 => simp_all

end EntityDiagram.Source
