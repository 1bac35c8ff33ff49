import EntityDiagram.Proofs.Declaration.Concatenation

/-!
# Declarations between skipped code

A list of tokens made of blocks, each on lines of its own, is read block by block. A block that
spells one declaration gives that declaration, however much code is skipped around it; a block of
other code gives one statement of which only the first word is known.
-/

namespace EntityDiagram.Declaration

open Source (Lead Lexeme Token)

/-! ## Blocks -/

/-- The words that a block with a declaration may start with. -/
def declarationStarts : List String :=
  ["export", "declare", "interface", "type"]

/-- On its own the block spells one interface, or one type alias and ends with a semicolon. -/
structure IsDeclaration (block : List Token) (statement : Statement) : Prop where
  starts : oneOfAt block 0 declarationStarts = true
  read : Statement.listOfTokens block = .ok [statement]
  closed : (∃ declaration, statement = .interface declaration) ∨
    (∃ declaration, statement = .alias declaration) ∧
      ∃ last ∈ block.getLast?, last.lexeme = .punct ";"

/-- In front of `rest` the block is skipped as one statement that starts with the word. Its brackets
match, and it shows neither an end before its last token nor, behind its first, a line on which a
new statement may start. -/
structure IsSkipped (block rest : List Token) (word : String) : Prop where
  starts : nameAt? block 0 = some word
  keyword : word ∈ statementKeywords
  undeclared : declarationAhead? (block ++ rest) = none
  nonneg : ∀ offset < block.length, 0 ≤ balance (block.take offset)
  balanced : balance block = 0
  semicolon : ∀ offset < block.length, balance (block.take offset) = 0 →
    markAt block offset ";" = true → offset + 1 = block.length
  keywords : ∀ offset < block.length, 0 < offset → balance (block.take offset) = 0 →
    onNewLine (block.drop offset) = true → oneOfAt block offset statementKeywords = false
  declarations : opensScope block = false → ∀ offset < block.length, 0 < offset →
    0 < balance (block.take offset) → onNewLine (block.drop offset) = true →
    declarationAhead? ((block ++ rest).drop offset) = none

/-- The tokens are blocks that spell these statements, and every block but the first starts on a new
line. -/
inductive Blocks : List Token → List Statement → Prop
  | nil : Blocks [] []
  | declaration {block rest : List Token} {statement : Statement} {statements : List Statement}
      (hblock : IsDeclaration block statement) (hline : rest = [] ∨ onNewLine rest = true)
      (hrest : Blocks rest statements) :
    Blocks (block ++ rest) (statement :: statements)
  | skipped {block rest : List Token} {word : String} {statements : List Statement}
      (hblock : IsSkipped block rest word) (hline : rest = [] ∨ onNewLine rest = true)
      (hrest : Blocks rest statements) :
    Blocks (block ++ rest) (.other (some word) :: statements)

section Blocks

variable {block rest tokens : List Token} {word : String}

theorem exists_cons_of_nameAt?
    (h : nameAt? tokens 0 = some word) :
    ∃ lead rest, tokens = ⟨.ident word, lead⟩ :: rest := by
  match tokens with
  | [] => simp [nameAt?] at h
  | ⟨lexeme, lead⟩ :: rest =>
    cases lexeme with
    | ident name =>
      obtain rfl : name = word := Option.some.inj h
      exact ⟨lead, rest, rfl⟩
    | _ => simp [nameAt?] at h

theorem exists_nameAt?_of_oneOfAt
    {names : List String} (h : oneOfAt tokens 0 names = true) :
    ∃ word ∈ names, nameAt? tokens 0 = some word := by
  rw [oneOfAt, Option.any_eq_true] at h
  obtain ⟨word, hword, hmem⟩ := h
  exact ⟨word, List.contains_iff_mem.mp hmem, hword⟩

/-! ## Declarations -/

/-- Tokens without a statement are semicolons. -/
theorem endsClosed_of_nil
    (hread : Statement.listOfTokens tokens = .ok []) (hne : tokens ≠ []) :
    EndsClosed tokens := by
  induction tokens with
  | nil => exact absurd rfl hne
  | cons token rest ih =>
    by_cases hstart : markAt (token :: rest) 0 ";" = true
    · obtain ⟨lexeme, lead⟩ := token
      obtain rfl := Option.some.inj (Parse.markAt_eq_true_iff.mp hstart)
      rw [Statement.listOfTokens_semicolon] at hread
      by_cases hrest : rest = []
      · subst hrest
        exact .semicolon
      · exact .behindSemicolon (ih hread hrest)
    · rw [Bool.not_eq_true] at hstart
      obtain ⟨_, _, _, -, -, heq⟩ := Statement.listOfTokens_eq_ok hstart hne hread
      cases heq

theorem IsDeclaration.endsClosed
    {statement : Statement} (h : IsDeclaration block statement) :
    EndsClosed block := by
  obtain ⟨word, -, hword⟩ := exists_nameAt?_of_oneOfAt h.starts
  obtain ⟨lead, more, rfl⟩ := exists_cons_of_nameAt? hword
  have hstart : markAt (⟨.ident word, lead⟩ :: more) 0 ";" = false := by simp [markAt]
  obtain ⟨first, rest, others, hfirst, hothers, heq⟩ :=
    Statement.listOfTokens_eq_ok hstart (List.cons_ne_nil _ _) h.read
  obtain ⟨rfl, rfl⟩ := List.cons.inj heq
  by_cases hrest : rest = []
  · subst hrest
    refine .closing hstart hfirst ?_
    obtain ⟨_, rfl⟩ | ⟨⟨_, rfl⟩, last, hlast, hsemicolon⟩ := h.closed
    · exact .interface
    · exact .typeAlias hlast hsemicolon
  · exact .behindStatement hstart hfirst (endsClosed_of_nil hothers hrest)

/-! ## Skipped blocks -/

theorem balance_append
    (front behind : List Token) :
    balance (front ++ behind) = balance front + balance behind := by
  induction front with
  | nil =>
    rw [List.nil_append, balance]
    omega
  | cons token front ih =>
    rw [List.cons_append, balance, balance, ih]
    omega

theorem balance_take_succ
    {offset : Nat} (hoffset : offset < block.length) :
    balance (block.take (offset + 1)) =
      balance (block.take offset) + turn block[offset].lexeme := by
  rw [List.take_succ_eq_append_getElem hoffset, balance_append, balance, balance]
  omega

/-- As long as brackets do not close before they open, the depth is the balance. -/
theorem depthBehind?_eq_some
    {depth : Nat} {lexeme : Lexeme} (hnonneg : 0 ≤ depth + turn lexeme)
    (hopen : ¬(lexeme = .punct ";" ∧ depth = 0)) :
    depthBehind? depth lexeme = some (depth + turn lexeme).toNat := by
  unfold turn at hnonneg ⊢
  unfold depthBehind?
  split_ifs at hnonneg ⊢ with hopens hcloses
  · exact congrArg some (by omega)
  · exact congrArg some (by omega)
  · exact congrArg some (by omega)

theorem lexemeAt?_append
    {offset : Nat} {lexeme : Lexeme} (h : lexemeAt? tokens offset = some lexeme)
    (rest : List Token) :
    lexemeAt? (tokens ++ rest) offset = some lexeme := by
  rw [lexemeAt?, Option.map_eq_some_iff] at h ⊢
  obtain ⟨token, htoken, hlexeme⟩ := h
  obtain ⟨hoffset, -⟩ := List.getElem?_eq_some_iff.mp htoken
  exact ⟨token, by rw [List.getElem?_append_left hoffset, htoken], hlexeme⟩

theorem modifierCount_append
    {lexeme : Lexeme} (h : lexemeAt? tokens (modifierCount tokens) = some lexeme)
    (rest : List Token) :
    modifierCount (tokens ++ rest) = modifierCount tokens := by
  induction tokens with
  | nil => simp at h
  | cons token more ih =>
    simp only [modifierCount] at h
    simp only [List.cons_append, modifierCount]
    split
    · split
      · rename_i hlexeme hmodifier
        simp only [hlexeme, hmodifier] at h
        rw [ih h]
      · rfl
    · rfl

/-- A block that opens a scope opens it as well where something follows it. -/
theorem opensScope_append
    (rest : List Token) (h : opensScope tokens = true) :
    opensScope (tokens ++ rest) = true := by
  rw [opensScope, Option.any_eq_true] at h ⊢
  obtain ⟨lexeme, hlexeme, hscope⟩ := h
  refine ⟨lexeme, ?_, hscope⟩
  rw [modifierCount_append hlexeme, lexemeAt?_append hlexeme]

/-- The tokens end, or a new statement starts on a new line. -/
def Resumes (rest : List Token) : Prop :=
  rest = [] ∨ onNewLine rest = true ∧ oneOfAt rest 0 statementKeywords = true

theorem Resumes.skipFrom_eq
    (h : Resumes rest) (inScope : Bool) :
    skipFrom inScope 0 rest = rest := by
  match rest with
  | [] => rfl
  | token :: more =>
    obtain ⟨hline, hword⟩ := h.resolve_left (List.cons_ne_nil _ _)
    obtain ⟨word, -, hname⟩ := exists_nameAt?_of_oneOfAt hword
    have hresume : resumesAt inScope 0 (token :: more) = true := by
      simp [resumesAt, hline, hword, identAt, hname]
    rw [skipFrom, if_pos hresume]

theorem IsSkipped.nonneg_take
    (h : IsSkipped block rest word) {offset : Nat} (hoffset : offset ≤ block.length) :
    0 ≤ balance (block.take offset) := by
  obtain hlt | rfl := Nat.lt_or_eq_of_le hoffset
  · exact h.nonneg offset hlt
  · exact Int.le_of_eq (by rw [List.take_length, h.balanced])

/-- Inside of a skipped block no new statement starts. -/
theorem IsSkipped.resumesAt_eq
    (h : IsSkipped block rest word) {inScope : Bool}
    (hscope : opensScope block = true → inScope = true) {offset : Nat} (hpos : 0 < offset)
    (hoffset : offset < block.length) :
    resumesAt inScope (balance (block.take offset)).toNat ((block ++ rest).drop offset) =
      false := by
  have hnonneg := h.nonneg_take (Nat.le_of_lt hoffset)
  have hline : onNewLine ((block ++ rest).drop offset) = onNewLine (block.drop offset) := by
    simp only [onNewLine, List.head?_drop, List.getElem?_append_left hoffset]
  have hword : oneOfAt ((block ++ rest).drop offset) 0 = oneOfAt block offset := by
    funext names
    simp only [oneOfAt, nameAt?, lexemeAt?, List.getElem?_drop, Nat.add_zero,
      List.getElem?_append_left hoffset]
  rw [← Bool.not_eq_true]
  intro hresume
  simp only [resumesAt, hline, hword, Bool.and_eq_true, Bool.or_eq_true, beq_iff_eq, bne_iff_ne,
    Bool.not_eq_true'] at hresume
  obtain ⟨⟨hnew, -⟩, ⟨hzero, hkeyword⟩ | ⟨⟨hdepth, hinScope⟩, hdeclared⟩⟩ := hresume
  · have hkeywords := h.keywords offset hoffset hpos (by omega) hnew
    rw [hkeyword] at hkeywords
    cases hkeywords
  · have hclosed : opensScope block = false := by
      rw [← Bool.not_eq_true]
      intro hopens
      rw [hscope hopens] at hinScope
      cases hinScope
    rw [h.declarations hclosed offset hoffset hpos (by omega) hnew] at hdeclared
    cases hdeclared

/-- Skipping that has arrived in a skipped block ends behind the block. -/
theorem IsSkipped.skipFrom_eq
    (h : IsSkipped block rest word) (hrest : Resumes rest) {inScope : Bool}
    (hscope : opensScope block = true → inScope = true) {offset : Nat} (hpos : 0 < offset)
    (hoffset : offset ≤ block.length) :
    skipFrom inScope (balance (block.take offset)).toNat ((block ++ rest).drop offset) = rest := by
  -- The induction is on what remains of the block, and the depth is the balance of what does not.
  obtain ⟨remaining, hremaining⟩ := Nat.exists_eq_add_of_le hoffset
  induction remaining generalizing offset with
  | zero =>
    obtain rfl : block.length = offset := hremaining
    rw [List.take_length, h.balanced, List.drop_left]
    exact hrest.skipFrom_eq inScope
  | succ remaining ih =>
    have hlt : offset < block.length := by omega
    have hlt' : offset < (block ++ rest).length := by
      rw [List.length_append]
      omega
    have hdrop : (block ++ rest).drop offset =
        block[offset] :: (block ++ rest).drop (offset + 1) := by
      rw [List.drop_eq_getElem_cons hlt', List.getElem_append_left hlt]
    have hresume := h.resumesAt_eq hscope hpos hlt
    rw [hdrop] at hresume ⊢
    rw [skipFrom, if_neg (by simp [hresume])]
    have hdepth := h.nonneg_take hoffset
    have hdepth' : 0 ≤ balance (block.take (offset + 1)) := h.nonneg_take hlt
    have hbalance := balance_take_succ hlt
    by_cases hend : block[offset].lexeme = .punct ";" ∧ (balance (block.take offset)).toNat = 0
    · -- The semicolon outside of brackets is the last token of the block.
      have hmark : markAt block offset ";" = true := by
        rw [Parse.markAt_eq_true_iff, lexemeAt?, List.getElem?_eq_getElem hlt, Option.map_some,
          hend.1]
      have hlast := h.semicolon offset hlt (by omega) hmark
      have hnone : depthBehind? (balance (block.take offset)).toNat block[offset].lexeme =
          none := by
        rw [hend.1, hend.2]
        rfl
      rw [hnone, hlast, List.drop_left]
    · have hnext := depthBehind?_eq_some (by omega) hend
      rw [Int.toNat_of_nonneg hdepth, ← hbalance] at hnext
      rw [hnext]
      exact ih (Nat.succ_pos _) (Nat.succ_le_of_lt hlt) (by omega)

/-- A skipped block is one statement, in front of the tokens behind it. -/
theorem IsSkipped.first_eq
    (h : IsSkipped block rest word) (hrest : Resumes rest) :
    Statement.first (block ++ rest) = .ok (.other (some word), rest) := by
  obtain ⟨lead, more, rfl⟩ := exists_cons_of_nameAt? h.starts
  have hskip : skipStatement (⟨.ident word, lead⟩ :: more ++ rest) = rest :=
    h.skipFrom_eq hrest (opensScope_append rest) Nat.one_pos (Nat.succ_pos _)
  rw [Statement.first, Parse.statement_of_other _ h.undeclared, hskip]
  rfl

/-! ## Files of blocks -/

theorem Blocks.resumes
    {statements : List Statement} (h : Blocks tokens statements)
    (hline : tokens = [] ∨ onNewLine tokens = true) :
    Resumes tokens := by
  have hresumes : ∀ {block rest word}, nameAt? block 0 = some word → word ∈ statementKeywords →
      (block ++ rest = [] ∨ onNewLine (block ++ rest) = true) → Resumes (block ++ rest) := by
    intro block rest word hword hkeyword
    obtain ⟨lead, more, rfl⟩ := exists_cons_of_nameAt? hword
    exact Or.imp_right fun hline => ⟨hline, List.contains_iff_mem.mpr hkeyword⟩
  cases h with
  | nil => exact .inl rfl
  | declaration hblock _ _ =>
    obtain ⟨word, hmem, hword⟩ := exists_nameAt?_of_oneOfAt hblock.starts
    have hkeyword : ∀ word ∈ declarationStarts, word ∈ statementKeywords := by decide
    exact hresumes hword (hkeyword word hmem) hline
  | skipped hblock _ _ => exact hresumes hblock.starts hblock.keyword hline

/-- Reading gives one statement for each block, in order: the declaration of a block that spells
one, and the first word of a skipped one. -/
theorem listOfTokens_of_blocks
    {statements : List Statement} (h : Blocks tokens statements) :
    Statement.listOfTokens tokens = .ok statements := by
  induction h with
  | nil => rfl
  | declaration hblock hline hrest ih =>
    rw [hblock.endsClosed.listOfTokens_append _ hblock.read, ih]
    rfl
  | @skipped block rest word statements hblock hline hrest ih =>
    have hfirst := hblock.first_eq (hrest.resumes hline)
    obtain ⟨lead, more, rfl⟩ := exists_cons_of_nameAt? hblock.starts
    have hstart : markAt (⟨.ident word, lead⟩ :: more ++ rest) 0 ";" = false := by simp [markAt]
    rw [Statement.listOfTokens_statement hstart (List.cons_ne_nil _ _), hfirst, Parse.ok_bind, ih]
    rfl

end Blocks

/-! ### An example with two declarations and two skipped blocks -/

def functionBlock : List Token :=
  tokensOnNewLine [.ident "function", .ident "load", .punct "(", .punct ")", .punct "\x7b",
    .punct "\x7d"]

def orderBlock : List Token :=
  tokensOnNewLine [.ident "interface", .ident "Order", .punct "\x7b", .ident "key", .punct ":",
    .ident "Key", .punct "\x7d"]

/-- A namespace, and in it an interface on a line of its own. -/
def namespaceBlock : List Token :=
  tokensOnNewLine [.ident "namespace", .ident "Sales", .punct "\x7b"] ++
    tokensOnNewLine [.ident "interface", .ident "Hidden", .punct "\x7b", .punct "\x7d"] ++
      tokensOnNewLine [.punct "\x7d"]

def keyBlock : List Token :=
  tokensOnNewLine [.ident "type", .ident "Key", .punct "=", .ident "string", .punct ";"]

def orderInterface : Interface where
  name := "Order"
  members := [.property "key" .identifier (some (.reference "Key" [])) false false none]

def keyAlias : Alias where
  name := "Key"
  type := .keyword "string"

theorem listOfTokens_exampleBlocks :
    Blocks (functionBlock ++ (orderBlock ++ (namespaceBlock ++ (keyBlock ++ []))))
        [.other (some "function"), .interface orderInterface, .other (some "namespace"),
          .alias keyAlias] ∧
      Statement.listOfTokens
          (functionBlock ++ (orderBlock ++ (namespaceBlock ++ (keyBlock ++ [])))) =
        .ok [.other (some "function"), .interface orderInterface, .other (some "namespace"),
          .alias keyAlias] := by
  have hkey : IsDeclaration keyBlock (.alias keyAlias) :=
    ⟨rfl, rfl, .inr ⟨⟨keyAlias, rfl⟩, _, rfl, rfl⟩⟩
  have hnamespace : IsSkipped namespaceBlock (keyBlock ++ []) "namespace" :=
    ⟨rfl, by decide, rfl, by decide, by decide, by decide, by decide, by decide⟩
  have horder : IsDeclaration orderBlock (.interface orderInterface) :=
    ⟨rfl, rfl, .inl ⟨orderInterface, rfl⟩⟩
  have hfunction : IsSkipped functionBlock (orderBlock ++ (namespaceBlock ++ (keyBlock ++ [])))
      "function" :=
    ⟨rfl, by decide, rfl, by decide, by decide, by decide, by decide, by decide⟩
  have hblocks := Blocks.skipped hfunction (.inr rfl) (.declaration horder (.inr rfl)
    (.skipped hnamespace (.inr rfl) (.declaration hkey (.inl rfl) .nil)))
  exact ⟨hblocks, listOfTokens_of_blocks hblocks⟩

end EntityDiagram.Declaration
