import EntityDiagram.Proofs.Declaration.MemberFollowing

/-!
# Primary types follow each other

Types that start with a mark or a word of their own. The types inside of them are read by readers
that need to follow each other only where fewer tokens are left.
-/

namespace EntityDiagram.Declaration

open Source (Lead Lexeme Token)

namespace Parse

variable {keep : DocsMap} {behind tokens tokens' : List Token} {bound : Nat}
  {type type' : TypeReader}

/-! ## Looking for an arrow -/

theorem arrowBehindBrackets_of_true
    {depth : Nat} (h : Continues keep behind tokens tokens')
    (harrow : arrowBehindBrackets depth tokens = true) :
    arrowBehindBrackets depth tokens' = true := by
  induction h generalizing depth with
  | ending => simp [arrowBehindBrackets] at harrow
  | @token token token' rest rest' halike _ hrest ih =>
    unfold arrowBehindBrackets at harrow ⊢
    rw [halike.lexeme]
    split
    · rw [if_pos ‹_›] at harrow
      exact ih harrow
    · rw [if_neg ‹_›] at harrow
      split
      · rw [if_pos ‹_›] at harrow
        split
        · rw [if_pos ‹_›] at harrow
          rw [markAt_zero_eq hrest _ (.inr ?_)]
          · exact harrow
          · rintro rfl
            simp [markAt] at harrow
        · rw [if_neg ‹_›] at harrow
          exact ih harrow
      · rw [if_neg ‹_›] at harrow
        exact ih harrow

/-- Where the open brackets are closed in front of tokens that are left, the search ends there. -/
theorem arrowBehindBrackets_eq
    {depth : Nat} (h : Continues keep behind tokens tokens') {left : List Token}
    (hclosed : behind = [] ∨ left <:+ tokens ∧ left ≠ [] ∧ 0 < depth ∧
      balance tokens + depth ≤ balance left) :
    arrowBehindBrackets depth tokens' = arrowBehindBrackets depth tokens := by
  induction h generalizing depth with
  | ending =>
    obtain rfl | ⟨hleft, hne, -⟩ := hclosed
    · rfl
    · exact absurd (List.suffix_nil.mp hleft) hne
  | @token token token' rest rest' halike _ hrest ih =>
    -- The tokens that are left come only behind the token that closes the brackets.
    have hclosed' : behind = [] ∨ left <:+ rest ∧ left ≠ [] ∧ 0 < depth ∧
        turn token.lexeme + balance rest + depth ≤ balance left := by
      refine hclosed.imp_right ?_
      rintro ⟨hleft, hne, hdepth, hbalance⟩
      obtain rfl | hleft := List.suffix_cons_iff.mp hleft
      · omega
      · exact ⟨hleft, hne, hdepth, hbalance⟩
    unfold arrowBehindBrackets
    rw [halike.lexeme]
    unfold turn at hclosed'
    split
    · refine ih (hclosed'.imp_right ?_)
      rintro ⟨hleft, hne, hdepth, hbalance⟩
      rw [if_pos ‹_›] at hbalance
      exact ⟨hleft, hne, Nat.succ_pos _, by omega⟩
    · rw [if_neg ‹_›] at hclosed'
      split
      · rw [if_pos ‹_›] at hclosed'
        split
        · refine markAt_zero_eq hrest _ (hclosed'.imp_right ?_)
          rintro ⟨hleft, hne, -⟩ rfl
          exact hne (List.suffix_nil.mp hleft)
        · refine ih (hclosed'.imp_right ?_)
          rintro ⟨hleft, hne, hdepth, hbalance⟩
          exact ⟨hleft, hne, by omega, by omega⟩
      · rw [if_neg ‹_›] at hclosed'
        refine ih (hclosed'.imp_right ?_)
        rintro ⟨hleft, hne, hdepth, hbalance⟩
        exact ⟨hleft, hne, hdepth, by omega⟩

theorem functionTypeAhead_cons
    (lead : Lead) (rest : List Token) :
    functionTypeAhead (⟨.punct "(", lead⟩ :: rest) =
      (markAt rest 0 ")" || markAt rest 0 "..." || arrowBehindBrackets 1 rest) :=
  rfl

/-! ## Function types and mapped types -/

theorem functionType_follows
    (htype : TypesFollow keep behind bound type type') (isConstructor : Bool)
    (hbound : tokens.length ≤ bound) (h : Continues keep behind tokens tokens') :
    Follows keep behind 1 0 false (TypeExpr.mapDocs keep) tokens
      (functionType type isConstructor tokens) (functionType type' isConstructor tokens') := by
  refine .weaken (.bind (typeParameters_follows htype hbound h) fun _ _ _ _ _ hleft hlength =>
    .bind (parameters_follows htype (by omega) hleft)
      fun params params' _ _ hparams hclosed hlength₁ =>
    .bind (expect_follows (by decide) hclosed) fun _ _ _ _ _ harrow hlength₂ =>
    .bind (result_follows htype (by omega) harrow) fun result result' _ _ hresult hrest _ =>
    .pure ?_ hrest) (by decide)
  simp only [TypeExpr.mapDocs, Parameter.mapDocsAll_eq, TypeExpr.mapDocs?_eq, Option.map_some,
    hparams, hresult]

/-- A type in parentheses. -/
def parenthesizedType (type : TypeReader) : Parse TypeExpr := do
  skip 1
  let inner ← type true
  expect ")"
  return .parenthesized inner

theorem parenthesizedType_follows
    (htype : TypesFollow keep behind bound type type') (lead lead' : Lead) {rest rest' : List Token}
    (hbound : rest.length < bound) (hrest : Continues keep behind rest rest') :
    Follows keep behind 1 0 false (TypeExpr.mapDocs keep) (⟨.punct "(", lead⟩ :: rest)
      (parenthesizedType type (⟨.punct "(", lead⟩ :: rest))
      (parenthesizedType type' (⟨.punct "(", lead'⟩ :: rest')) := by
  refine .weaken (.skip (.bind (htype true hbound hrest) fun inner inner' _ _ hinner hclosed _ =>
    .bind (expect_follows (by decide) hclosed) fun _ _ _ _ _ hleft _ => .pure ?_ hleft) (by simp))
      (by decide)
  simp only [TypeExpr.mapDocs, hinner]

theorem markedType_parenthesis
    (type : TypeReader) (lead : Lead) (rest : List Token) :
    markedType type "(" (⟨.punct "(", lead⟩ :: rest) =
      (if functionTypeAhead (⟨.punct "(", lead⟩ :: rest) then functionType type false
      else parenthesizedType type) (⟨.punct "(", lead⟩ :: rest) :=
  rfl

/-- A function type or a type in parentheses. The search for the arrow may look beyond the type, but
not where the type has been read up to tokens that are left. -/
theorem markedType_parenthesis_follows
    (htype : TypesFollow keep behind bound type type') {lead lead' : Lead} {rest rest' : List Token}
    (hbound : rest.length < bound)
    (h : Continues keep behind (⟨.punct "(", lead⟩ :: rest) (⟨.punct "(", lead'⟩ :: rest')) :
    Follows keep behind 1 0 false (TypeExpr.mapDocs keep) (⟨.punct "(", lead⟩ :: rest)
      (markedType type "(" (⟨.punct "(", lead⟩ :: rest))
      (markedType type' "(" (⟨.punct "(", lead'⟩ :: rest')) := by
  have hrest := h.rest_of_cons
  have hlive : Live behind rest := h.live_rest (by simp [IsFinal])
  rw [markedType_parenthesis, markedType_parenthesis]
  cases hahead : functionTypeAhead (⟨.punct "(", lead⟩ :: rest) with
  | true =>
    have hahead' : functionTypeAhead (⟨.punct "(", lead'⟩ :: rest') = true := by
      rw [functionTypeAhead_cons, Bool.or_eq_true] at hahead ⊢
      rw [markAt_zero_eq hrest _ hlive, markAt_zero_eq hrest _ hlive]
      exact hahead.imp_right (arrowBehindBrackets_of_true hrest)
    rw [hahead', if_pos rfl, if_pos rfl]
    exact functionType_follows htype false hbound h
  | false =>
    have hfollows := parenthesizedType_follows htype lead lead' hbound hrest
    have hagree : ∀ left : List Token, (behind = [] ∨ left <:+ rest ∧ left ≠ [] ∧ 0 < 1 ∧
        balance rest + 1 ≤ balance left) →
        functionTypeAhead (⟨.punct "(", lead'⟩ :: rest') = false := by
      intro left hclosed
      rw [← hahead, functionTypeAhead_cons, functionTypeAhead_cons, markAt_zero_eq hrest _ hlive,
        markAt_zero_eq hrest _ hlive, arrowBehindBrackets_eq hrest hclosed]
    rw [if_neg (by simp)]
    refine hfollows.of_eq (fun hbehind => ?_) fun value left hok hne => ?_
    · rw [hagree [] (.inl hbehind), if_neg (by simp)]
    · -- The type was read up to `left`, so its bracket is closed in front of that.
      have hsuffix := hfollows.took.suffix value left hok
      have hlength := hfollows.took.length value left hok
      have hbalance := hfollows.took.balance value left hok hne
      have hleft : left <:+ rest := by
        obtain rfl | hleft := List.suffix_cons_iff.mp hsuffix
        · simp only [List.length_cons] at hlength
          omega
        · exact hleft
      have hturn : turn (.punct "(") = 1 := by decide
      simp only [balance, hturn] at hbalance
      rw [hagree left (.inr ⟨hleft, hne, Nat.one_pos, by omega⟩), if_neg (by simp)]

theorem optionalSign_follows
    (h : Continues keep behind tokens tokens') :
    Follows keep behind 0 0 false id tokens (optionalSign tokens) (optionalSign tokens') :=
  ifEat_follows (by decide) (by decide) h (fun _ _ _ hrest => .pure rfl hrest)
    (.weaken (.bind (eat_follows (by decide) h) fun _ _ _ _ _ hrest _ => .pure rfl hrest)
      (by decide))

/-- The clause of a mapped type that renames its keys, which is left out. -/
def dropRenaming (type : TypeReader) : Parse Unit := do
  if ← eatWord "as" then
    let _ ← type true

theorem dropRenaming_follows
    (htype : TypesFollow keep behind bound type type') (hbound : tokens.length ≤ bound)
    (h : Continues keep behind tokens tokens') :
    Follows keep behind 0 0 false id tokens (dropRenaming type tokens)
      (dropRenaming type' tokens') :=
  ifEatWord_follows h (fun _ _ hlt hrest => .weaken (.bind (htype true (by omega) hrest)
    fun _ _ _ _ _ hleft _ => .pure rfl hleft) (by decide)) (.pure rfl h)

/-- A mapped type behind the word `in`. -/
def mappedBody (type : TypeReader) (name : String) : Parse TypeExpr := do
  let keys ← type true
  dropRenaming type
  expect "]"
  optionalSign
  let _ ← eat "?"
  let value ← annotation type
  let _ ← eat ";"
  expect "\x7d"
  return .mapped name (some keys) value

theorem mappedBody_follows
    (htype : TypesFollow keep behind bound type type') (name : String)
    (hbound : tokens.length < bound) (h : Continues keep behind tokens tokens') :
    Follows keep behind 1 (-2) false (TypeExpr.mapDocs keep) tokens (mappedBody type name tokens)
      (mappedBody type' name tokens') := by
  refine .weaken (.bind (htype true hbound h) fun keys keys' _ _ hkeys hread hlength =>
    .bind (dropRenaming_follows htype (by omega) hread) fun _ _ _ _ _ hrenamed hlength₁ =>
    .bind (expect_follows (by decide) hrenamed) fun _ _ _ _ _ hclosed hlength₂ =>
    .bind (optionalSign_follows hclosed) fun _ _ _ _ _ hsigned hlength₃ =>
    .bind (eat_follows (by decide) hsigned) fun _ _ _ _ _ hmarked hlength₄ =>
    .bind (annotation_follows htype (by omega) hmarked) fun value value' _ _ hvalue hread _ =>
    .bind (eat_follows (by decide) hread) fun _ _ _ _ _ hended _ =>
    .bind (expect_follows (by decide) hended) fun _ _ _ _ _ hleft _ => .pure ?_ hleft) (by decide)
  simp only [TypeExpr.mapDocs, TypeExpr.mapDocs?_eq, Option.map_some, hkeys, hvalue]

/-- A mapped type behind its sign and the word `readonly`. -/
def mappedKey (type : TypeReader) : Parse TypeExpr := do
  expect "["
  let name ← ident
  skip 1
  mappedBody type name

theorem mappedType_eq
    (type : TypeReader) :
    mappedType type = (do
      expect "\x7b"
      optionalSign
      let _ ← eatWord "readonly"
      mappedKey type) := by
  simp only [mappedType, mappedKey, mappedBody, dropRenaming, bind_assoc]
  refine bind_congr fun _ => bind_congr fun _ => bind_congr fun _ => bind_congr fun _ =>
    bind_congr fun name => bind_congr fun _ => bind_congr fun keys => bind_congr fun found => ?_
  cases found <;> simp

/-- The key of a mapped type stands in front. -/
def keyAhead (tokens : List Token) : Bool :=
  markAt tokens 0 "[" && identAt tokens 1 && wordAt tokens 2 "in"

/-- The key of a mapped type stands in front, or behind the word `readonly`. -/
def readonlyKeyAhead (tokens : List Token) : Bool :=
  if wordAt tokens 0 "readonly" then keyAhead tokens.tail else keyAhead tokens

theorem mappedTypeAhead_cons
    (lead : Lead) (rest : List Token) :
    mappedTypeAhead (⟨.punct "\x7b", lead⟩ :: rest) =
      if markAt rest 0 "+" || markAt rest 0 "-" then readonlyKeyAhead rest.tail
      else readonlyKeyAhead rest := by
  have hmark : ∀ (tokens : List Token) offset mark,
      markAt tokens.tail offset mark = markAt tokens (offset + 1) mark := fun _ _ _ => by
    rw [markAt, lexemeAt?_tail, markAt]
  have hword : ∀ (tokens : List Token) offset word,
      wordAt tokens.tail offset word = wordAt tokens (offset + 1) word := fun _ _ _ => by
    rw [wordAt, lexemeAt?_tail, wordAt]
  have hident : ∀ (tokens : List Token) offset,
      identAt tokens.tail offset = identAt tokens (offset + 1) := fun _ _ => by
    rw [identAt, nameAt?, lexemeAt?_tail, identAt, nameAt?]
  have hcons : ∀ offset,
      identAt (⟨.punct "\x7b", lead⟩ :: rest) (offset + 1) = identAt rest offset := fun _ => rfl
  simp only [mappedTypeAhead, markAt_cons_succ, readonlyKeyAhead, keyAhead, hmark, hword, hident]
  by_cases hsign : (markAt rest 0 "+" || markAt rest 0 "-") = true
  · by_cases hreadonly : wordAt rest 1 "readonly" = true <;> simp [hsign, hreadonly, hcons]
  · by_cases hreadonly : wordAt rest 0 "readonly" = true <;> simp [hsign, hreadonly, hcons]

theorem keyAhead_eq
    (h : Continues keep behind tokens tokens') (hlive : Live behind tokens) :
    keyAhead tokens' = keyAhead tokens := by
  rw [keyAhead, keyAhead, Bool.eq_iff_iff]
  obtain ⟨hzero, ⟨_, hlexeme, rfl | rfl⟩ | ⟨hone, ⟨_, hlexeme, rfl | rfl⟩ | htwo⟩⟩ :=
    h.window hlive <;> simp [markAt, identAt, nameAt?, wordAt, *]

theorem readonlyKeyAhead_eq
    (h : Continues keep behind tokens tokens') (hlive : Live behind tokens) :
    readonlyKeyAhead tokens' = readonlyKeyAhead tokens := by
  rw [readonlyKeyAhead, readonlyKeyAhead, wordAt_zero_eq h _ hlive]
  split
  · obtain ⟨lead, lead', rest, rest', rfl, rfl, -, hopen, hrest⟩ :=
      h.exists_cons (wordAt_eq_true_iff.mp ‹_›)
    exact keyAhead_eq hrest (hopen (by simp [IsFinal]))
  · exact keyAhead_eq h hlive

theorem mappedTypeAhead_eq
    {lead lead' : Lead} {rest rest' : List Token} (hrest : Continues keep behind rest rest')
    (hlive : Live behind rest) :
    mappedTypeAhead (⟨.punct "\x7b", lead'⟩ :: rest') =
      mappedTypeAhead (⟨.punct "\x7b", lead⟩ :: rest) := by
  have hsigned : ∀ {mark : String}, ¬IsFinal (.punct mark) → markAt rest 0 mark = true →
      readonlyKeyAhead rest'.tail = readonlyKeyAhead rest.tail := by
    intro mark hmark hsign
    obtain ⟨lead, lead', more, more', rfl, rfl, -, hopen, hmore⟩ :=
      hrest.exists_cons (markAt_eq_true_iff.mp hsign)
    exact readonlyKeyAhead_eq hmore (hopen hmark)
  rw [mappedTypeAhead_cons, mappedTypeAhead_cons, markAt_zero_eq hrest _ hlive,
    markAt_zero_eq hrest _ hlive]
  split
  · rcases Bool.or_eq_true_iff.mp ‹_› with hplus | hminus
    · exact hsigned (by simp [IsFinal]) hplus
    · exact hsigned (by simp [IsFinal]) hminus
  · exact readonlyKeyAhead_eq hrest hlive

theorem mappedKey_follows
    (htype : TypesFollow keep behind bound type type') (hbound : tokens.length ≤ bound)
    (hkey : keyAhead tokens = true) (h : Continues keep behind tokens tokens') :
    Follows keep behind 1 (-1) false (TypeExpr.mapDocs keep) tokens (mappedKey type tokens)
      (mappedKey type' tokens') := by
  simp only [keyAhead, Bool.and_eq_true, markAt_eq_true_iff, identAt_iff,
    wordAt_eq_true_iff] at hkey
  obtain ⟨⟨hbracket, name, hname⟩, hin⟩ := hkey
  obtain ⟨lead, lead', rest, rest', rfl, rfl, -, -, hrest⟩ := h.exists_cons hbracket
  obtain ⟨lead, lead', rest, rest', rfl, rfl, -, -, hrest⟩ := hrest.exists_cons hname
  obtain ⟨lead, lead', rest, rest', rfl, rfl, -, -, hrest⟩ := hrest.exists_cons hin
  have hread : ∀ (type : TypeReader) (bracket lead word : Lead) (rest : List Token),
      mappedKey type (⟨.punct "[", bracket⟩ :: ⟨.ident name, lead⟩ :: ⟨.ident "in", word⟩ :: rest) =
        mappedBody type name rest := by
    intro type bracket lead word rest
    simp [mappedKey]
  rw [hread, hread]
  simp only [List.length_cons] at hbound
  exact .weaken (.step (.word (.word (mappedBody_follows htype name (by omega) hrest))) (by simp))
    (by decide)

theorem readonlyMappedKey_follows
    (htype : TypesFollow keep behind bound type type') (hbound : tokens.length ≤ bound)
    (hkey : readonlyKeyAhead tokens = true) (h : Continues keep behind tokens tokens') :
    Follows keep behind 1 (-1) false (TypeExpr.mapDocs keep) tokens
      ((eatWord "readonly" >>= fun _ => mappedKey type) tokens)
      ((eatWord "readonly" >>= fun _ => mappedKey type') tokens') := by
  cases hword : wordAt tokens 0 "readonly" with
  | true =>
    rw [readonlyKeyAhead, hword, if_pos rfl] at hkey
    obtain ⟨lead, lead', rest, rest', rfl, rfl, -, -, hrest⟩ :=
      h.exists_cons (wordAt_eq_true_iff.mp hword)
    simp only [List.length_cons] at hbound
    exact .weaken (.word (mappedKey_follows htype (by omega) hkey hrest)) (by decide)
  | false =>
    rw [readonlyKeyAhead, hword, if_neg (by simp)] at hkey
    simp only [run_bind, run_eatWord_of_false hword, ok_bind]
    refine .of_live (mappedKey_follows htype hbound hkey h) fun hlive => ?_
    rw [run_eatWord_of_false (by rw [wordAt_zero_eq h _ hlive, hword])]
    rfl

theorem optionalSign_cons
    {mark : String} (hmark : mark = "+" ∨ mark = "-") (lead : Lead) (rest : List Token) :
    optionalSign (⟨.punct mark, lead⟩ :: rest) = .ok ((), rest) := by
  obtain rfl | rfl := hmark <;> simp [optionalSign, eat]

theorem optionalSign_of_false
    {tokens : List Token} (hsign : (markAt tokens 0 "+" || markAt tokens 0 "-") = false) :
    optionalSign tokens = .ok ((), tokens) := by
  rw [Bool.or_eq_false_iff] at hsign
  simp [optionalSign, run_eat_of_false hsign.1, run_eat_of_false hsign.2]

theorem mappedType_follows
    (htype : TypesFollow keep behind bound type type') {lead lead' : Lead} {rest rest' : List Token}
    (hbound : rest.length < bound) (hrest : Continues keep behind rest rest')
    (hahead : mappedTypeAhead (⟨.punct "\x7b", lead⟩ :: rest) = true) :
    Follows keep behind 1 0 false (TypeExpr.mapDocs keep) (⟨.punct "\x7b", lead⟩ :: rest)
      (mappedType type (⟨.punct "\x7b", lead⟩ :: rest))
      (mappedType type' (⟨.punct "\x7b", lead'⟩ :: rest')) := by
  have hopened : ∀ (type : TypeReader) lead rest, mappedType type (⟨.punct "\x7b", lead⟩ :: rest) =
      (optionalSign >>= fun _ => eatWord "readonly" >>= fun _ => mappedKey type) rest := by
    intro type lead rest
    rw [mappedType_eq, run_bind, run_expect_cons]
    rfl
  rw [hopened, hopened]
  suffices hfollows : Follows keep behind 1 (-1) false (TypeExpr.mapDocs keep) rest
      ((optionalSign >>= fun _ => eatWord "readonly" >>= fun _ => mappedKey type) rest)
      ((optionalSign >>= fun _ => eatWord "readonly" >>= fun _ => mappedKey type') rest') from
    .weaken (.step hfollows (by simp)) (by decide)
  rw [mappedTypeAhead_cons] at hahead
  cases hsign : markAt rest 0 "+" || markAt rest 0 "-" with
  | true =>
    rw [hsign, if_pos rfl] at hahead
    obtain ⟨mark, hmark, hsign⟩ :
        ∃ mark, (mark = "+" ∨ mark = "-") ∧ markAt rest 0 mark = true := by
      rcases Bool.or_eq_true_iff.mp hsign with hplus | hminus
      · exact ⟨"+", .inl rfl, hplus⟩
      · exact ⟨"-", .inr rfl, hminus⟩
    obtain ⟨lead, lead', more, more', rfl, rfl, -, -, hmore⟩ :=
      hrest.exists_cons (markAt_eq_true_iff.mp hsign)
    rw [run_bind, optionalSign_cons hmark, run_bind, optionalSign_cons hmark]
    simp only [List.length_cons] at hbound
    have hturn : turn (.punct mark) = 0 := by rcases hmark with rfl | rfl <;> decide
    exact .weaken (.step (readonlyMappedKey_follows htype (by omega) hahead hmore) (by simp))
      ⟨by omega, by omega, by decide⟩
  | false =>
    rw [hsign, if_neg (by simp)] at hahead
    rw [run_bind, optionalSign_of_false hsign]
    refine .of_live (readonlyMappedKey_follows htype (by omega) hahead hrest) fun hlive => ?_
    rw [run_bind, optionalSign_of_false]
    · rfl
    · rw [markAt_zero_eq hrest _ hlive, markAt_zero_eq hrest _ hlive, hsign]

/-! ## Tuples -/

/-- The name of an element, which is left out. -/
def dropElementName : Parse Unit := do
  let tokens ← get
  if identAt tokens 0 &&
      (markAt tokens 1 ":" || (markAt tokens 1 "?" && markAt tokens 2 ":")) then
    skip 1
    let _ ← eat "?"
    expect ":"

theorem dropElementName_follows
    (h : Continues keep behind tokens tokens') :
    Follows keep behind 0 0 false id tokens (dropElementName tokens) (dropElementName tokens') := by
  apply Follows.get
  refine .ite (fun hlive => ?_) (fun hnamed => ?_) fun _ => .pure rfl h
  · rw [Bool.eq_iff_iff]
    obtain ⟨hzero, ⟨_, hlexeme, rfl | rfl⟩ | ⟨hone, ⟨_, hlexeme, rfl | rfl⟩ | htwo⟩⟩ :=
      h.window hlive <;> simp [markAt, identAt, nameAt?, *]
  · rw [Bool.and_eq_true, identAt_iff] at hnamed
    obtain ⟨⟨name, hname⟩, -⟩ := hnamed
    obtain ⟨lead, lead', rest, rest', rfl, rfl, -, -, hrest⟩ := h.exists_cons hname
    exact .weaken (.skipWord (.bind (eat_follows (by decide) hrest) fun _ _ _ _ _ hcolon _ =>
      expect_follows (by decide) hcolon)) (by decide)

theorem tupleElement_eq
    (type : TypeReader) :
    tupleElement type = do
      let _ ← eat "..."
      dropElementName
      let element ← type true
      let _ ← eat "?"
      return element := by
  simp only [tupleElement, dropElementName, bind_assoc]
  refine bind_congr fun _ => bind_congr fun tokens => ?_
  split <;> simp

theorem tupleElement_follows
    (htype : TypesFollow keep behind bound type type') :
    ItemsFollow keep behind bound 1 false (TypeExpr.mapDocs keep) (tupleElement type)
      (tupleElement type') := by
  intro tokens tokens' hbound h
  rw [tupleElement_eq, tupleElement_eq]
  exact .weaken (.bind (eat_follows (by decide) h) fun _ _ _ _ _ hleft hlength =>
    .bind (dropElementName_follows hleft) fun _ _ _ _ _ hnamed hlength₁ =>
    .bind (htype true (by omega) hnamed) fun element element' _ _ helement hread _ =>
    .bind (eat_follows (by decide) hread) fun _ _ _ _ _ hrest _ => .pure helement hrest) (by decide)

theorem tupleType_follows
    (htype : TypesFollow keep behind bound type type') (hbound : tokens.length ≤ bound)
    (h : Continues keep behind tokens tokens') :
    Follows keep behind 1 0 false (TypeExpr.mapDocs keep) tokens (tupleType type tokens)
      (tupleType type' tokens') := by
  refine .weaken (.bind (expect_follows (by decide) h) fun _ _ _ _ _ hopened hlength =>
    .bind (commaList_follows (by decide) (tupleElement_follows htype).loosen (by omega) hopened)
      fun elements elements' _ _ helements hrest _ => .pure ?_ hrest) (by decide)
  simp only [TypeExpr.mapDocs, TypeExpr.mapDocsAll_eq, helements]

/-! ## Primary types -/

/-- A numeral with its value. -/
def number (spelling : String) : Parse Literal := do
  skip 1
  numeral spelling

theorem number_follows
    {spelling : String} {lead lead' : Lead} {rest rest' : List Token}
    (hrest : Continues keep behind rest rest') :
    Follows keep behind 1 0 false id (⟨.number spelling, lead⟩ :: rest)
      (number spelling (⟨.number spelling, lead⟩ :: rest))
      (number spelling (⟨.number spelling, lead'⟩ :: rest')) := by
  have hread : ∀ lead rest, number spelling (⟨.number spelling, lead⟩ :: rest) =
      numeral spelling rest := fun _ _ => rfl
  rw [hread, hread, numeral, numeral]
  cases hvalue : Literal.ofNumeral spelling with
  | ok value => exact .plain (.pure rfl hrest) (by simp)
  | error fault =>
    exact .blame (.inr (.numeral (by simp) hvalue)) (List.suffix_cons _ _) hrest fun _ => rfl

theorem markedType_minus
    (type : TypeReader) (minus lead : Lead) (spelling : String) (rest : List Token) :
    markedType type "-" (⟨.punct "-", minus⟩ :: ⟨.number spelling, lead⟩ :: rest) =
      (do let value ← number spelling; return .literal (some value.neg) : Parse TypeExpr)
        (⟨.number spelling, lead⟩ :: rest) :=
  rfl

/-- A sign in front of anything but a number starts no type. -/
theorem markedType_minus_of_ne
    (type : TypeReader) {tokens : List Token}
    (hnumber : ∀ spelling, lexemeAt? tokens 1 ≠ some (.number spelling)) :
    markedType type "-" tokens = fail .noType tokens := by
  simp only [markedType, run_bind, run_get, ok_bind, if_true]

theorem markedType_minus_follows
    {lead lead' : Lead} {rest rest' : List Token}
    (h : Continues keep behind (⟨.punct "-", lead⟩ :: rest) (⟨.punct "-", lead'⟩ :: rest')) :
    Follows keep behind 1 0 false (TypeExpr.mapDocs keep) (⟨.punct "-", lead⟩ :: rest)
      (markedType type "-" (⟨.punct "-", lead⟩ :: rest))
      (markedType type' "-" (⟨.punct "-", lead'⟩ :: rest')) := by
  have hrest := h.rest_of_cons
  have hlive : Live behind rest := h.live_rest (by simp [IsFinal])
  by_cases hnumber : ∃ spelling, lexemeAt? rest 0 = some (.number spelling)
  · obtain ⟨spelling, hnumber⟩ := hnumber
    obtain ⟨lead, lead', more, more', rfl, rfl, -, -, hmore⟩ := hrest.exists_cons hnumber
    rw [markedType_minus, markedType_minus]
    refine .weaken (.step (.bind (number_follows hmore) fun value value' _ _ hvalue hleft _ =>
      .pure ?_ hleft) (by simp)) (by decide)
    obtain rfl : value' = value := hvalue
    rfl
  · rw [not_exists] at hnumber
    rw [markedType_minus_of_ne type hnumber, markedType_minus_of_ne]
    · exact .fail (fun _ => rfl) h
    · intro spelling
      rw [lexemeAt?_cons_succ, hrest.lexemeAt?_zero hlive]
      exact hnumber spelling

theorem markedType_follows
    (htype : TypesFollow keep behind bound type type') (mark : String) {lead lead' : Lead}
    {rest rest' : List Token} (hbound : rest.length < bound)
    (h : Continues keep behind (⟨.punct mark, lead⟩ :: rest) (⟨.punct mark, lead'⟩ :: rest')) :
    Follows keep behind 1 0 false (TypeExpr.mapDocs keep) (⟨.punct mark, lead⟩ :: rest)
      (markedType type mark (⟨.punct mark, lead⟩ :: rest))
      (markedType type' mark (⟨.punct mark, lead'⟩ :: rest')) := by
  have hrest := h.rest_of_cons
  by_cases hminus : mark = "-"
  · subst hminus
    exact markedType_minus_follows h
  by_cases hparenthesis : mark = "("
  · subst hparenthesis
    exact markedType_parenthesis_follows htype hbound h
  apply Follows.get
  rw [if_neg hminus, if_neg hparenthesis, if_neg hminus, if_neg hparenthesis]
  refine .choice (fun _ => functionType_follows htype false hbound h) fun _ =>
    .choice (fun hbrace => ?_) fun _ =>
    .choice (fun _ => tupleType_follows htype hbound h) fun _ => .fail (fun _ => rfl) h
  subst hbrace
  refine .ite (fun _ => mappedTypeAhead_eq hrest (h.live_rest (by simp [IsFinal])))
    (mappedType_follows htype hbound hrest) fun _ => ?_
  refine .weaken (.skip (.bind (members_follows htype hbound hrest)
    fun found found' _ _ hfound hleft _ => .pure ?_ hleft) (by simp)) (by decide)
  simp only [TypeExpr.mapDocs, Member.mapDocsAll_eq, hfound]

/-- The text of an imported type, where a bracket opens behind the word. -/
theorem importText_follows
    (htype : TypesFollow keep behind bound type type') {lead lead' : Lead} {rest rest' : List Token}
    (hbound : rest.length < bound) (hrest : Continues keep behind rest rest')
    (hopener : ((nextText (rest.map Token.lexeme)).string?.bind closerOf?).isSome = true) :
    Follows keep behind 1 0 false id (⟨.ident "import", lead⟩ :: rest)
      (importText type (⟨.ident "import", lead⟩ :: rest))
      (importText type' (⟨.ident "import", lead'⟩ :: rest')) := by
  cases rest with
  | nil => simp [nextText, closerOf?] at hopener
  | cons token more =>
    obtain ⟨lexeme, lead⟩ := token
    obtain ⟨lead, lead', more, more', ⟨⟩, rfl, -, -, hmore⟩ :=
      hrest.exists_cons (lexemeAt?_cons_zero ⟨lexeme, lead⟩ more)
    have hread : ∀ type : TypeReader, importText type = (do
        skip 1
        let group ← bracketedText
        let more ← dots
        let _ ← typeArguments type
        return ".".intercalate (("import" ++ group) :: more)) := fun _ => rfl
    rw [hread, hread]
    refine .weaken (.skipWord (.bind (bracketedText_follows hopener hmore)
        fun group group' _ _ hgroup hclosed hlength =>
      .bind (dots_follows hclosed) fun more more' _ _ hmore hnamed hlength₁ =>
      .bind (typeArguments_follows htype (by omega) hnamed) fun _ _ _ _ _ hleft _ =>
      .pure ?_ hleft)) (by decide)
    obtain rfl : group' = group := hgroup
    obtain rfl : more' = more := hmore
    rfl

/-- The expression behind `typeof`. -/
def queriedText (type : TypeReader) : Parse String := do
  if wordAt (← get) 0 "import" then importText type else entityName

theorem importText_of_noBracket
    (type : TypeReader) (lead : Lead) {rest : List Token}
    (hbracket : (nextText (rest.map Token.lexeme)).string?.bind closerOf? = none) :
    importText type (⟨.ident "import", lead⟩ :: rest) =
      .error ⟨.noBracket (nextText (rest.map Token.lexeme)), rest⟩ := by
  simp only [importText, run_bind, run_skip, ok_bind, List.drop_succ_cons, List.drop_zero,
    bracketedText_of_noBracket hbracket]
  rfl

theorem queriedText_follows
    (htype : TypesFollow keep behind bound type type') {lead lead' : Lead} {rest rest' : List Token}
    (hbound : rest.length ≤ bound) (hrest : Continues keep behind rest rest')
    (hlive : Live behind rest) :
    Follows keep behind 1 0 false id (⟨.ident "typeof", lead⟩ :: rest)
      ((skip 1 >>= fun _ => queriedText type) (⟨.ident "typeof", lead⟩ :: rest))
      ((skip 1 >>= fun _ => queriedText type') (⟨.ident "typeof", lead'⟩ :: rest')) := by
  cases himport : wordAt rest 0 "import" with
  | false =>
    refine .weaken (.skipWord (Follows.get (.ite (wordAt_zero_eq hrest _) (fun h => ?_)
      fun _ => entityName_follows hrest))) (by decide)
    simp [himport] at h
  | true =>
    obtain ⟨word, word', more, more', rfl, rfl, -, -, hmore⟩ :=
      hrest.exists_cons (wordAt_eq_true_iff.mp himport)
    simp only [List.length_cons] at hbound
    have hread : ∀ (type : TypeReader) (lead word : Lead) (more : List Token),
        (skip 1 >>= fun _ => queriedText type)
          (⟨.ident "typeof", lead⟩ :: ⟨.ident "import", word⟩ :: more) =
        importText type (⟨.ident "import", word⟩ :: more) := by
      intro type lead word more
      simp [queriedText]
    rw [hread, hread]
    cases hbracket : (nextText (more.map Token.lexeme)).string?.bind closerOf? with
    | none =>
      rw [importText_of_noBracket type word hbracket]
      refine .blame (.inr (.import (List.nil_append _).symm hbracket)) ?_ hmore fun hbehind => ?_
      · exact (List.suffix_cons _ _).trans (List.suffix_cons _ _)
      · subst hbehind
        rw [← hmore.lexemes_eq] at hbracket ⊢
        exact importText_of_noBracket type' word' hbracket
    | some closer =>
      have hopener : ((nextText (more.map Token.lexeme)).string?.bind closerOf?).isSome = true := by
        rw [hbracket]
        rfl
      exact .weaken (.word (importText_follows htype (by omega) hmore hopener)) (by decide)

theorem namedType_typeof
    (type : TypeReader) (lead : Lead) (rest : List Token) :
    namedType type "typeof" (⟨.ident "typeof", lead⟩ :: rest) =
      (do
        let expression ← skip 1 >>= fun _ => queriedText type
        let _ ← typeArguments type
        return .query expression : Parse TypeExpr) (⟨.ident "typeof", lead⟩ :: rest) := by
  by_cases himport : wordAt rest 0 "import" = true <;> simp [namedType, queriedText, himport]

theorem namedType_follows
    (htype : TypesFollow keep behind bound type type') (name : String) {lead lead' : Lead}
    {rest rest' : List Token} (hbound : rest.length < bound)
    (h : Continues keep behind (⟨.ident name, lead⟩ :: rest) (⟨.ident name, lead'⟩ :: rest')) :
    Follows keep behind 1 0 false (TypeExpr.mapDocs keep) (⟨.ident name, lead⟩ :: rest)
      (namedType type name (⟨.ident name, lead⟩ :: rest))
      (namedType type' name (⟨.ident name, lead'⟩ :: rest')) := by
  have hrest := h.rest_of_cons
  have hlive : Live behind rest := h.live_rest (by simp [IsFinal])
  have hquery : ∀ {text text' : String}, text' = text →
      TypeExpr.mapDocs keep (.query text') = TypeExpr.mapDocs keep (.query text) :=
    congrArg (fun text => TypeExpr.mapDocs keep (.query text))
  by_cases htypeof : name = "typeof"
  · subst htypeof
    rw [namedType_typeof, namedType_typeof]
    exact .weaken (.bind (queriedText_follows htype (by omega) hrest hlive)
        fun text text' _ _ htext hread hlength =>
      .bind (typeArguments_follows htype (by simp only [List.length_cons] at hlength; omega) hread)
        fun _ _ _ _ _ hleft _ => .pure (hquery htext) hleft) (by decide)
  apply Follows.get
  simp only [markAt_cons_succ, wordAt_cons_succ, markAt_zero_eq hrest _ hlive,
    wordAt_zero_eq hrest _ hlive, if_neg htypeof]
  refine .choice (fun _ => .skipWord (.pure rfl hrest)) fun _ =>
    .choice (fun _ => ?_) fun _ => .choice (fun habstract => ?_) fun _ =>
    .choice (fun himport => ?_) fun _ => .choice (fun _ => .skipWord (.pure rfl hrest)) fun _ => ?_
  · exact .weaken (.skipWord (functionType_follows htype true (by omega) hrest)) (by decide)
  · obtain ⟨word, word', more, more', rfl, rfl, -, -, hmore⟩ :=
      hrest.exists_cons (wordAt_eq_true_iff.mp habstract.2)
    simp only [List.length_cons] at hbound
    exact .weaken (.word (.word (functionType_follows htype true (by omega) hmore))) (by decide)
  · obtain ⟨rfl, hparenthesis⟩ := himport
    have hopener : ((nextText (rest.map Token.lexeme)).string?.bind closerOf?).isSome = true := by
      obtain ⟨bracket, _, more, _, rfl, -⟩ := hrest.exists_cons (markAt_eq_true_iff.mp hparenthesis)
      rfl
    exact .weaken (.bind (importText_follows htype hbound hrest hopener)
      fun text text' _ _ htext hleft _ => .pure (hquery htext) hleft) (by decide)
  · refine .weaken (.bind (entityName_follows h) fun path path' left left' hpath hread hlength =>
      (?_ : Follows keep behind 0 0 false (TypeExpr.mapDocs keep) left _ _)) (by decide)
    obtain rfl : path' = path := hpath
    simp only [List.length_cons] at hlength
    refine .get (.ite hread.onNewLine_eq (fun _ => .pure rfl hread) fun _ => ?_)
    refine .weaken (.bind (typeArguments_follows htype (by omega) hread)
      fun arguments arguments' _ _ harguments hleft _ => .pure ?_ hleft) (by decide)
    simp only [TypeExpr.mapDocs, TypeExpr.mapDocsAll_eq, harguments]

theorem primaryType_follows
    (htype : TypesFollow keep behind bound type type') (hbound : tokens.length ≤ bound)
    (h : Continues keep behind tokens tokens') :
    Follows keep behind 1 0 false (TypeExpr.mapDocs keep) tokens (primaryType type tokens)
      (primaryType type' tokens') := by
  cases hnext : lexemeAt? tokens 0 with
  | none =>
    have hread : ∀ (type : TypeReader) {tokens : List Token}, lexemeAt? tokens 0 = none →
        primaryType type tokens = fail .noType tokens := by
      intro type tokens hnone
      simp [primaryType, hnone]
    rw [hread type hnext]
    refine .of_live (.fail (fun _ => rfl) h) fun hlive => hread type' ?_
    rw [h.lexemeAt?_zero hlive, hnext]
  | some lexeme =>
    obtain ⟨lead, lead', rest, rest', rfl, rfl, -, -, hrest⟩ := h.exists_cons hnext
    simp only [List.length_cons] at hbound
    cases lexeme with
    | ident name => exact namedType_follows htype name (by omega) h
    | punct mark => exact markedType_follows htype mark (by omega) h
    | string text => exact .plain (.pure rfl hrest) (by simp)
    | template text => exact .plain (.pure rfl hrest) (by simp)
    | number spelling =>
      have hread : ∀ (type : TypeReader) lead rest,
          primaryType type (⟨.number spelling, lead⟩ :: rest) =
            (do let value ← number spelling; return .literal (some value) : Parse TypeExpr)
              (⟨.number spelling, lead⟩ :: rest) := fun _ _ _ => rfl
      rw [hread, hread]
      refine .weaken (.bind (number_follows hrest) fun value value' _ _ hvalue hleft _ =>
        .pure ?_ hleft) (by decide)
      obtain rfl : value' = value := hvalue
      rfl
    | regex spelling => exact .fail (fun _ => rfl) h

end Parse

end EntityDiagram.Declaration
