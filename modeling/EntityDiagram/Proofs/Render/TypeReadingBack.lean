import EntityDiagram.Proofs.Declaration.ReadNames
import EntityDiagram.Proofs.Declaration.TypeReading
import EntityDiagram.Proofs.Model.UnionCollapse
import EntityDiagram.Proofs.Source.Tiling
import EntityDiagram.Proofs.Source.Writing
import EntityDiagram.Render.D2

/-!
# Reading back the types of D2 text

Built-in types, references and arrays are written in D2 text as they may be declared, so the text can
be read again and is resolved to the same type. It need not be the text that was read first: an array
of arrays is resolved to one array, and an array is written with brackets however it was declared. So
a tree that was read is first replaced by a flat one that is resolved to the same type; what is written
for that type is the spelling of the flat tree.
-/

namespace EntityDiagram.Declaration

open Model (AttributeType primitiveNames)
open Source (Token)

/-- The words that start, or may start, a type of another kind than a reference. -/
def otherHeads : List String :=
  ["true", "false", "typeof", "new", "abstract", "import", "keyof", "unique", "readonly", "infer"]

/-- The type is built from names and arrays. The names are those of built-in types other than `this`,
and references that start with a word of no other kind of type. -/
inductive TypeExpr.IsNominal : TypeExpr → Prop
  | keyword {name : String} (hname : name ∈ keywordTypes) (hthis : name ≠ "this") :
    TypeExpr.IsNominal (.keyword name)
  | reference {name : String} {arguments : List TypeExpr}
      (hhead : ∀ word ∈ (nameParts name).head?, word ∉ otherHeads)
      (harguments : ∀ argument ∈ arguments, argument.IsNominal) :
    TypeExpr.IsNominal (.reference name arguments)
  | array {element : TypeExpr} (helement : element.IsNominal) :
    TypeExpr.IsNominal (.array element)

/-- The type is spelled as its resolved form is written: all arrays have brackets, and no array is the
element of another one. -/
inductive TypeExpr.IsFlat : TypeExpr → Prop
  | keyword {name : String} (hname : (name : Text) ∈ primitiveNames) :
    TypeExpr.IsFlat (.keyword name)
  | reference {name : String} {arguments : List TypeExpr} (hdotted : IsDottedName name)
      (hname : isReferenceName name = true) (hbare : name = "Array" → arguments = [])
      (harguments : ∀ argument ∈ arguments, argument.IsFlat) :
    TypeExpr.IsFlat (.reference name arguments)
  | array {element : TypeExpr} (hsingle : ∀ inner, element ≠ .array inner)
      (helement : element.IsFlat) :
    TypeExpr.IsFlat (.array element)

namespace TypeExpr

theorem IsFlat.four_le_tightness
    {type : TypeExpr} (h : type.IsFlat) :
    4 ≤ type.tightness := by
  cases h <;> simp [tightness]

theorem IsFlat.wellFormed
    {type : TypeExpr} (h : type.IsFlat) :
    type.WellFormed := by
  induction h with
  | keyword hname =>
    have hkeywords : primitiveNames ⊆ keywordTypes.map Text.ofString := by decide
    obtain ⟨keyword, hkeyword, hsame⟩ := List.mem_map.mp (hkeywords hname)
    exact .keyword (Text.ofString_inj.mp hsame ▸ hkeyword)
  | reference _ hname _ _ ih => exact .reference hname ih
  | array _ helement ih => exact .array helement.four_le_tightness ih

/-- A flat type is read from its spelling, where nothing is behind it. -/
theorem IsFlat.ofTokens_eq_ok
    {type : TypeExpr} (h : type.IsFlat) {tokens : List Token} (htokens : Spells tokens type.lexemes) :
    TypeExpr.ofTokens tokens = .ok type := by
  have hdepth : type.lexemes.length < tokens.length + 1 := by
    rw [htokens.length_eq]
    exact Nat.lt_succ_self _
  have hread : Parse.typeWithin (tokens.length + 1) true (tokens ++ []) = .ok (type, []) :=
    Parse.readsBelow_typeWithin _ h.wellFormed hdepth (.inl rfl) htokens stops_nil
  rw [List.append_nil] at hread
  simp only [TypeExpr.ofTokens, Parse.run_bind, hread, Parse.ok_bind, Parse.expectEnd,
    Parse.run_pure]
  rfl

/-- A name that is read as a reference, and starts with no other word, is spelled like one. -/
theorem isReferenceName_of_head
    {name : String} (hkeyword : name ∉ keywordTypes)
    (hhead : ∀ word ∈ (nameParts name).head?, word ∉ otherHeads) :
    isReferenceName name = true := by
  have hjoin := Parse.intercalate_nameParts name
  have hreserved : ∀ word ∈ reservedWords, word ∈ keywordTypes ∨ word ∈ otherHeads := by decide
  have hheads : ∀ word ∈ reservedHeads, word ∈ otherHeads := by decide
  unfold isReferenceName
  split
  · rename_i word hparts
    rw [hparts] at hjoin hhead
    obtain rfl : word = name := by simpa using hjoin
    rw [Bool.not_eq_true', List.contains_eq_mem, decide_eq_false_iff_not]
    intro hmem
    exact (hreserved word hmem).elim hkeyword (hhead word rfl)
  · cases hfirst : (nameParts name).head? with
    | none => rfl
    | some word =>
      have hword : word ∉ reservedHeads := fun hmem => hhead word hfirst (hheads word hmem)
      simpa using hword

end TypeExpr

end EntityDiagram.Declaration

namespace EntityDiagram.Model

open Declaration (IsDottedName TypeExpr keywordTypes nameParts otherHeads)

namespace AttributeType

/-! ## Flat trees -/

/-- The tree stands for a type, or for a list of the type where that is no list already. -/
theorem exists_flat_array
    {type : TypeExpr} (h : type.IsFlat) :
    ∃ flat : TypeExpr, flat.IsFlat ∧ resolve flat = { resolve type with isArray := true } := by
  cases h with
  | keyword hname => exact ⟨.array _, .array (by simp) (.keyword hname), rfl⟩
  | reference hdotted hname hbare harguments =>
    exact ⟨.array _, .array (by simp) (.reference hdotted hname hbare harguments), rfl⟩
  | array hsingle helement => exact ⟨.array _, .array hsingle helement, rfl⟩

theorem exists_flat_list
    {types : List TypeExpr}
    (h : ∀ type ∈ types, ∃ flat : TypeExpr, flat.IsFlat ∧ resolve flat = resolve type) :
    ∃ flats : List TypeExpr, (∀ flat ∈ flats, flat.IsFlat) ∧ resolveAll flats = resolveAll types := by
  induction types with
  | nil => exact ⟨[], List.forall_mem_nil _, rfl⟩
  | cons type rest ih =>
    obtain ⟨⟨flat, hflat, hresolve⟩, hrest⟩ := List.forall_mem_cons.mp h
    obtain ⟨flats, hflats, hall⟩ := ih hrest
    exact ⟨flat :: flats, List.forall_mem_cons.mpr ⟨hflat, hflats⟩, by
      rw [resolveAll, resolveAll, hresolve, hall]⟩

/-- Every tree of names and arrays that was read has a flat one that is resolved to the same type. -/
theorem exists_flat
    {type : TypeExpr} (h : type.IsNominal)
    (hnames : ∀ name, type.Mentions name → IsDottedName name ∧ name ∉ keywordTypes) :
    ∃ flat : TypeExpr, flat.IsFlat ∧ resolve flat = resolve type := by
  induction h with
  | @keyword name hname hthis =>
    have hkeywords : ∀ name ∈ keywordTypes, name = "this" ∨ (name : Text) ∈ primitiveNames := by
      decide
    exact ⟨_, .keyword ((hkeywords name hname).resolve_left hthis), rfl⟩
  | @reference name arguments hhead _ ih =>
    obtain ⟨hdotted, hkeyword⟩ := hnames name .reference
    have hflat := fun argument hmem =>
      ih argument hmem fun mentioned hmentions => hnames mentioned (.argument hmem hmentions)
    by_cases hbare : name = "Array" → arguments = []
    · obtain ⟨flats, hflats, hall⟩ := exists_flat_list hflat
      have hflatsBare : name = "Array" → flats = [] := by
        intro hname
        rw [hbare hname, resolveAll_eq_map, resolveAll_eq_map] at hall
        exact List.map_eq_nil_iff.mp hall
      refine ⟨.reference name flats, .reference hdotted
        (TypeExpr.isReferenceName_of_head hkeyword hhead) hflatsBare hflats, ?_⟩
      rw [resolve, resolve, hall]
    · -- An array that is declared by its name is what its first argument is an array of.
      obtain ⟨rfl, harguments⟩ := Classical.not_imp.mp hbare
      obtain ⟨element, others, rfl⟩ := List.exists_cons_of_ne_nil harguments
      obtain ⟨flat, helement, hresolve⟩ := hflat element List.mem_cons_self
      obtain ⟨array, harray, hresolveArray⟩ := exists_flat_array helement
      exact ⟨array, harray, by rw [hresolveArray, hresolve]; rfl⟩
  | array _ ih =>
    obtain ⟨flat, helement, hresolve⟩ := ih fun name hmentions => hnames name (.array hmentions)
    obtain ⟨array, harray, hresolveArray⟩ := exists_flat_array helement
    exact ⟨array, harray, by rw [hresolveArray, hresolve]; rfl⟩

end AttributeType

end EntityDiagram.Model

namespace EntityDiagram.Render.D2

open Declaration (IsDottedName TypeExpr nameLexemes nameParts separated)
open Model (AttributeType primitiveNames)
open Model.AttributeType (resolve resolveAll)
open Source (IsName Lexeme StartsApart Writes)

/-! ## What is written for a flat tree -/

/-- In front of characters that no name runs into, the text spells lexemes. -/
def SpelledBy (spelled : List Lexeme) (text : String) : Prop :=
  ∀ {lexemes : List Lexeme} {cs : List Char}, Writes lexemes cs → StartsApart cs →
    Writes (spelled ++ lexemes) (text.toList ++ cs)

/-- The text of the resolved type spells the tree. -/
def IsWritten (type : TypeExpr) : Prop :=
  ∃ text : String, typeText (resolve type) = text ∧ SpelledBy type.lexemes text

theorem startsApart_cons
    {c : Char} (h : Source.isNamePart c = false) (cs : List Char) :
    StartsApart (c :: cs) := by
  rintro _ ⟨⟩
  exact h

/-- Joined texts start with the first of them. -/
theorem exists_intercalate_eq_append
    (first : String) (rest : List String) :
    ∃ more, (".".intercalate (first :: rest)).toList = first.toList ++ more := by
  rw [String.toList_intercalate]
  cases rest with
  | nil => exact ⟨[], by simp⟩
  | cons second rest =>
    refine ⟨".".toList ++ (".".toList).intercalate ((second :: rest).map String.toList), ?_⟩
    rw [List.map_cons, List.map_cons, List.intercalate_cons_cons, List.append_assoc]

theorem writes_dotted
    {parts : List String} (hne : parts ≠ []) (hparts : ∀ part ∈ parts, IsName part.toList)
    {lexemes : List Lexeme} {cs : List Char} (hmore : Writes lexemes cs) (hapart : StartsApart cs) :
    Writes (separated "." (parts.map fun part => [.ident part]) ++ lexemes)
      ((".".intercalate parts).toList ++ cs) := by
  induction parts with
  | nil => exact (hne rfl).elim
  | cons first rest ih =>
    obtain ⟨hfirst, hrest⟩ := List.forall_mem_cons.mp hparts
    cases rest with
    | nil => simpa using Writes.name hfirst hapart hmore
    | cons second rest =>
      have hbehind := ih (List.cons_ne_nil second rest) hrest
      obtain ⟨c, others, hchars, hstart, -⟩ := (hrest second List.mem_cons_self).exists_cons
      obtain ⟨more, hjoined⟩ := exists_intercalate_eq_append second rest
      have htext : (".".intercalate (first :: second :: rest)).toList ++ cs =
          first.toList ++ ('.' :: c :: (others ++ (more ++ cs))) := by
        rw [hchars, String.toList_intercalate] at hjoined
        rw [String.toList_intercalate, List.map_cons, List.map_cons, List.intercalate_cons_cons,
          ← List.map_cons, hjoined]
        simp
      rw [hjoined, hchars, List.append_assoc, List.cons_append] at hbehind
      rw [htext, List.map_cons, List.map_cons, Declaration.separated_cons_cons]
      exact .name hfirst (startsApart_cons (by decide +kernel) _) (.dot hstart hbehind)

theorem spelledBy_name
    {name : String} (h : IsDottedName name) :
    SpelledBy (nameLexemes name) name := by
  intro lexemes cs hmore hapart
  have hne : nameParts name ≠ [] := by
    simp [nameParts, List.splitOn_ne_nil]
  have hwrites := writes_dotted hne h hmore hapart
  rwa [Declaration.Parse.intercalate_nameParts] at hwrites

/-- Types with commas between them. -/
theorem exists_furtherText
    {first : TypeExpr} {rest : List TypeExpr} (hfirst : IsWritten first)
    (hrest : ∀ type ∈ rest, IsWritten type) :
    ∃ text : String, typeText (resolve first) ++ furtherText (resolveAll rest) = text ∧
      SpelledBy (separated "," (TypeExpr.lexemesOfAll (first :: rest))) text := by
  induction rest generalizing first with
  | nil =>
    obtain ⟨text, htext, hspelled⟩ := hfirst
    refine ⟨text, ?_, fun hmore hapart => ?_⟩
    · rw [htext, resolveAll, furtherText, Text.append_empty]
    · simpa [TypeExpr.lexemesOfAll] using hspelled hmore hapart
  | cons second rest ih =>
    obtain ⟨hsecond, hrest⟩ := List.forall_mem_cons.mp hrest
    obtain ⟨text, htext, hspelled⟩ := hfirst
    obtain ⟨behind, hbehind, hspelledBehind⟩ := ih hsecond hrest
    refine ⟨text ++ (", " ++ behind), ?_, fun hmore hapart => ?_⟩
    · rw [resolveAll, furtherText, htext, Text.append_assoc, hbehind, Text.ofString_append,
        Text.ofString_append]
    · have hcomma := Writes.mark (c := ',') (by decide +kernel)
        (.space (hspelledBehind hmore hapart))
      have hwrites := hspelled hcomma (startsApart_cons (by decide +kernel) _)
      have hmark : ", ".toList = [',', ' '] := rfl
      rw [TypeExpr.lexemesOfAll, TypeExpr.lexemesOfAll, Declaration.separated_cons_cons,
        String.toList_append, String.toList_append, hmark]
      simpa [TypeExpr.lexemesOfAll] using hwrites

/-- Types between angle brackets, or nothing where there is none; no name runs into them. -/
theorem exists_argumentsText
    {types : List TypeExpr} (htypes : ∀ type ∈ types, IsWritten type) :
    ∃ text : String,
      argumentsText (Model.AttributeType.someArguments (resolveAll types)) = text ∧
      SpelledBy (Declaration.angled (TypeExpr.lexemesOfAll types)) text ∧
      ∀ {cs}, StartsApart cs → StartsApart (text.toList ++ cs) := by
  cases types with
  | nil => exact ⟨"", rfl, fun hmore _ => hmore, fun hapart => hapart⟩
  | cons first rest =>
    obtain ⟨hfirst, hrest⟩ := List.forall_mem_cons.mp htypes
    obtain ⟨inner, hinner, hspelled⟩ := exists_furtherText hfirst hrest
    have htext : ("<" ++ inner ++ ">").toList = '<' :: (inner.toList ++ ['>']) := by
      simp
    refine ⟨"<" ++ inner ++ ">", ?_, fun hmore _ => ?_, fun _ => ?_⟩
    · rw [Text.ofString_append, Text.ofString_append, ← hinner]
      simp [resolveAll, Model.AttributeType.someArguments, argumentsText, Text.append_assoc]
    · have hclose := Writes.mark (c := '>') (by decide +kernel) hmore
      have hlist := hspelled hclose (startsApart_cons (by decide +kernel) _)
      have hwrites := Writes.mark (c := '<') (by decide +kernel) hlist
      rw [htext]
      simpa [Declaration.angled, TypeExpr.lexemesOfAll] using hwrites
    · rw [htext]
      exact startsApart_cons (by decide +kernel) _

/-- What is known of the type that a flat tree is resolved to. -/
theorem flags_of_isFlat
    {type : TypeExpr} (h : type.IsFlat) :
    (resolve type).isOptional = false ∧
      ((∀ inner, type ≠ .array inner) → (resolve type).isArray = false) := by
  induction h with
  | keyword hname =>
    rw [Model.AttributeType.resolve_keyword_of_primitive hname]
    exact ⟨rfl, fun _ => rfl⟩
  | reference _ _ hbare _ _ =>
    rw [Model.AttributeType.resolve_reference_of_bare hbare]
    exact ⟨rfl, fun _ => rfl⟩
  | array _ _ ih => exact ⟨ih.1, fun h => (h _ rfl).elim⟩

theorem typeText_array
    {type : AttributeType} (hoptional : type.isOptional = false) (harray : type.isArray = false) :
    typeText { type with isArray := true } = typeText type ++ "[]" := by
  obtain ⟨⟩ := type
  subst hoptional harray
  simp [typeText]

theorem isWritten_of_isFlat
    {type : TypeExpr} (h : type.IsFlat) :
    IsWritten type := by
  induction h with
  | @keyword name hname =>
    have hnames : ∀ primitive ∈ primitiveNames,
        ∃ word : String, primitive = word ∧ IsName word.toList := by
      simp only [primitiveNames, List.forall_mem_cons]
      and_intros
      all_goals first | exact ⟨_, rfl, by decide +kernel⟩ | exact List.forall_mem_nil _
    obtain ⟨word, hsame, hword⟩ := hnames _ hname
    obtain rfl := Text.ofString_inj.mp hsame
    refine ⟨name, ?_, fun hmore hapart => ?_⟩
    · rw [Model.AttributeType.resolve_keyword_of_primitive hname]
      simp [typeText, Model.AttributeType.primitive, argumentsText]
    · simpa [TypeExpr.lexemes] using Writes.name hword hapart hmore
  | @reference name arguments hdotted _ hbare _ ih =>
    obtain ⟨behind, hbehind, hspelled, hstarts⟩ := exists_argumentsText ih
    refine ⟨name ++ behind, ?_, fun hmore hapart => ?_⟩
    · rw [Model.AttributeType.resolve_reference_of_bare hbare, Text.ofString_append, ← hbehind]
      simp [typeText, Model.AttributeType.named]
    · have hwrites := spelledBy_name hdotted (hspelled hmore hapart) (hstarts hapart)
      simpa [TypeExpr.lexemes] using hwrites
  | @array element hsingle helement ih =>
    obtain ⟨text, htext, hspelled⟩ := ih
    obtain ⟨hoptional, harray⟩ := flags_of_isFlat helement
    refine ⟨text ++ "[]", ?_, fun hmore _ => ?_⟩
    · rw [Text.ofString_append, ← htext]
      exact typeText_array hoptional (harray hsingle)
    · have hclose := Writes.mark (c := ']') (by decide +kernel) hmore
      have hopen := Writes.mark (c := '[') (by decide +kernel) hclose
      have hbrackets : "[]".toList = ['[', ']'] := rfl
      have hwrites := hspelled hopen (startsApart_cons (by decide +kernel) _)
      rw [String.toList_append, hbrackets]
      simpa [TypeExpr.lexemes] using hwrites

/-- A type of names and arrays that was read is written in a text that can be read, and what is read
there is resolved to the same type. -/
theorem resolve_ofText_typeText
    {text : String} {type : TypeExpr} (h : TypeExpr.ofText text = .ok type)
    (hnominal : type.IsNominal) :
    ∃ written : String, typeText (resolve type) = written ∧
      ∃ again, TypeExpr.ofText written = .ok again ∧ resolve again = resolve type := by
  obtain ⟨flat, hflat, hresolve⟩ :=
    Model.AttributeType.exists_flat hnominal (TypeExpr.dotted_of_ofText h)
  obtain ⟨written, htext, hspelled⟩ := isWritten_of_isFlat hflat
  have hwrites := hspelled .nil nofun
  rw [List.append_nil, List.append_nil] at hwrites
  obtain ⟨stream, hstream, hlexemes, hplain⟩ := hwrites.readsAs none .start
  have hspells : Declaration.Spells stream.tokens flat.lexemes := by
    refine ⟨hlexemes, fun token htoken => ⟨(hplain token htoken).2, fun hline => ?_⟩⟩
    rw [(hplain token htoken).1] at hline
    cases hline
  refine ⟨written, hresolve ▸ htext, flat, ?_, hresolve⟩
  rw [TypeExpr.ofText_eq hstream, hflat.ofTokens_eq_ok hspells]
  rfl

/-- A list of lists, spelled in two ways. -/
def nestedText : String :=
  "Array<A.B[]>"

def nestedTokens : List Source.Token :=
  [⟨.ident "Array", ⟨⟨1, 1⟩, false, []⟩⟩, ⟨.punct "<", ⟨⟨1, 6⟩, false, []⟩⟩,
    ⟨.ident "A", ⟨⟨1, 7⟩, false, []⟩⟩, ⟨.punct ".", ⟨⟨1, 8⟩, false, []⟩⟩,
    ⟨.ident "B", ⟨⟨1, 9⟩, false, []⟩⟩, ⟨.punct "[", ⟨⟨1, 10⟩, false, []⟩⟩,
    ⟨.punct "]", ⟨⟨1, 11⟩, false, []⟩⟩, ⟨.punct ">", ⟨⟨1, 12⟩, false, []⟩⟩]

theorem tokens_nestedText :
    Source.TokenStream.ofText nestedText = .ok ⟨nestedTokens, ⟨⟨1, 13⟩, false, []⟩⟩ := by
  have hname : Source.readGap ⟨.start, false, []⟩ nestedText.toList =
      .ok (⟨⟨1, 1⟩, false, []⟩, nestedText.toList) := by cbv
  have hopen : Source.readGap ⟨⟨1, 6⟩, false, []⟩ "<A.B[]>".toList =
      .ok (⟨⟨1, 6⟩, false, []⟩, "<A.B[]>".toList) := by cbv
  have hspace : Source.readGap ⟨⟨1, 7⟩, false, []⟩ "A.B[]>".toList =
      .ok (⟨⟨1, 7⟩, false, []⟩, "A.B[]>".toList) := by cbv
  have hdot : Source.readGap ⟨⟨1, 8⟩, false, []⟩ ".B[]>".toList =
      .ok (⟨⟨1, 8⟩, false, []⟩, ".B[]>".toList) := by cbv
  have hitem : Source.readGap ⟨⟨1, 9⟩, false, []⟩ "B[]>".toList =
      .ok (⟨⟨1, 9⟩, false, []⟩, "B[]>".toList) := by cbv
  have hbracket : Source.readGap ⟨⟨1, 10⟩, false, []⟩ "[]>".toList =
      .ok (⟨⟨1, 10⟩, false, []⟩, "[]>".toList) := by cbv
  have hend : Source.readGap ⟨⟨1, 11⟩, false, []⟩ "]>".toList =
      .ok (⟨⟨1, 11⟩, false, []⟩, "]>".toList) := by cbv
  have hclose : Source.readGap ⟨⟨1, 12⟩, false, []⟩ ">".toList =
      .ok (⟨⟨1, 12⟩, false, []⟩, ">".toList) := by cbv
  have hending : Source.readGap ⟨⟨1, 13⟩, false, []⟩ [] = .ok (⟨⟨1, 13⟩, false, []⟩, []) := by cbv
  exact Source.readTokens_token hname rfl (Source.readTokens_token hopen rfl
    (Source.readTokens_token hspace rfl (Source.readTokens_token hdot rfl
      (Source.readTokens_token hitem rfl (Source.readTokens_token hbracket rfl
        (Source.readTokens_token hend rfl (Source.readTokens_token hclose rfl
          (Source.readTokens_ending hending))))))))

def nestedType : TypeExpr :=
  .reference "Array" [.array (.reference "A.B" [])]

theorem ofText_nestedText :
    TypeExpr.ofText nestedText = .ok nestedType := by
  rw [TypeExpr.ofText_eq tokens_nestedText]
  rfl

/-- It is written as one list, and read back as one. -/
theorem resolve_ofText_nestedText :
    nestedType.IsNominal ∧ typeText (resolve nestedType) = "A.B[]" ∧
      ∃ again, TypeExpr.ofText "A.B[]" = .ok again ∧ resolve again = resolve nestedType := by
  have hitem : (TypeExpr.reference "A.B" []).IsNominal :=
    .reference (by decide) (List.forall_mem_nil _)
  have hnominal : nestedType.IsNominal :=
    .reference (by decide) (List.forall_mem_singleton.mpr (.array hitem))
  have htext : typeText (resolve nestedType) = "A.B[]" := by decide +kernel
  obtain ⟨written, hwritten, hagain⟩ := resolve_ofText_typeText ofText_nestedText hnominal
  obtain rfl := Text.ofString_inj.mp (htext.symm.trans hwritten)
  exact ⟨hnominal, htext, hagain⟩

end EntityDiagram.Render.D2
