import EntityDiagram.Declaration.Documentation
import EntityDiagram.Proofs.Source.Names
import EntityDiagram.Proofs.Text.Lines

/-!
# Writing documentation blocks

A description and tags are written as a block: every line behind a star and a space, a tag with its name
in front of the first line of its text. Reading the block gives back what was written, whatever the lines
start with otherwise, stars included. Only a line that looks like the start of a tag must not stand where
no tag starts.
-/

namespace EntityDiagram.Declaration

open Text (IsTrimmed isBlank joined lines)

/-! ## Blocks that are written -/

/-- The name of a tag with its text, if it has one, behind a space. -/
def DocTag.content (tag : DocTag) : List Character :=
  .scalar '@' :: tag.name.toList ++
    match tag.text with
    | none => []
    | some text => .scalar ' ' :: text.toList

namespace Documentation

/-- The lines of the description, or none where there is no description. -/
def descriptionLines (docs : Documentation) : List (List Character) :=
  match docs.description with
  | none => []
  | some text => lines text.toList

/-- The lines of the tags, one tag after the other. -/
def tagLines (tags : List DocTag) : List (List Character) :=
  tags.flatMap fun tag => lines tag.content

/-- The lines of all that is said. -/
def contentLines (docs : Documentation) : List (List Character) :=
  docs.descriptionLines ++ tagLines docs.tags

/-- A line as it stands in a block. -/
def withMargin (line : List Character) : List Character :=
  .scalar ' ' :: .scalar '*' :: .scalar ' ' :: line

/-- The block of a description and tags. -/
def written (docs : Documentation) : Text :=
  Text.unlines
    (("/**" : Text) :: docs.contentLines.map (fun line => .ofList (withMargin line)) ++
      [(" */" : Text)])

/-! ## What can be written -/

/-- The line starts like that of a tag. -/
def LooksTagged (line : List Character) : Prop :=
  ∃ c rest, line = .scalar '@' :: c :: rest ∧ isTagStart c = true

/-- A character that may start the name of a tag, and others that may continue it. -/
inductive IsTagName : List Character → Prop
  | mk {c : Character} {rest : List Character} (hstart : isTagStart c = true)
      (hrest : ∀ d ∈ rest, isTagPart d = true) :
    IsTagName (c :: rest)

instance (name : List Character) : Decidable (IsTagName name) :=
  match name with
  | [] => isFalse nofun
  | c :: rest =>
    decidable_of_iff (isTagStart c = true ∧ rest.all isTagPart = true)
      ⟨fun h => .mk h.1 (List.all_eq_true.mp h.2),
        fun | .mk hstart hrest => ⟨hstart, List.all_eq_true.mpr hrest⟩⟩

/-- There is something in the text, and no white space around it or around one of its lines. -/
structure IsTidy (text : Text) : Prop where
  ne_nil : text.toList ≠ []
  trimmed : IsTrimmed text.toList
  trimmedLines : ∀ line ∈ lines text.toList, IsTrimmed line

instance (text : Text) : Decidable (IsTidy text) :=
  decidable_of_iff
    (text.toList ≠ [] ∧ IsTrimmed text.toList ∧ ∀ line ∈ lines text.toList, IsTrimmed line)
    ⟨fun h => ⟨h.1, h.2.1, h.2.2⟩, fun h => ⟨h.ne_nil, h.trimmed, h.trimmedLines⟩⟩

/-- All texts are tidy, and only the first line of a tag may look like the start of a tag. -/
structure IsWritable (docs : Documentation) : Prop where
  description : ∀ text ∈ docs.description,
    IsTidy text ∧ ∀ line ∈ lines text.toList, ¬LooksTagged line
  name : ∀ tag ∈ docs.tags, IsTagName tag.name.toList
  text : ∀ tag ∈ docs.tags, ∀ text ∈ tag.text,
    IsTidy text ∧ ∀ line ∈ (lines text.toList).tail, ¬LooksTagged line

theorem openedTag?_eq_none_iff
    {line : List Character} :
    openedTag? line = none ↔ ¬LooksTagged line := by
  constructor
  · rintro h ⟨c, rest, rfl, hstart⟩
    rw [openedTag?, if_pos hstart] at h
    cases h
  · intro h
    unfold openedTag?
    split
    · rename_i c rest
      rw [if_neg fun hstart => h ⟨c, rest, rfl, hstart⟩]
    · rfl

instance (line : List Character) : Decidable (LooksTagged line) :=
  decidable_of_iff (openedTag? line ≠ none) (not_congr openedTag?_eq_none_iff |>.trans not_not)

theorem isBlank_of_isTagPart
    {c : Character} (h : isTagPart c = true) :
    c.isIn isBlank = false := by
  rw [← Bool.not_eq_true]
  intro hblank
  cases c with
  | surrogate index => cases hblank
  | scalar c =>
    rw [Character.isIn_scalar] at hblank
    simp only [isTagPart, Character.isIn_scalar, Text.isAlphanumeric_of_isBlank hblank, Bool.false_or,
      Bool.or_eq_true, beq_iff_eq, Character.scalar.injEq] at h
    obtain (rfl | rfl) | rfl := h <;> exact absurd hblank (by decide)

/-- The characters of the name are not white space. -/
theorem IsTagName.isBlank
    {name : List Character} (h : IsTagName name) :
    ∀ c ∈ name, c.isIn Text.isBlank = false := by
  obtain @⟨c, rest, hstart, hrest⟩ := h
  refine List.forall_mem_cons.mpr ⟨?_, fun c hc => isBlank_of_isTagPart (hrest c hc)⟩
  simp only [isTagStart, Bool.or_eq_true, beq_iff_eq] at hstart
  obtain (halpha | rfl) | rfl := hstart
  · cases c with
    | surrogate index => rfl
    | scalar c =>
      have halphanum : c.isAlphanum = true := by
        rw [Char.isAlphanum, show c.isAlpha = true from halpha, Bool.true_or]
      exact Text.isBlank_of_isAlphanum halphanum
  · decide
  · decide

theorem IsTagName.ne_nil
    {name : List Character} (h : IsTagName name) :
    name ≠ [] := by
  cases h
  exact List.cons_ne_nil _ _

/-- A tidy text starts with a character of its first line. -/
theorem IsTidy.ne_nil_of_lines
    {text : Text} (h : IsTidy text) {first : List Character} {more : List (List Character)}
    (hlines : lines text.toList = first :: more) :
    first ≠ [] := by
  rintro rfl
  have hjoined := Text.joined_lines text.toList
  rw [hlines] at hjoined
  cases more with
  | nil => exact h.ne_nil hjoined.symm
  | cons second more =>
    rw [Text.joined_cons_cons, List.nil_append] at hjoined
    exact absurd (h.trimmed.head (.scalar '\n') (hjoined ▸ rfl)) (by decide)

/-! ## Lines and their margin -/

theorem body_eq
    (cs : List Character) :
    body (.scalar '/' :: .scalar '*' :: .scalar '*' :: (cs ++ [.scalar '*', .scalar '/'])) = cs := by
  have hopen : (['/', '*', '*'] : List Character).isPrefixOf
      (.scalar '/' :: .scalar '*' :: .scalar '*' :: (cs ++ [.scalar '*', .scalar '/'])) = true := rfl
  have hclose : (['*', '/'] : List Character).isSuffixOf
      (cs ++ [.scalar '*', .scalar '/']) = true :=
    List.isSuffixOf_iff_suffix.mpr (List.suffix_append cs _)
  have hlength : (cs ++ [Character.scalar '*', Character.scalar '/']).length - 2 = cs.length := by simp
  simp only [body, hopen, if_true, List.drop_succ_cons, List.drop_zero, hclose, hlength,
    List.take_left']

theorem withoutMargin_withMargin
    {line : List Character} (h : IsTrimmed line) :
    withoutMargin (withMargin line) = line := by
  have hspace : ∀ c ∈ [Character.scalar ' '], c.isIn isBlank = true :=
    List.forall_mem_singleton.mpr (by decide)
  have hstar : trimChars (withMargin line) =
      .scalar '*' :: if line = [] then [] else .scalar ' ' :: line := by
    by_cases hline : line = []
    · subst hline
      rfl
    · have htrimmed : IsTrimmed (.scalar '*' :: .scalar ' ' :: line) := by
        refine ⟨fun c hc => ?_, fun c hc => h.last c ?_⟩
        · obtain rfl := Option.some.inj hc
          decide
        · rwa [List.getLast?_cons_cons, List.getLast?_cons_of_ne_nil hline] at hc
      have htrim := htrimmed.trim_eq hspace (List.forall_mem_nil _)
      rw [List.append_nil] at htrim
      rw [if_neg hline]
      exact htrim
  have hline := h.trim_eq hspace (List.forall_mem_nil _)
  rw [List.append_nil] at hline
  rw [withoutMargin, hstar]
  split_ifs with hnil
  · rw [hnil]
    rfl
  · exact hline

/-! ## Paragraphs -/

/-- A paragraph is read from the characters of its lines. -/
theorem paragraph?_eq
    (texts : List (List Character)) :
    paragraph? texts =
      Text.nonempty? (.ofList (Text.trimEnd (Text.trimStart (joined texts)))) := by
  have htexts : (texts.map Text.ofList).map Text.toList = texts := by
    simp [Function.comp_def]
  rw [paragraph?, Text.trim, Text.toList_unlines, htexts]

theorem paragraph?_nil_cons
    (texts : List (List Character)) :
    paragraph? ([] :: texts) = paragraph? texts := by
  cases texts with
  | nil => rfl
  | cons first rest =>
    have hbreak : ∀ c ∈ [Character.scalar '\n'], c.isIn isBlank = true :=
      List.forall_mem_singleton.mpr (by decide)
    rw [paragraph?_eq, paragraph?_eq, Text.joined_cons_cons, List.nil_append,
      ← List.singleton_append, Text.trimStart_blank_append hbreak]

theorem paragraph?_concat_nil
    (texts : List (List Character)) :
    paragraph? (texts ++ [[]]) = paragraph? texts := by
  by_cases h : texts = []
  · rw [h]
    rfl
  · have hbreak : ∀ c ∈ [Character.scalar '\n'], c.isIn isBlank = true :=
      List.forall_mem_singleton.mpr (by decide)
    rw [paragraph?_eq, paragraph?_eq, Text.joined_concat_nil h,
      Text.trimEnd_trimStart_append_blank hbreak]

theorem paragraph?_lines
    {text : Text} (h : IsTidy text) :
    paragraph? (lines text.toList) = some text := by
  rw [paragraph?_eq, Text.joined_lines, h.trimmed.trimStart_eq, h.trimmed.trimEnd_eq,
    Text.nonempty?, if_neg]
  rw [Text.isEmpty_iff]
  exact fun hempty => h.ne_nil (congrArg Text.toList hempty)

/-! ## Sections -/

/-- Lines that open no tag belong to what stands in front of the tags behind them. -/
theorem sections_append
    {front : List (List Character)} (h : ∀ line ∈ front, openedTag? line = none)
    (back : List (List Character)) :
    sections (front ++ back) = (front ++ (sections back).1, (sections back).2) := by
  induction front with
  | nil => rfl
  | cons line front ih =>
    obtain ⟨hline, hfront⟩ := List.forall_mem_cons.mp h
    rw [List.cons_append, sections, ih hfront]
    simp only [hline]
    rfl

theorem sections_cons_of_opened
    {line name first : List Character} (h : openedTag? line = some (name, first))
    (rest : List (List Character)) :
    sections (line :: rest) = ([], (name, first :: (sections rest).1) :: (sections rest).2) := by
  rw [sections]
  simp only [h]

/-- The tag that a section stands for. -/
def tagOf (group : List Character × List (List Character)) : DocTag :=
  ⟨.ofList group.1, paragraph? group.2⟩

theorem ofBlock_eq
    (raw : Text) :
    ofBlock raw =
      { description := paragraph? (sections ((lines (body raw.toList)).map withoutMargin)).1
        tags := (sections ((lines (body raw.toList)).map withoutMargin)).2.map tagOf } :=
  rfl

theorem openedTag?_tag
    {name behind : List Character} (hname : IsTagName name)
    (hbehind : ∀ c ∈ behind.head?, isTagPart c = false) :
    openedTag? (.scalar '@' :: (name ++ behind)) = some (name, Text.trimStart behind) := by
  obtain ⟨hstart, hrest⟩ := hname
  rename_i c rest
  have htake : (rest ++ behind).takeWhile isTagPart = rest :=
    Source.takeWhile_append_of_stop hrest hbehind
  have hdrop : (rest ++ behind).dropWhile isTagPart = behind := by
    rw [List.dropWhile_append_of_pos hrest]
    cases behind with
    | nil => rfl
    | cons d behind => rw [List.dropWhile_cons_of_neg (by simp [hbehind d rfl])]
  rw [List.cons_append, openedTag?, if_pos hstart, htake, hdrop]

/-- The first line of a tag opens it and the others do not; together they are its text. -/
theorem exists_lines_content
    {tag : DocTag} (hname : IsTagName tag.name.toList)
    (htext : ∀ text ∈ tag.text,
      IsTidy text ∧ ∀ line ∈ (lines text.toList).tail, ¬LooksTagged line) :
    ∃ line first more, lines tag.content = line :: more ∧
      openedTag? line = some (tag.name.toList, first) ∧ (∀ other ∈ more, openedTag? other = none) ∧
      paragraph? (first :: more) = tag.text ∧ ∀ other ∈ line :: more, IsTrimmed other := by
  obtain ⟨name, text⟩ := tag
  have hbreak : .scalar '\n' ∉ .scalar '@' :: name.toList := by
    refine List.not_mem_cons_of_ne_of_not_mem (by decide) fun hmem => ?_
    exact absurd (hname.isBlank (.scalar '\n') hmem) (by decide)
  have hat : ∀ c ∈ some (Character.scalar '@'), c.isIn isBlank = false := by
    rintro c ⟨⟩
    decide
  cases text with
  | none =>
    have hopened : openedTag? (.scalar '@' :: (name.toList ++ [])) = some (name.toList, []) :=
      openedTag?_tag hname nofun
    rw [List.append_nil] at hopened
    have hlines : lines (.scalar '@' :: name.toList ++ []) = [.scalar '@' :: name.toList] := by
      rw [List.append_nil, Text.lines_of_newline_notMem hbreak]
    refine ⟨.scalar '@' :: name.toList, [], [], hlines, hopened, List.forall_mem_nil _, rfl,
      List.forall_mem_singleton.mpr ⟨hat, fun c hc => ?_⟩⟩
    rw [List.getLast?_cons_of_ne_nil hname.ne_nil] at hc
    exact hname.isBlank c (List.mem_of_getLast? hc)
  | some text =>
    obtain ⟨htidy, hplain⟩ := htext text rfl
    have hfront : .scalar '\n' ∉ .scalar '@' :: name.toList ++ [.scalar ' '] := by
      simpa using hbreak
    obtain ⟨first, more, hlines, hcontent⟩ :=
      Text.lines_append_of_newline_notMem hfront text.toList
    rw [List.append_assoc, List.singleton_append, List.append_assoc, List.singleton_append]
      at hcontent
    have htrimmed : ∀ line ∈ first :: more, IsTrimmed line := hlines ▸ htidy.trimmedLines
    obtain ⟨hfirst, hmore⟩ := List.forall_mem_cons.mp htrimmed
    have hspace : ∀ c ∈ (Character.scalar ' ' :: first).head?, isTagPart c = false := by
      rintro c ⟨⟩
      decide +kernel
    have hopened :
        openedTag? (.scalar '@' :: (name.toList ++ .scalar ' ' :: first)) =
          some (name.toList, first) := by
      rw [openedTag?_tag hname hspace, ← List.singleton_append,
        Text.trimStart_blank_append (List.forall_mem_singleton.mpr (by decide)), hfirst.trimStart_eq]
    refine ⟨_, first, more, hcontent, hopened, ?_, ?_,
      List.forall_mem_cons.mpr ⟨⟨hat, ?_⟩, hmore⟩⟩
    · rw [hlines] at hplain
      exact fun other hother => openedTag?_eq_none_iff.mpr (hplain other hother)
    · rw [← hlines, paragraph?_lines htidy]
    · intro c hc
      rw [List.getLast?_append_of_ne_nil _ (List.cons_ne_nil (.scalar ' ') first),
        List.getLast?_cons_of_ne_nil (htidy.ne_nil_of_lines hlines)] at hc
      exact hfirst.last c hc

/-- The sections of tags, with an empty line behind them, are the tags. -/
theorem exists_sections_tagLines
    {tags : List DocTag} (hname : ∀ tag ∈ tags, IsTagName tag.name.toList)
    (htext : ∀ tag ∈ tags, ∀ text ∈ tag.text,
      IsTidy text ∧ ∀ line ∈ (lines text.toList).tail, ¬LooksTagged line) :
    ∃ front groups, sections (tagLines tags ++ [[]]) = (front, groups) ∧
      (front = [] ∨ front = [[]]) ∧ groups.map tagOf = tags := by
  induction tags with
  | nil => exact ⟨[[]], [], rfl, .inr rfl, rfl⟩
  | cons tag rest ih =>
    obtain ⟨hname, hnames⟩ := List.forall_mem_cons.mp hname
    obtain ⟨htext, htexts⟩ := List.forall_mem_cons.mp htext
    obtain ⟨front, groups, hsections, hfront, hgroups⟩ := ih hnames htexts
    obtain ⟨line, first, more, hlines, hopened, hmore, hparagraph, -⟩ :=
      exists_lines_content hname htext
    refine ⟨[], (tag.name.toList, first :: (more ++ front)) :: groups, ?_, .inl rfl, ?_⟩
    · rw [tagLines, List.flatMap_cons, ← tagLines, hlines, List.append_assoc, List.cons_append,
        sections_cons_of_opened hopened, sections_append hmore, hsections]
    · have htag : paragraph? (first :: (more ++ front)) = tag.text := by
        obtain rfl | rfl := hfront
        · rw [List.append_nil, hparagraph]
        · rw [← List.cons_append, paragraph?_concat_nil, hparagraph]
      rw [List.map_cons, hgroups, tagOf, htag]

/-! ## Reading what was written -/

theorem isTrimmed_of_mem
    {docs : Documentation} (h : docs.IsWritable) :
    ∀ line ∈ docs.contentLines, IsTrimmed line := by
  intro line hline
  obtain hdescription | htags := List.mem_append.mp hline
  · unfold descriptionLines at hdescription
    split at hdescription
    · cases hdescription
    · rename_i text htext
      exact (h.description text htext).1.trimmedLines line hdescription
  · obtain ⟨tag, htag, hmem⟩ := List.mem_flatMap.mp htags
    obtain ⟨_, _, _, hlines, -, -, -, htrimmed⟩ :=
      exists_lines_content (h.name tag htag) (h.text tag htag)
    exact htrimmed line (hlines ▸ hmem)

theorem newline_notMem_of_mem
    {docs : Documentation} {line : List Character}
    (h : line ∈ docs.contentLines) :
    .scalar '\n' ∉ line := by
  obtain hdescription | htags := List.mem_append.mp h
  · unfold descriptionLines at hdescription
    split at hdescription
    · cases hdescription
    · exact Text.newline_notMem_of_mem_lines hdescription
  · obtain ⟨tag, -, hmem⟩ := List.mem_flatMap.mp htags
    exact Text.newline_notMem_of_mem_lines hmem

/-- The lines inside a block: between the marks there is one more at each end. -/
def insideLines (docs : Documentation) : List (List Character) :=
  [] :: docs.contentLines.map withMargin ++ [[.scalar ' ']]

theorem toList_written
    (docs : Documentation) :
    docs.written.toList = .scalar '/' :: .scalar '*' :: .scalar '*' ::
      (joined docs.insideLines ++ [.scalar '*', .scalar '/']) := by
  have hopen : ("/**" : Text).toList = [.scalar '/', .scalar '*', .scalar '*'] := rfl
  have hclose : (" */" : Text).toList = [.scalar ' '] ++ [.scalar '*', .scalar '/'] := rfl
  have hmargins : (docs.contentLines.map fun line => Text.ofList (withMargin line)).map
      Text.toList = docs.contentLines.map withMargin := by
    simp [Function.comp_def]
  rw [written, Text.toList_unlines, List.cons_append, List.map_cons, List.map_append, hmargins,
    List.map_singleton, hopen, hclose, ← List.cons_append, Text.joined_concat_append, insideLines]
  obtain ⟨second, more, hmore⟩ := List.exists_cons_of_ne_nil
    (List.append_ne_nil_of_right_ne_nil (docs.contentLines.map withMargin)
      (List.cons_ne_nil [Character.scalar ' '] []))
  rw [List.cons_append, List.cons_append, hmore, Text.joined_cons_cons, Text.joined_cons_cons]
  rfl

theorem lines_insideLines
    (docs : Documentation) :
    lines (joined docs.insideLines) = docs.insideLines := by
  refine Text.lines_joined (List.cons_ne_nil _ _) fun line hline => ?_
  simp only [insideLines, List.cons_append, List.mem_cons, List.mem_append, List.mem_map,
    List.not_mem_nil, or_false] at hline
  obtain rfl | ⟨content, hcontent, rfl⟩ | rfl := hline
  · exact List.not_mem_nil
  · simpa [withMargin] using newline_notMem_of_mem hcontent
  · decide

theorem map_withoutMargin_insideLines
    {docs : Documentation} (h : docs.IsWritable) :
    docs.insideLines.map withoutMargin =
      [] :: (docs.descriptionLines ++ (tagLines docs.tags ++ [[]])) := by
  have hcontents : docs.contentLines.map (withoutMargin ∘ withMargin) = docs.contentLines :=
    (List.map_congr_left fun line hline =>
      withoutMargin_withMargin (isTrimmed_of_mem h line hline)).trans (List.map_id _)
  have hends : withoutMargin [] = [] ∧ withoutMargin [.scalar ' '] = [] := ⟨rfl, rfl⟩
  rw [insideLines, List.cons_append, List.map_cons, List.map_append, List.map_map, hcontents,
    List.map_singleton, hends.1, hends.2, contentLines, List.append_assoc]

theorem paragraph?_descriptionLines
    {docs : Documentation} (h : docs.IsWritable) :
    paragraph? docs.descriptionLines = docs.description := by
  unfold descriptionLines
  split
  · rename_i hnone
    rw [hnone]
    rfl
  · rename_i text htext
    rw [paragraph?_lines (h.description text htext).1, htext]

theorem openedTag?_descriptionLines
    {docs : Documentation} (h : docs.IsWritable) :
    ∀ line ∈ docs.descriptionLines, openedTag? line = none := by
  intro line hline
  unfold descriptionLines at hline
  split at hline
  · cases hline
  · rename_i text htext
    exact openedTag?_eq_none_iff.mpr ((h.description text htext).2 line hline)

theorem ofBlock_written
    {docs : Documentation} (h : docs.IsWritable) :
    ofBlock docs.written = docs := by
  obtain ⟨front, groups, hsections, hfront, hgroups⟩ := exists_sections_tagLines h.name h.text
  have hdescription : paragraph? ([] :: (docs.descriptionLines ++ front)) = docs.description := by
    rw [paragraph?_nil_cons, ← paragraph?_descriptionLines h]
    obtain rfl | rfl := hfront
    · rw [List.append_nil]
    · rw [paragraph?_concat_nil]
  have hplain : ∀ line ∈ [] :: docs.descriptionLines, openedTag? line = none :=
    List.forall_mem_cons.mpr ⟨rfl, openedTag?_descriptionLines h⟩
  have hall : sections ([] :: (docs.descriptionLines ++ (tagLines docs.tags ++ [[]]))) =
      ([] :: (docs.descriptionLines ++ front), groups) := by
    rw [← List.cons_append, sections_append hplain, hsections, List.cons_append]
  rw [ofBlock_eq, toList_written, body_eq, lines_insideLines, map_withoutMargin_insideLines h, hall,
    hdescription, hgroups]

/-! ## Several blocks -/

/-- The tags add up, and of the descriptions the last one stays. -/
theorem foldl_append
    (first : Documentation) (blocks : List Documentation) :
    blocks.foldl append first =
      { description := (blocks.filterMap Documentation.description).getLast?.or first.description
        tags := first.tags ++ blocks.flatMap Documentation.tags } := by
  induction blocks generalizing first with
  | nil => simp
  | cons next blocks ih =>
    rw [List.foldl_cons, ih, append, List.filterMap_cons, List.flatMap_cons, List.append_assoc]
    cases hnext : next.description with
    | none => rfl
    | some text =>
      rw [List.getLast?_cons]
      cases (blocks.filterMap Documentation.description).getLast? <;> rfl

/-- What is written as a block is read again, and so are several blocks together: all their tags, and
the last description that there is. -/
theorem ofBlocks?_written :
    (∀ docs : Documentation, docs.IsWritable → ofBlock docs.written = docs) ∧
      ∀ blocks : List Documentation, blocks ≠ [] → (∀ docs ∈ blocks, docs.IsWritable) →
        ofBlocks? (blocks.map written) = some
          { description := (blocks.filterMap Documentation.description).getLast?
            tags := blocks.flatMap Documentation.tags } := by
  refine ⟨fun docs => ofBlock_written, fun blocks hne hblocks => ?_⟩
  have hread : (blocks.map written).map ofBlock = blocks := by
    rw [List.map_map]
    exact (List.map_congr_left fun docs hdocs => ofBlock_written (hblocks docs hdocs)).trans
      (List.map_id _)
  rw [ofBlocks?, if_neg (by simpa using hne), hread, foldl_append]
  simp

/-- Lines that start with a star or an at sign, an empty line, and tags with and without a text. -/
def starredDocs : Documentation where
  description := some "* one\n\n@ two\nthree */"
  tags := [⟨"see-é", some "@pk\n* four"⟩, ⟨"$", none⟩]

theorem isWritable_starredDocs :
    starredDocs.IsWritable where
  description text htext := by
    obtain rfl := Option.some.inj htext
    decide +kernel
  name := by decide +kernel
  text := by decide +kernel

/-- A block without a description behind it adds its tags. -/
theorem ofBlocks?_starredDocs :
    starredDocs.IsWritable ∧ ofBlock starredDocs.written = starredDocs ∧
      ofBlocks? [starredDocs.written, written { tags := [⟨"pk", none⟩] }] = some
        { starredDocs with tags := starredDocs.tags ++ [⟨"pk", none⟩] } := by
  have htag : IsWritable { tags := [⟨"pk", none⟩] } := ⟨nofun, by decide, by decide⟩
  refine ⟨isWritable_starredDocs, ofBlocks?_written.1 starredDocs isWritable_starredDocs, ?_⟩
  exact ofBlocks?_written.2 [starredDocs, { tags := [⟨"pk", none⟩] }] (List.cons_ne_nil _ _)
    (List.forall_mem_cons.mpr ⟨isWritable_starredDocs, List.forall_mem_singleton.mpr htag⟩)

end Documentation

end EntityDiagram.Declaration
