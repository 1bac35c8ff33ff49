import EntityDiagram.Declaration.Parse.Basic
import EntityDiagram.Proofs.Declaration.Spelling

/-!
# Readers and what they read

`Reads reader lexemes value follow` says that a reader takes tokens with the given lexemes off any
list of tokens whose rest satisfies `follow`, and returns the value. The rest has to be restricted
because readers look ahead: a list of types goes on behind a comma, a type behind a bar.

The tokens of a spelling carry no documentation. They may stand on new lines, apart from the three
that continue a type only on its own line.
-/

namespace EntityDiagram.Declaration

open Source (Lexeme Token)

/-- A lexeme that may start a line wherever it stands. -/
def mayStartLine (lexeme : Lexeme) : Prop :=
  lexeme ≠ .punct "[" ∧ lexeme ≠ .punct "<" ∧ lexeme ≠ .ident "extends"

/-- A token without documentation that continues a type only on the type's own line. -/
structure IsPlain (token : Token) : Prop where
  docs : token.lead.docs = []
  line : token.lead.newline = true → mayStartLine token.lexeme

theorem IsPlain.newline_eq_false
    {token : Token} (h : IsPlain token) (hlexeme : ¬mayStartLine token.lexeme) :
    token.lead.newline = false := by
  cases hline : token.lead.newline with
  | false => rfl
  | true => exact absurd (h.line hline) hlexeme

/-- The tokens have the given lexemes and are plain. -/
def Spells (tokens : List Token) (lexemes : List Lexeme) : Prop :=
  tokens.map Token.lexeme = lexemes ∧ ∀ token ∈ tokens, IsPlain token

@[simp]
theorem spells_nil_iff
    {tokens : List Token} :
    Spells tokens [] ↔ tokens = [] := by
  constructor
  · rintro ⟨hlexemes, -⟩
    exact List.map_eq_nil_iff.mp hlexemes
  · rintro rfl
    simp [Spells]

theorem spells_cons_iff
    {tokens : List Token} {lexeme : Lexeme} {lexemes : List Lexeme} :
    Spells tokens (lexeme :: lexemes) ↔
      ∃ lead more, tokens = ⟨lexeme, lead⟩ :: more ∧ IsPlain ⟨lexeme, lead⟩ ∧
        Spells more lexemes := by
  constructor
  · rintro ⟨hlexemes, hplain⟩
    obtain ⟨token, more, rfl, rfl, hmore⟩ := List.map_eq_cons_iff.mp hlexemes
    exact ⟨token.lead, more, rfl, hplain token List.mem_cons_self,
      hmore, fun t ht => hplain t (List.mem_cons_of_mem _ ht)⟩
  · rintro ⟨lead, more, rfl, hfirst, hmore, hplain⟩
    exact ⟨by simp [hmore], by simpa using ⟨hfirst, hplain⟩⟩

theorem spells_singleton_iff
    {tokens : List Token} {lexeme : Lexeme} :
    Spells tokens [lexeme] ↔ ∃ lead, tokens = [⟨lexeme, lead⟩] ∧ IsPlain ⟨lexeme, lead⟩ := by
  simp [spells_cons_iff]

theorem spells_append_iff
    {tokens : List Token} {first second : List Lexeme} :
    Spells tokens (first ++ second) ↔
      ∃ front back, tokens = front ++ back ∧ Spells front first ∧ Spells back second := by
  constructor
  · rintro ⟨hlexemes, hplain⟩
    obtain ⟨front, back, rfl, hfront, hback⟩ := List.map_eq_append_iff.mp hlexemes
    exact ⟨front, back, rfl, ⟨hfront, fun t ht => hplain t (List.mem_append_left _ ht)⟩,
      hback, fun t ht => hplain t (List.mem_append_right _ ht)⟩
  · rintro ⟨front, back, rfl, ⟨rfl, hfront⟩, rfl, hback⟩
    refine ⟨List.map_append, fun t ht => ?_⟩
    exact (List.mem_append.mp ht).elim (hfront t) (hback t)

theorem Spells.length_eq
    {tokens : List Token} {lexemes : List Lexeme} (h : Spells tokens lexemes) :
    tokens.length = lexemes.length := by
  rw [← h.1, List.length_map]

/-- Tokens with the given lexemes, all of them on one line. -/
def tokensOnLine (lexemes : List Lexeme) : List Token :=
  lexemes.map fun lexeme => ⟨lexeme, ⟨.start, false, []⟩⟩

theorem spells_tokensOnLine
    (lexemes : List Lexeme) :
    Spells (tokensOnLine lexemes) lexemes := by
  constructor
  · simp [tokensOnLine, Function.comp_def]
  · intro token htoken
    obtain ⟨lexeme, -, rfl⟩ := List.mem_map.mp htoken
    exact ⟨rfl, by simp⟩

/-- The lexemes on a line of their own. -/
def tokensOnNewLine : List Lexeme → List Token
  | [] => []
  | lexeme :: rest => ⟨lexeme, ⟨.start, true, []⟩⟩ :: tokensOnLine rest

/-- What the first lexeme of a spelling is, the first token has. -/
theorem Spells.lexemeAt?_zero
    {tokens rest : List Token} {lexeme : Lexeme} {lexemes : List Lexeme}
    (h : Spells tokens (lexeme :: lexemes)) :
    lexemeAt? (tokens ++ rest) 0 = some lexeme := by
  obtain ⟨lead, more, rfl, -, -⟩ := spells_cons_iff.mp h
  rfl

@[simp]
theorem lexemeAt?_nil
    (offset : Nat) :
    lexemeAt? [] offset = none := by
  simp [lexemeAt?]

@[simp]
theorem lexemeAt?_cons_zero
    (token : Token) (rest : List Token) :
    lexemeAt? (token :: rest) 0 = some token.lexeme :=
  rfl

@[simp]
theorem lexemeAt?_cons_succ
    (token : Token) (rest : List Token) (offset : Nat) :
    lexemeAt? (token :: rest) (offset + 1) = lexemeAt? rest offset :=
  rfl

@[simp]
theorem onNewLine_cons
    (token : Token) (rest : List Token) :
    onNewLine (token :: rest) = token.lead.newline :=
  rfl

namespace Parse

variable {α β : Type} {tokens : List Token}

@[simp]
theorem run_bind
    (reader : Parse α) (next : α → Parse β) :
    (reader >>= next) tokens = (reader tokens).bind fun read => next read.1 read.2 :=
  rfl

@[simp]
theorem run_map
    (f : α → β) (reader : Parse α) :
    (f <$> reader) tokens = (reader tokens).bind fun read => .ok (f read.1, read.2) :=
  rfl

@[simp]
theorem run_pure
    (value : α) :
    (pure value : Parse α) tokens = .ok (value, tokens) :=
  rfl

@[simp]
theorem run_get :
    (get : Parse (List Token)) tokens = .ok (tokens, tokens) :=
  rfl

@[simp]
theorem run_set
    (remaining : List Token) :
    (set remaining : Parse PUnit) tokens = .ok (.unit, remaining) :=
  rfl

@[simp]
theorem run_modify
    (f : List Token → List Token) :
    (modify f : Parse PUnit) tokens = .ok (.unit, f tokens) :=
  rfl

@[simp]
theorem run_skip
    (count : Nat) :
    skip count tokens = .ok ((), tokens.drop count) :=
  rfl

theorem run_eat_of_true
    {mark : String} (h : markAt tokens 0 mark = true) :
    eat mark tokens = .ok (true, tokens.drop 1) := by
  simp [eat, h]

theorem run_eat_of_false
    {mark : String} (h : markAt tokens 0 mark = false) :
    eat mark tokens = .ok (false, tokens) := by
  simp [eat, h]

theorem run_expect
    {mark : String} (h : markAt tokens 0 mark = true) :
    expect mark tokens = .ok ((), tokens.drop 1) := by
  simp [expect, h]

@[simp]
theorem run_sees
    (mark : String) :
    sees mark tokens = .ok (markAt tokens 0 mark, tokens) :=
  rfl

@[simp]
theorem run_ite
    (condition : Prop) [Decidable condition] (reader other : Parse α) :
    (if condition then reader else other) tokens =
      if condition then reader tokens else other tokens := by
  split <;> rfl

@[simp]
theorem ok_bind
    {ε : Type} (value : α) (next : α → Except ε β) :
    (Except.ok value).bind next = next value :=
  rfl

theorem bind_eq_ok
    {ε : Type} {read : Except ε α} {next : α → Except ε β} {value : β}
    (h : read.bind next = .ok value) :
    ∃ first, read = .ok first ∧ next first = .ok value := by
  cases read with
  | error e => cases h
  | ok first => exact ⟨first, rfl, h⟩

theorem mapError_eq_ok
    {ε ε' : Type} {read : Except ε α} {f : ε → ε'} {value : α} :
    read.mapError f = .ok value ↔ read = .ok value := by
  cases read with
  | error e => exact iff_of_false nofun nofun
  | ok first =>
    exact ⟨fun h => congrArg Except.ok (Except.ok.inj h),
      fun h => congrArg Except.ok (Except.ok.inj h)⟩

theorem map_eq_ok
    {ε : Type} {read : Except ε α} {f : α → β} {value : β} (h : read.map f = .ok value) :
    ∃ first, read = .ok first ∧ f first = value := by
  cases read with
  | error e => cases h
  | ok first => exact ⟨first, rfl, Except.ok.inj h⟩

end Parse

/-- The reader takes the lexemes off the front of any list of tokens whose rest satisfies `follow`,
and returns the value. -/
def Reads
    {α : Type} (reader : Parse α) (lexemes : List Lexeme) (value : α)
    (follow : List Token → Prop) : Prop :=
  ∀ ⦃tokens rest⦄, Spells tokens lexemes → follow rest → reader (tokens ++ rest) = .ok (value, rest)

theorem Reads.mono
    {α : Type} {reader : Parse α} {lexemes : List Lexeme} {value : α}
    {follow follow' : List Token → Prop}
    (h : Reads reader lexemes value follow) (hfollow : ∀ rest, follow' rest → follow rest) :
    Reads reader lexemes value follow' :=
  fun _ rest htokens hrest => h htokens (hfollow rest hrest)

/-- One of the marks comes next. -/
def SeesOneOf
    (marks : List String) (rest : List Token) : Prop :=
  ∃ mark ∈ marks, markAt rest 0 mark = true

/-- Only one mark can come next. -/
theorem SeesOneOf.markAt_eq_false
    {marks : List String} {rest : List Token} (h : SeesOneOf marks rest) {other : String}
    (hother : other ∉ marks) :
    markAt rest 0 other = false := by
  obtain ⟨mark, hmark, hrest⟩ := h
  have hne : mark ≠ other := fun heq => hother (heq ▸ hmark)
  simp only [markAt, beq_iff_eq] at hrest
  simp [markAt, hrest, hne]

theorem SeesOneOf.identAt_eq_false
    {marks : List String} {rest : List Token} (h : SeesOneOf marks rest) :
    identAt rest 0 = false := by
  obtain ⟨mark, -, hrest⟩ := h
  simp only [markAt, beq_iff_eq] at hrest
  simp [identAt, nameAt?, hrest]

theorem wordAt_of_not_ident
    {tokens : List Token} {offset : Nat} (h : identAt tokens offset = false) (word : String) :
    wordAt tokens offset word = false := by
  cases hlexeme : lexemeAt? tokens offset with
  | none => simp [wordAt, hlexeme]
  | some lexeme => cases lexeme <;> simp_all [wordAt, identAt, nameAt?]

theorem seesOneOf_singleton
    {mark : String} {rest : List Token} (h : markAt rest 0 mark = true) :
    SeesOneOf [mark] rest :=
  ⟨mark, List.mem_singleton_self mark, h⟩

/-- What sees one of the marks also sees one of more marks. -/
theorem SeesOneOf.cons
    {marks : List String} {rest : List Token} (h : SeesOneOf marks rest) (mark : String) :
    SeesOneOf (mark :: marks) rest := by
  obtain ⟨other, hother, hsees⟩ := h
  exact ⟨other, List.mem_cons_of_mem mark hother, hsees⟩

@[simp]
theorem separated_nil
    (mark : String) :
    separated mark [] = [] :=
  rfl

@[simp]
theorem separated_singleton
    (mark : String) (part : List Lexeme) :
    separated mark [part] = part := by
  simp [separated]

@[simp]
theorem separated_cons_cons
    (mark : String) (first second : List Lexeme) (rest : List (List Lexeme)) :
    separated mark (first :: second :: rest) =
      first ++ .punct mark :: separated mark (second :: rest) := by
  simp [separated]

/-- There are at least as many lexemes as parts, unless parts are empty. -/
theorem length_le_length_separated
    {mark : String} {parts : List (List Lexeme)} (hparts : ∀ part ∈ parts, part ≠ []) :
    parts.length ≤ (separated mark parts).length := by
  induction parts with
  | nil => simp
  | cons first rest ih =>
    have hfirst : 0 < first.length := List.length_pos_iff.mpr (hparts first List.mem_cons_self)
    cases rest with
    | nil =>
      rw [separated_singleton]
      exact hfirst
    | cons second rest =>
      have hrest := ih fun part hpart => hparts part (List.mem_cons_of_mem _ hpart)
      simp only [separated_cons_cons, List.length_append, List.length_cons] at hrest ⊢
      omega

theorem length_le_length_flatMap
    {α β : Type} {f : α → List β} {items : List α} (hitems : ∀ x ∈ items, f x ≠ []) :
    items.length ≤ (items.flatMap f).length := by
  induction items with
  | nil => simp
  | cons x items ih =>
    have hfirst : 0 < (f x).length := List.length_pos_iff.mpr (hitems x List.mem_cons_self)
    have hmore := ih fun y hy => hitems y (List.mem_cons_of_mem _ hy)
    rw [List.flatMap_cons, List.length_append, List.length_cons]
    omega

/-- No part is longer than the whole. -/
theorem length_le_of_mem_separated
    (mark : String) {parts : List (List Lexeme)} {part : List Lexeme} (hpart : part ∈ parts) :
    part.length ≤ (separated mark parts).length := by
  induction parts with
  | nil => simp at hpart
  | cons first rest ih =>
    cases rest with
    | nil =>
      have hfirst : part = first := List.mem_singleton.mp hpart
      simp [hfirst]
    | cons second rest =>
      rw [separated_cons_cons, List.length_append, List.length_cons]
      rcases List.mem_cons.mp hpart with rfl | hmem
      · omega
      · have := ih hmem
        omega

namespace Parse

variable {α : Type} {item : Parse α} {spelling : α → List Lexeme}

theorem commaListWithin_eq
    {closer : String} {items : List α}
    (hitem : ∀ x ∈ items, Reads item (spelling x) x (SeesOneOf [",", closer]))
    (hopen : ∀ x ∈ items, ∃ first more, spelling x = first :: more ∧ first ≠ .punct closer)
    {tokens rest : List Token} (htokens : Spells tokens (separated "," (items.map spelling)))
    (hrest : markAt rest 0 closer = true) (hcomma : markAt rest 0 "," = false)
    {steps : Nat} (hsteps : items.length < steps) :
    commaListWithin closer item steps (tokens ++ rest) = .ok (items, rest) := by
  induction items generalizing tokens steps with
  | nil =>
    obtain rfl := spells_nil_iff.mp htokens
    cases steps with
    | zero => simp at hsteps
    | succ steps => simp [commaListWithin, hrest]
  | cons x items ih =>
    obtain ⟨steps, rfl⟩ := Nat.exists_eq_succ_of_ne_zero (Nat.ne_zero_of_lt hsteps)
    have hx := hitem x List.mem_cons_self
    obtain ⟨first, more, hspelling, hfirst⟩ := hopen x List.mem_cons_self
    cases items with
    | nil =>
      rw [List.map_cons, List.map_nil, separated_singleton] at htokens
      have hhead : markAt (tokens ++ rest) 0 closer = false := by
        simp [markAt, (hspelling ▸ htokens).lexemeAt?_zero, hfirst]
      simp [commaListWithin, hhead, hx htokens ⟨closer, by simp, hrest⟩, run_eat_of_false hcomma]
    | cons y items =>
      rw [List.map_cons, List.map_cons, separated_cons_cons, ← List.map_cons] at htokens
      obtain ⟨front, _, rfl, hfront, hback⟩ := spells_append_iff.mp htokens
      obtain ⟨lead, back, rfl, -, hback⟩ := spells_cons_iff.mp hback
      have hmark : markAt (⟨.punct ",", lead⟩ :: (back ++ rest)) 0 "," = true := by
        simp [markAt]
      have hhead : markAt (front ++ ⟨.punct ",", lead⟩ :: (back ++ rest)) 0 closer = false := by
        simp [markAt, (hspelling ▸ hfront).lexemeAt?_zero, hfirst]
      have hmore := ih (fun z hz => hitem z (List.mem_cons_of_mem _ hz))
        (fun z hz => hopen z (List.mem_cons_of_mem _ hz)) hback
        (Nat.lt_of_succ_lt_succ hsteps)
      simp [commaListWithin, hhead, hx hfront ⟨",", by simp, hmark⟩, run_eat_of_true hmark, hmore]

/-- A list in brackets comes back if its items do. -/
theorem commaList_reads
    {closer : String} (hcloser : closer ≠ ",") {items : List α}
    (hitem : ∀ x ∈ items, Reads item (spelling x) x (SeesOneOf [",", closer]))
    (hopen : ∀ x ∈ items, ∃ first more, spelling x = first :: more ∧ first ≠ .punct closer) :
    Reads (commaList closer item) (separated "," (items.map spelling) ++ [.punct closer]) items
      fun _ => True := by
  intro tokens rest htokens _
  obtain ⟨front, _, rfl, hfront, hback⟩ := spells_append_iff.mp htokens
  obtain ⟨lead, rfl, -⟩ := spells_singleton_iff.mp hback
  have hmark : markAt (⟨.punct closer, lead⟩ :: rest) 0 closer = true := by simp [markAt]
  have hcomma : markAt (⟨.punct closer, lead⟩ :: rest) 0 "," = false := by simp [markAt, hcloser]
  have hlength : items.length ≤ front.length := by
    have hparts : ∀ part ∈ items.map spelling, part ≠ [] := by
      intro part hpart
      obtain ⟨x, hx, rfl⟩ := List.mem_map.mp hpart
      obtain ⟨first, more, hspelling, -⟩ := hopen x hx
      simp [hspelling]
    rw [← List.length_map (f := spelling), hfront.length_eq]
    exact length_le_length_separated hparts
  have hsteps : items.length < (front ++ ⟨.punct closer, lead⟩ :: rest).length + 1 := by
    rw [List.length_append]
    omega
  have hitems := commaListWithin_eq hitem hopen hfront hmark hcomma hsteps
  rw [List.append_assoc, List.singleton_append]
  simp [commaList, -List.length_append, hitems, run_expect hmark]

theorem chainWithin_eq
    {mark : String} {x : α} {items : List α} {rest : List Token}
    (hitem : ∀ y ∈ (x :: items).dropLast, Reads item (spelling y) y
      fun rest => markAt rest 0 mark = true)
    (hlast : Reads item (spelling ((x :: items).getLast (by simp)))
      ((x :: items).getLast (by simp)) (· = rest))
    (hrest : markAt rest 0 mark = false)
    {tokens : List Token} (htokens : Spells tokens (separated mark ((x :: items).map spelling)))
    {steps : Nat} (hsteps : items.length < steps) :
    chainWithin mark item steps (tokens ++ rest) = .ok (x :: items, rest) := by
  induction items generalizing x tokens steps with
  | nil =>
    obtain ⟨steps, rfl⟩ := Nat.exists_eq_succ_of_ne_zero (Nat.ne_zero_of_lt hsteps)
    rw [List.map_cons, List.map_nil, separated_singleton] at htokens
    have hx := hlast htokens rfl
    rw [List.getLast_singleton] at hx
    simp [chainWithin, hx, run_eat_of_false hrest]
  | cons y items ih =>
    obtain ⟨steps, rfl⟩ := Nat.exists_eq_succ_of_ne_zero (Nat.ne_zero_of_lt hsteps)
    rw [List.map_cons, List.map_cons, separated_cons_cons, ← List.map_cons] at htokens
    obtain ⟨front, _, rfl, hfront, hback⟩ := spells_append_iff.mp htokens
    obtain ⟨lead, back, rfl, -, hback⟩ := spells_cons_iff.mp hback
    have hmark : markAt (⟨.punct mark, lead⟩ :: (back ++ rest)) 0 mark = true := by
      simp [markAt]
    have hx := hitem x (by simp) hfront hmark
    have hmore := ih (fun z hz => hitem z (by simp [hz]))
      (by simpa using hlast) hback (Nat.lt_of_succ_lt_succ hsteps)
    simp [chainWithin, hx, run_eat_of_true hmark, hmore]

/-- Items with a mark between them come back if the items do: all but the last one in front of the
mark, the last one in front of what follows the whole. -/
theorem chain_reads
    {mark : String} {x : α} {items : List α} {follow : List Token → Prop}
    (hitem : ∀ y ∈ (x :: items).dropLast, Reads item (spelling y) y
      fun rest => markAt rest 0 mark = true)
    (hlast : Reads item (spelling ((x :: items).getLast (by simp)))
      ((x :: items).getLast (by simp)) follow)
    (hfollow : ∀ rest, follow rest → markAt rest 0 mark = false)
    (hopen : ∀ y ∈ x :: items, spelling y ≠ []) :
    Reads (chain mark item) (separated mark ((x :: items).map spelling)) (x :: items) follow := by
  intro tokens rest htokens hrest
  have hlength : (x :: items).length ≤ tokens.length := by
    have hparts : ∀ part ∈ (x :: items).map spelling, part ≠ [] := by
      intro part hpart
      obtain ⟨y, hy, rfl⟩ := List.mem_map.mp hpart
      exact hopen y hy
    rw [← List.length_map (f := spelling), htokens.length_eq]
    exact length_le_length_separated hparts
  have hsteps : items.length < (tokens ++ rest).length + 1 := by
    rw [List.length_append]
    simp only [List.length_cons] at hlength
    omega
  have hitems := chainWithin_eq hitem (hlast.mono fun _ h => h ▸ hrest) (hfollow rest hrest) htokens
    hsteps
  simp [chain, -List.length_append, hitems]

end Parse

end EntityDiagram.Declaration
