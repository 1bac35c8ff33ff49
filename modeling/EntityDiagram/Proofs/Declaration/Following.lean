import EntityDiagram.Proofs.Declaration.Continuation

/-!
# What readers take, and how they follow each other

`Took least rise loose tokens result` says what a reader has done to a list of tokens. It took at
least `least` tokens from the front and, if it left any, opened at most `rise` more brackets than it
closed; unless it is `loose`, it did not take all tokens up to a final semicolon. A failure keeps a
rest of the tokens and blames something that stands in them.

`Follows` compares this with what a reader does to tokens that go on like these ones. A value is
found there as well, as long as it was read without reaching the end; and where nothing stands
behind, so is a failure.
-/

namespace EntityDiagram.Declaration

open Source (Fault Lead Lexeme Token)

/-- How a lexeme changes the number of open brackets. -/
def turn (lexeme : Lexeme) : Int :=
  if opens lexeme then 1 else if closes lexeme then -1 else 0

theorem turn_le_one
    (lexeme : Lexeme) :
    turn lexeme ≤ 1 := by
  unfold turn
  split
  · exact Int.le_refl _
  · split <;> decide

/-- Only marks are brackets. -/
theorem turn_of_ne
    {lexeme : Lexeme} (h : ∀ mark, lexeme ≠ .punct mark) :
    turn lexeme = 0 := by
  cases lexeme with
  | punct mark => exact absurd rfl (h mark)
  | _ => rfl

/-- How many more brackets are opened than closed. -/
def balance : List Token → Int
  | [] => 0
  | token :: rest => turn token.lexeme + balance rest

/-- No list has more brackets than tokens. -/
theorem balance_le_of_suffix
    {tokens rest : List Token} (hrest : rest <:+ tokens) :
    balance tokens ≤ balance rest + tokens.length := by
  obtain ⟨front, rfl⟩ := hrest
  induction front with
  | nil =>
    rw [List.nil_append]
    omega
  | cons token front ih =>
    have := turn_le_one token.lexeme
    simp only [List.cons_append, balance, List.length_cons]
    omega

/-- The text that comes next, whatever it is. -/
def nextText (lexemes : List Lexeme) : Text :=
  (lexemes.head?.map Lexeme.text).getD ""

/-- What a fault without a position complains about stands among the lexemes: a numeral without a
value, or an import whose next text opens no bracket. -/
inductive Culprit (lexemes : List Lexeme) : Fault → Prop
  | numeral {spelling : String} {fault : Fault} (hmem : .number spelling ∈ lexemes)
      (hvalue : Literal.ofNumeral spelling = .error fault) :
    Culprit lexemes fault
  | import {front behind : List Lexeme}
      (hlexemes : lexemes = front ++ .ident "typeof" :: .ident "import" :: behind)
      (hbracket : (nextText behind).string?.bind closerOf? = none) :
    Culprit lexemes (.noBracket (nextText behind))

theorem Culprit.of_suffix
    {lexemes rest : List Lexeme} {fault : Fault} (h : Culprit rest fault)
    (hrest : rest <:+ lexemes) :
    Culprit lexemes fault := by
  obtain ⟨front, rfl⟩ := hrest
  cases h with
  | numeral hmem hvalue => exact .numeral (List.mem_append_right _ hmem) hvalue
  | @«import» middle behind hlexemes hbracket =>
    rw [hlexemes, ← List.append_assoc]
    exact .import rfl hbracket

/-- What has become of the tokens. -/
structure Took
    {α : Type} (least : Nat) (rise : Int) (loose : Bool) (tokens : List Token)
    (result : Except ParseFailure (α × List Token)) : Prop where
  suffix : ∀ value rest, result = .ok (value, rest) → rest <:+ tokens
  length : ∀ value rest, result = .ok (value, rest) → rest.length + least ≤ tokens.length
  balance : ∀ value rest, result = .ok (value, rest) → rest ≠ [] →
    balance tokens ≤ balance rest + rise
  last : loose = false → ∀ value, result = .ok (value, []) →
    ∀ token ∈ tokens.getLast?, token.lexeme ≠ .punct ";"
  remaining : ∀ failure, result = .error failure → failure.remaining <:+ tokens
  blames : ∀ failure, result = .error failure →
    failure.fault.isLocated = true ∨ Culprit (tokens.map Token.lexeme) failure.fault

/-- The second result follows the first one, which was read from the tokens. -/
structure Follows
    (keep : DocsMap) (behind : List Token) {α γ : Type}
    (least : Nat) (rise : Int) (loose : Bool) (view : α → γ) (tokens : List Token)
    (result result' : Except ParseFailure (α × List Token)) : Prop where
  took : Took least rise loose tokens result
  value : ∀ value rest, result = .ok (value, rest) → Live behind rest →
    ∃ value' rest', result' = .ok (value', rest') ∧ view value' = view value ∧
      Continues keep behind rest rest'
  failure : behind = [] → ∀ failure, result = .error failure →
    ∃ failure', result' = .error failure' ∧ failure'.fault = failure.fault ∧
      Continues keep behind failure.remaining failure'.remaining

section Rules

variable {α β γ δ : Type} {keep : DocsMap} {behind tokens tokens' : List Token}
  {least least₁ least₂ : Nat} {rise rise₁ rise₂ : Int} {loose loose₁ loose₂ : Bool}
  {view : α → γ} {viewNext : β → δ}

theorem Took.weaken
    {result : Except ParseFailure (α × List Token)} (h : Took least₁ rise₁ loose₁ tokens result)
    (hweak : least ≤ least₁ ∧ rise₁ ≤ rise ∧ (loose = false → loose₁ = false)) :
    Took least rise loose tokens result where
  suffix := h.suffix
  length value rest hok := by
    have := h.length value rest hok
    omega
  balance value rest hok hrest := by
    have := h.balance value rest hok hrest
    omega
  last hfalse := h.last (hweak.2.2 hfalse)
  remaining := h.remaining
  blames := h.blames

theorem Follows.weaken
    {result result' : Except ParseFailure (α × List Token)}
    (h : Follows keep behind least₁ rise₁ loose₁ view tokens result result')
    (hweak : least ≤ least₁ ∧ rise₁ ≤ rise ∧ (loose = false → loose₁ = false)) :
    Follows keep behind least rise loose view tokens result result' where
  took := h.took.weaken hweak
  value := h.value
  failure := h.failure

/-- Where there is nothing to take, nothing is left that the brackets could be counted for. -/
theorem Follows.nil
    (rise₁ : Int) {result result' : Except ParseFailure (α × List Token)}
    (h : Follows keep behind least rise₁ loose view [] result result') :
    Follows keep behind least rise loose view [] result result' where
  took :=
    { h.took with
      balance := fun value rest hok hrest =>
        absurd (List.suffix_nil.mp (h.took.suffix value rest hok)) hrest }
  value := h.value
  failure := h.failure

/-- No reader opens more brackets than there are tokens. -/
theorem Follows.bounded
    {result result' : Except ParseFailure (α × List Token)}
    (h : Follows keep behind least rise loose view tokens result result') :
    Follows keep behind least tokens.length loose view tokens result result' where
  took :=
    { h.took with
      balance := fun value rest hok _ => balance_le_of_suffix (h.took.suffix value rest hok) }
  value := h.value
  failure := h.failure

/-- Two readers one after the other. -/
theorem Took.bind
    {result : Except ParseFailure (α × List Token)}
    {next : α × List Token → Except ParseFailure (β × List Token)}
    (h : Took least₁ rise₁ loose₁ tokens result)
    (hnext : ∀ value rest, result = .ok (value, rest) →
      Took least₂ rise₂ loose₂ rest (next (value, rest))) :
    Took (least₁ + least₂) (rise₁ + rise₂) (loose₂ || (loose₁ && least₂ == 0)) tokens
      (result.bind next) := by
  cases result with
  | error failure =>
    refine ⟨?_, ?_, ?_, ?_, ?_, ?_⟩
    · rintro _ _ ⟨⟩
    · rintro _ _ ⟨⟩
    · rintro _ _ ⟨⟩
    · rintro _ _ ⟨⟩
    · rintro _ ⟨⟩
      exact h.remaining failure rfl
    · rintro _ ⟨⟩
      exact h.blames failure rfl
  | ok read =>
    obtain ⟨value, middle⟩ := read
    have hfirst := h.suffix value middle rfl
    have hsecond := hnext value middle rfl
    refine ⟨fun value' rest hok => ?_, fun value' rest hok => ?_, fun value' rest hok hrest => ?_,
      fun hloose value' hok token htoken => ?_, fun failure hfailure => ?_,
      fun failure hfailure => ?_⟩
    · exact (hsecond.suffix value' rest hok).trans hfirst
    · have := h.length value middle rfl
      have := hsecond.length value' rest hok
      omega
    · have hmiddle : middle ≠ [] := by
        rintro rfl
        exact hrest (List.suffix_nil.mp (hsecond.suffix value' rest hok))
      have := h.balance value middle rfl hmiddle
      have := hsecond.balance value' rest hok hrest
      omega
    · rw [Bool.or_eq_false_iff] at hloose
      obtain ⟨front, rfl⟩ := hfirst
      by_cases hmiddle : middle = []
      · -- The second reader took nothing, so the first one took the last token.
        subst hmiddle
        have hzero : least₂ = 0 := by
          have := hsecond.length value' [] hok
          simp only [List.length_nil] at this
          omega
        exact h.last (by simpa [hzero] using hloose.2) value rfl token htoken
      · rw [List.getLast?_append_of_ne_nil _ hmiddle] at htoken
        exact hsecond.last hloose.1 value' hok token htoken
    · exact (hsecond.remaining failure hfailure).trans hfirst
    · refine (hsecond.blames failure hfailure).imp_right fun hculprit => ?_
      exact hculprit.of_suffix (hfirst.map _)

theorem Follows.bind
    {p p' : Parse α} {next next' : α → Parse β}
    (h : Follows keep behind least₁ rise₁ loose₁ view tokens (p tokens) (p' tokens'))
    (hnext : ∀ value value' rest rest', view value' = view value →
      Continues keep behind rest rest' → rest.length + least₁ ≤ tokens.length →
      Follows keep behind least₂ rise₂ loose₂ viewNext rest (next value rest)
        (next' value' rest')) :
    Follows keep behind (least₁ + least₂) (rise₁ + rise₂) (loose₂ || (loose₁ && least₂ == 0))
      viewNext tokens ((p >>= next) tokens) ((p' >>= next') tokens') := by
  have htook : ∀ value rest, p tokens = .ok (value, rest) →
      Took least₂ rise₂ loose₂ rest (next value rest) := by
    intro value rest hok
    have hlength := h.took.length value rest hok
    by_cases hlive : Live behind rest
    · obtain ⟨value', rest', -, hview, hrest⟩ := h.value value rest hok hlive
      exact (hnext value value' rest rest' hview hrest hlength).took
    · -- Nothing is left, and anything may come of it on the other side.
      have hrest : rest = [] := not_not.mp (not_or.mp hlive).2
      subst hrest
      exact (hnext value value [] behind rfl .ending hlength).took
  refine ⟨h.took.bind htook, ?_, ?_⟩
  · intro value rest hok hlive
    rw [Parse.run_bind] at hok
    obtain ⟨⟨first, middle⟩, hp, hok⟩ := Parse.bind_eq_ok hok
    have hsuffix := (htook first middle hp).suffix value rest hok
    have hmiddle : Live behind middle := by
      refine hlive.imp_right fun hrest => ?_
      rintro rfl
      exact hrest (List.suffix_nil.mp hsuffix)
    obtain ⟨first', middle', hp', hview, hcontinues⟩ := h.value first middle hp hmiddle
    have hlength := h.took.length first middle hp
    rw [Parse.run_bind, hp']
    exact (hnext first first' middle middle' hview hcontinues hlength).value value rest hok hlive
  · intro hbehind failure hfailure
    cases hp : p tokens with
    | error first =>
      rw [Parse.run_bind, hp] at hfailure
      obtain rfl := Except.error.inj hfailure
      obtain ⟨failure', hp', hfault, hcontinues⟩ := h.failure hbehind first hp
      rw [Parse.run_bind, hp']
      exact ⟨failure', rfl, hfault, hcontinues⟩
    | ok read =>
      obtain ⟨first, middle⟩ := read
      rw [Parse.run_bind, hp] at hfailure
      obtain ⟨first', middle', hp', hview, hcontinues⟩ :=
        h.value first middle hp (.inl hbehind)
      have hlength := h.took.length first middle hp
      rw [Parse.run_bind, hp']
      exact (hnext first first' middle middle' hview hcontinues hlength).failure hbehind failure
        hfailure

theorem Follows.pure
    {value value' : α} (hview : view value' = view value)
    (h : Continues keep behind tokens tokens') :
    Follows keep behind 0 0 false view tokens ((Pure.pure value : Parse α) tokens)
      ((Pure.pure value' : Parse α) tokens') where
  took := by
    refine ⟨?_, ?_, ?_, ?_, ?_, ?_⟩
    · rintro _ _ ⟨⟩
      exact List.suffix_rfl
    · rintro _ _ ⟨⟩
      exact Nat.le_refl _
    · rintro _ _ ⟨⟩ _
      omega
    · rintro _ _ ⟨⟩ token htoken
      cases htoken
    · rintro _ ⟨⟩
    · rintro _ ⟨⟩
  value := by
    rintro _ _ ⟨⟩ _
    exact ⟨value', tokens', rfl, hview, h⟩
  failure := by
    rintro _ _ ⟨⟩

theorem Follows.map
    {p p' : Parse α} {f f' : α → β}
    (h : Follows keep behind least rise loose view tokens (p tokens) (p' tokens'))
    (hview : ∀ value value', view value' = view value → viewNext (f' value') = viewNext (f value)) :
    Follows keep behind least rise loose viewNext tokens ((f <$> p) tokens)
      ((f' <$> p') tokens') := by
  have hbind : Follows keep behind (least + 0) (rise + 0) (false || (loose && 0 == 0)) viewNext
      tokens ((p >>= fun value => Pure.pure (f value)) tokens)
      ((p' >>= fun value => Pure.pure (f' value)) tokens') :=
    .bind h fun value value' _ _ heq hrest _ => .pure (hview value value' heq) hrest
  exact .weaken hbind ⟨Nat.le_refl _, by omega, by simp⟩

/-- A failure that blames something, in front of tokens that are left. -/
theorem Follows.blame
    {fault : Fault} {left left' : List Token} {result' : Except ParseFailure (α × List Token)}
    (hblame : fault.isLocated = true ∨ Culprit (tokens.map Token.lexeme) fault)
    (hleft : left <:+ tokens) (h : Continues keep behind left left')
    (hresult : behind = [] → result' = .error ⟨fault, left'⟩) :
    Follows keep behind least rise loose view tokens (.error ⟨fault, left⟩) result' where
  took := by
    refine ⟨?_, ?_, ?_, ?_, ?_, ?_⟩
    · rintro _ _ ⟨⟩
    · rintro _ _ ⟨⟩
    · rintro _ _ ⟨⟩
    · rintro _ _ ⟨⟩
    · rintro _ ⟨⟩
      exact hleft
    · rintro _ ⟨⟩
      exact hblame
  value := by
    rintro _ _ ⟨⟩
  failure := by
    rintro hbehind _ ⟨⟩
    exact ⟨_, hresult hbehind, rfl, h⟩

/-- A located failure at the next token. -/
theorem Follows.error
    {fault : Fault} {result' : Except ParseFailure (α × List Token)}
    (hlocated : fault.isLocated = true) (h : Continues keep behind tokens tokens')
    (hresult : behind = [] → result' = .error ⟨fault, tokens'⟩) :
    Follows keep behind least rise loose view tokens (.error ⟨fault, tokens⟩) result' :=
  .blame (.inl hlocated) List.suffix_rfl h hresult

theorem Follows.fail
    {fault : Option Lexeme → Fault} (hlocated : ∀ found, (fault found).isLocated = true)
    (h : Continues keep behind tokens tokens') :
    Follows keep behind least rise loose view tokens (Parse.fail (α := α) fault tokens)
      (Parse.fail (α := α) fault tokens') := by
  refine .error (hlocated _) h fun hbehind => ?_
  rw [Parse.fail, h.lexemeAt?_zero (.inl hbehind)]

/-- One token in front of what is read. -/
theorem Follows.step
    {lexeme : Lexeme} {lead : Lead} {rest : List Token}
    {result result' : Except ParseFailure (α × List Token)}
    (h : Follows keep behind least rise loose view rest result result')
    (hopen : loose = false → least = 0 → lexeme ≠ .punct ";") :
    Follows keep behind (least + 1) (rise + turn lexeme) loose view (⟨lexeme, lead⟩ :: rest) result
      result' where
  took := by
    refine ⟨fun value left hok => ?_, fun value left hok => ?_, fun value left hok hleft => ?_,
      fun hloose value hok last hlast => ?_, fun failure hfailure => ?_,
      fun failure hfailure => ?_⟩
    · exact (h.took.suffix value left hok).trans (List.suffix_cons _ _)
    · have := h.took.length value left hok
      simp only [List.length_cons]
      omega
    · have := h.took.balance value left hok hleft
      simp only [EntityDiagram.Declaration.balance]
      omega
    · cases rest with
      | nil =>
        obtain rfl : ⟨lexeme, lead⟩ = last := by simpa using hlast
        have := h.took.length value [] hok
        exact hopen hloose (by simpa using this)
      | cons next rest => exact h.took.last hloose value hok last hlast
    · exact (h.took.remaining failure hfailure).trans (List.suffix_cons _ _)
    · refine (h.took.blames failure hfailure).imp_right fun hculprit => ?_
      exact hculprit.of_suffix (List.suffix_cons _ _)
  value := h.value
  failure := h.failure

/-- A token that is no mark in front of what is read. -/
theorem Follows.plain
    {lexeme : Lexeme} {lead : Lead} {rest : List Token}
    {result result' : Except ParseFailure (α × List Token)}
    (h : Follows keep behind least rise loose view rest result result')
    (hplain : ∀ mark, lexeme ≠ .punct mark) :
    Follows keep behind (least + 1) rise loose view (⟨lexeme, lead⟩ :: rest) result result' := by
  have hturn := turn_of_ne hplain
  exact .weaken (.step h fun _ _ => hplain ";") ⟨Nat.le_refl _, by omega, id⟩

theorem Follows.word
    {name : String} {lead : Lead} {rest : List Token}
    {result result' : Except ParseFailure (α × List Token)}
    (h : Follows keep behind least rise loose view rest result result') :
    Follows keep behind (least + 1) rise loose view (⟨.ident name, lead⟩ :: rest) result result' :=
  h.plain (by simp)

theorem Follows.skip
    {lexeme : Lexeme} {lead lead' : Lead} {rest rest' : List Token} {next next' : Unit → Parse α}
    (h : Follows keep behind least rise loose view rest (next () rest) (next' () rest'))
    (hopen : loose = false → least = 0 → lexeme ≠ .punct ";") :
    Follows keep behind (least + 1) (rise + turn lexeme) loose view (⟨lexeme, lead⟩ :: rest)
      ((Parse.skip 1 >>= next) (⟨lexeme, lead⟩ :: rest))
      ((Parse.skip 1 >>= next') (⟨lexeme, lead'⟩ :: rest')) :=
  h.step hopen

theorem Follows.skipWord
    {name : String} {lead lead' : Lead} {rest rest' : List Token} {next next' : Unit → Parse α}
    (h : Follows keep behind least rise loose view rest (next () rest) (next' () rest')) :
    Follows keep behind (least + 1) rise loose view (⟨.ident name, lead⟩ :: rest)
      ((Parse.skip 1 >>= next) (⟨.ident name, lead⟩ :: rest))
      ((Parse.skip 1 >>= next') (⟨.ident name, lead'⟩ :: rest')) :=
  h.word

/-- The other result matters only where it can be compared. -/
theorem Follows.of_eq
    {result result' other : Except ParseFailure (α × List Token)}
    (h : Follows keep behind least rise loose view tokens result result')
    (hbehind : behind = [] → other = result')
    (hvalue : ∀ value rest, result = .ok (value, rest) → rest ≠ [] → other = result') :
    Follows keep behind least rise loose view tokens result other where
  took := h.took
  value value rest hok hlive := by
    have hother : other = result' := hlive.elim hbehind (hvalue value rest hok)
    rw [hother]
    exact h.value value rest hok hlive
  failure hempty failure hfailure := by
    rw [hbehind hempty]
    exact h.failure hempty failure hfailure

/-- Where the end has been reached, only what was taken matters. -/
theorem Follows.of_live
    {result result' other : Except ParseFailure (α × List Token)}
    (h : Follows keep behind least rise loose view tokens result result')
    (hlive : Live behind tokens → other = result') :
    Follows keep behind least rise loose view tokens result other := by
  refine h.of_eq (fun hbehind => hlive (.inl hbehind)) fun value rest hok hrest => hlive (.inr ?_)
  rintro rfl
  exact hrest (List.suffix_nil.mp (h.took.suffix value rest hok))

/-- A choice that is made alike on both sides. -/
theorem Follows.ite
    {c c' : Bool} {p p' q q' : Parse α} (hc : Live behind tokens → c' = c)
    (hthen : c = true → Follows keep behind least rise loose view tokens (p tokens) (p' tokens'))
    (helse : c = false → Follows keep behind least rise loose view tokens (q tokens) (q' tokens')) :
    Follows keep behind least rise loose view tokens ((if c then p else q) tokens)
      ((if c' then p' else q') tokens') := by
  cases c with
  | true =>
    refine (hthen rfl).of_live fun hlive => ?_
    rw [hc hlive, if_pos rfl]
  | false =>
    refine (helse rfl).of_live fun hlive => ?_
    rw [hc hlive, if_neg (by simp)]

/-- A choice by something that is known of both sides. -/
theorem Follows.choice
    {c : Prop} [Decidable c] {p p' q q' : Parse α}
    (hthen : c → Follows keep behind least rise loose view tokens (p tokens) (p' tokens'))
    (helse : ¬c → Follows keep behind least rise loose view tokens (q tokens) (q' tokens')) :
    Follows keep behind least rise loose view tokens ((if c then p else q) tokens)
      ((if c then p' else q') tokens') := by
  by_cases hc : c
  · rw [if_pos hc, if_pos hc]
    exact hthen hc
  · rw [if_neg hc, if_neg hc]
    exact helse hc

theorem Follows.get
    {next next' : List Token → Parse α}
    (h : Follows keep behind least rise loose view tokens (next tokens tokens)
      (next' tokens' tokens')) :
    Follows keep behind least rise loose view tokens ((MonadState.get >>= next) tokens)
      ((MonadState.get >>= next') tokens') :=
  h

end Rules

end EntityDiagram.Declaration
