import EntityDiagram.Proofs.Declaration.Positions
import EntityDiagram.Proofs.Declaration.Recursion

/-!
# Loops

A loop repeats a pass, which ends the loop, fails, or leaves a state to go on with. `Runs` says what
a loop comes to without a bound on the number of passes: it is inductive, so there are finitely many
of them, and every pass that does not end the loop takes at least one token. All repetitions of the
grammar are such loops, and the bounds that they are given as readers never end one of them.
-/

namespace EntityDiagram.Declaration

open Source (Token)

namespace Parse

/-! ## What passes take -/

section Rules

variable {α σ β : Type} {tokens : List Token}

/-- The reader takes a token whenever it gives a value. -/
def TakesToken (reader : Parse α) : Prop :=
  ∀ tokens value rest, reader tokens = .ok (value, rest) → rest.length < tokens.length

/-- If the loop goes on, a token has been taken. -/
def Onward (tokens : List Token) (result : Except ParseFailure ((σ ⊕ β) × List Token)) : Prop :=
  ∀ next rest, result = .ok (.inl next, rest) → rest.length < tokens.length

theorem Onward.ends
    (value : β) :
    Onward tokens ((pure (.inr value) : Parse (σ ⊕ β)) tokens) := by
  rintro _ _ ⟨⟩

theorem Onward.fail
    (fault : Option Source.Lexeme → Source.Fault) :
    Onward tokens (Parse.fail (α := σ ⊕ β) fault tokens) := by
  rintro _ _ ⟨⟩

theorem Onward.ite
    {c : Prop} [Decidable c] {reader other : Parse (σ ⊕ β)}
    (h : c → Onward tokens (reader tokens)) (hother : ¬c → Onward tokens (other tokens)) :
    Onward tokens ((if c then reader else other) tokens) := by
  by_cases hc : c
  · rw [if_pos hc]
    exact h hc
  · rw [if_neg hc]
    exact hother hc

/-- What takes a token may be followed by anything. -/
theorem Onward.taken
    {reader : Parse α} {next : α → Parse (σ ⊕ β)}
    (h : ∀ value rest, reader tokens = .ok (value, rest) → rest.length < tokens.length)
    (hnext : ∀ value, StaysInside (next value)) :
    Onward tokens ((reader >>= next) tokens) := by
  intro state rest hread
  rw [run_bind] at hread
  obtain ⟨⟨value, left⟩, hvalue, hread⟩ := bind_eq_ok hread
  have hinside := hnext value left
  rw [hread] at hinside
  exact Nat.lt_of_le_of_lt hinside.length_le (h value left hvalue)

theorem Onward.skip
    {next : Unit → Parse (σ ⊕ β)} (h : tokens ≠ []) (hnext : StaysInside (next ())) :
    Onward tokens ((skip 1 >>= next) tokens) := by
  refine .taken ?_ fun _ => hnext
  rintro _ _ ⟨⟩
  have := List.length_pos_iff.mpr h
  rw [List.length_drop]
  omega

/-- A mark is a token; without it nothing is taken. -/
theorem Onward.eat
    {mark : String} {reader other : Parse (σ ⊕ β)} (h : StaysInside reader)
    (hother : Onward tokens (other tokens)) :
    Onward tokens ((do if ← eat mark then reader else other) tokens) := by
  cases hnext : markAt tokens 0 mark with
  | false =>
    rw [run_bind, run_eat_of_false hnext]
    exact hother
  | true =>
    have hne : tokens ≠ [] := by
      rintro rfl
      simp [markAt] at hnext
    have hskip : Onward tokens ((Parse.skip 1 >>= fun _ => reader) tokens) := .skip hne h
    rw [run_bind, run_eat_of_true hnext]
    exact hskip

end Rules

/-! ## Repeating a pass -/

section Loop

variable {σ β : Type} {pass : σ → Parse (σ ⊕ β)}

/-- The result of repeating a pass, from a state and some tokens. -/
inductive Runs (pass : σ → Parse (σ ⊕ β)) :
    σ → List Token → Except ParseFailure (β × List Token) → Prop
  | ends {state : σ} {tokens rest : List Token} {value : β}
      (hpass : pass state tokens = .ok (.inr value, rest)) (hinside : rest <:+ tokens) :
    Runs pass state tokens (.ok (value, rest))
  | fails {state : σ} {tokens : List Token} {failure : ParseFailure}
      (hpass : pass state tokens = .error failure) (hinside : failure.remaining <:+ tokens) :
    Runs pass state tokens (.error failure)
  | again {state next : σ} {tokens rest : List Token}
      {result : Except ParseFailure (β × List Token)}
      (hpass : pass state tokens = .ok (.inl next, rest)) (hinside : rest <:+ tokens)
      (hforward : rest.length < tokens.length) (hrest : Runs pass next rest result) :
    Runs pass state tokens result

/-- A pass stays inside, and takes a token unless it ends the loop. -/
structure Advances (pass : σ → Parse (σ ⊕ β)) : Prop where
  inside : ∀ state, StaysInside (pass state)
  onward : ∀ state tokens, Onward tokens (pass state tokens)

/-- A loop with a bound that exceeds the number of tokens runs as if it had none. -/
theorem Advances.runs
    (h : Advances pass) (within : Nat → σ → Parse β)
    (hwithin : ∀ steps state,
      within (steps + 1) state = pass state >>= Sum.elim (within steps) Pure.pure)
    {steps : Nat} {tokens : List Token} (hsteps : tokens.length < steps) (state : σ) :
    Runs pass state tokens (within steps state tokens) := by
  -- A pass takes one from the bound and at least one token, so the bound never ends the loop.
  induction steps generalizing state tokens with
  | zero => exact absurd hsteps (Nat.not_lt_zero _)
  | succ steps ih =>
    have hinside := h.inside state tokens
    rw [hwithin, run_bind]
    cases hpass : pass state tokens with
    | error failure =>
      rw [hpass] at hinside
      exact .fails hpass hinside
    | ok read =>
      obtain ⟨next | value, rest⟩ := read
      · rw [hpass] at hinside
        have hforward := h.onward state tokens next rest hpass
        exact .again hpass hinside hforward (ih (by omega) next)
      · rw [hpass] at hinside
        exact .ends hpass hinside

end Loop

/-! ## The passes of the grammar -/

section Passes

variable {α : Type} {type : TypeReader}

/-- A statement, or a semicolon, unless no token is left. -/
def statementsPass (type : TypeReader) (found : List Statement) :
    Parse (List Statement ⊕ List Statement) := do
  let tokens ← get
  if tokens.isEmpty then return .inr found
  else if ← eat ";" then return .inl found
  else
    let next ← statement type
    return .inl (found ++ [next])

/-- A member or a separator, unless the closing brace comes next. -/
def membersPass (type : TypeReader) (found : List Member) :
    Parse (List Member ⊕ List Member) := do
  let tokens ← get
  if markAt tokens 0 "\x7d" then return .inr found
  else if tokens.isEmpty then fail fun _ => .unclosed "\x7d"
  else if markAt tokens 0 ";" || markAt tokens 0 "," then
    skip 1
    return .inl found
  else
    let next ← member type
    return .inl (found ++ [next])

/-- An item of a list and the comma behind it, unless the closing mark comes next. -/
def commaPass (closer : String) (item : Parse α) (found : List α) :
    Parse (List α ⊕ List α) := do
  if ← sees closer then return .inr found
  else
    let next ← item
    if ← eat "," then return .inl (found ++ [next])
    else return .inr (found ++ [next])

/-- A further item of a chain, if its mark comes next. -/
def chainPass (mark : String) (item : Parse α) (found : List α) : Parse (List α ⊕ List α) := do
  if ← eat mark then
    let next ← item
    return .inl (found ++ [next])
  else return .inr found

/-- A suffix, if a bracket opens one on the same line. -/
def suffixPass (type : TypeReader) (inner : TypeExpr) : Parse (TypeExpr ⊕ TypeExpr) := do
  let tokens ← get
  if markAt tokens 0 "[" && !onNewLine tokens then
    skip 1
    let outer ← suffix type inner
    return .inl outer
  else return .inr inner

/-- A token of a skipped statement, which is not the first one if the statement has begun. -/
def skipPass (inScope : Bool) : Bool × Nat → Parse ((Bool × Nat) ⊕ Unit)
  | (hasBegun, depth) => fun tokens =>
    match tokens with
    | [] => .ok (.inr (), [])
    | token :: rest =>
      if hasBegun && resumesAt inScope depth tokens then .ok (.inr (), tokens)
      else
        match depthBehind? depth token.lexeme with
        | none => .ok (.inr (), rest)
        | some depth => .ok (.inl (true, depth), rest)

/-- A token of a default value. -/
def defaultPass (depth : Int) : Parse (Int ⊕ Unit) := fun tokens =>
  match tokens with
  | [] => .ok (.inr (), [])
  | token :: rest =>
    if depth = 0 ∧ (token.lexeme = .punct "," ∨ token.lexeme = .punct ")") then
      .ok (.inr (), tokens)
    else .ok (.inl (depth + turn token.lexeme), rest)

/-- A token of a bracketed group, with the brackets that are open and the spellings so far. -/
def groupPass (closer : String) : Nat × List String → Parse ((Nat × List String) ⊕ List String)
  | (depth, parts) => fun tokens =>
    match tokens with
    | [] => .error ⟨.unclosed closer, []⟩
    | token :: rest =>
      let parts := parts ++ [token.lexeme.spelling]
      if depthBehind depth token.lexeme = 0 then .ok (.inr parts, rest)
      else .ok (.inl (depthBehind depth token.lexeme, parts), rest)

end Passes

/-! ## The loops of the grammar -/

/-- A list behind the items that have been found. -/
def behindFound {α : Type} (found : List α) (reader : Parse (List α)) : Parse (List α) :=
  (found ++ ·) <$> reader

theorem behindFound_nil
    {α : Type} (reader : Parse (List α)) :
    behindFound [] reader = reader :=
  id_map reader

/-- A loop that collects a list runs from the empty one. -/
theorem Advances.runs_list
    {α : Type} {pass : List α → Parse (List α ⊕ List α)} (h : Advances pass)
    (within : Nat → Parse (List α))
    (hwithin : ∀ steps found, behindFound found (within (steps + 1)) =
      pass found >>= Sum.elim (fun found => behindFound found (within steps)) Pure.pure)
    (tokens : List Token) :
    Runs pass [] tokens (within (tokens.length + 1) tokens) := by
  have hruns := h.runs (fun steps found => behindFound found (within steps)) hwithin
    (Nat.lt_succ_self tokens.length) []
  simpa only [behindFound_nil] using hruns

section Lists

variable {α : Type} {item : Parse α}

theorem commaPass_advances
    (hinside : StaysInside item) (hitem : TakesToken item) (closer : String) :
    Advances (commaPass closer item) where
  inside _ := .bind (sees_inside closer) fun _ => .ite (.pure _) (.bind hinside fun _ =>
    .bind (eat_inside ",") fun _ => .ite (.pure _) (.pure _))
  onward found tokens := by
    refine Onward.ite (fun _ => .ends found) fun _ => .taken (hitem tokens) fun _ => ?_
    exact .bind (eat_inside ",") fun _ => .ite (.pure _) (.pure _)

theorem commaListWithin_runs
    (hinside : StaysInside item) (hitem : TakesToken item) (closer : String) (tokens : List Token) :
    Runs (commaPass closer item) [] tokens
      (commaListWithin closer item (tokens.length + 1) tokens) := by
  refine (commaPass_advances hinside hitem closer).runs_list (commaListWithin closer item) ?_ tokens
  intro steps found
  simp only [behindFound, commaListWithin, commaPass, map_bind, bind_assoc]
  refine bind_congr fun closed => ?_
  split
  · simp
  · simp only [map_bind, bind_assoc]
    refine bind_congr fun first => bind_congr fun comma => ?_
    split <;> simp

theorem chainPass_advances
    (hinside : StaysInside item) (mark : String) :
    Advances (chainPass mark item) where
  inside _ := .bind (eat_inside mark) fun _ => .ite (.bind hinside fun _ => .pure _) (.pure _)
  onward found _ := .eat (.bind hinside fun _ => .pure _) (.ends found)

/-- The further items of a chain. -/
def chainRest (mark : String) (item : Parse α) (steps : Nat) (found : List α) :
    Parse (List α) := do
  if ← eat mark then behindFound found (chainWithin mark item steps) else return found

theorem behindFound_chainWithin
    (mark : String) (item : Parse α) (steps : Nat) (found : List α) :
    behindFound found (chainWithin mark item (steps + 1)) =
      item >>= fun next => chainRest mark item steps (found ++ [next]) := by
  simp only [behindFound, chainWithin, chainRest, map_bind]
  refine bind_congr fun next => bind_congr fun marked => ?_
  split <;> simp

/-- The first item of a chain stands in front of the loop. -/
theorem chain_runs
    (hinside : StaysInside item) (hitem : TakesToken item) (mark : String)
    {tokens rest : List Token} {first : α} (hfirst : item tokens = .ok (first, rest)) :
    Runs (chainPass mark item) [first] rest (chain mark item tokens) := by
  have hread : chain mark item tokens = chainRest mark item tokens.length [first] rest := by
    have hchain := congrFun (behindFound_chainWithin mark item tokens.length []) tokens
    rw [behindFound_nil, run_bind, hfirst] at hchain
    exact hchain
  rw [hread]
  refine (chainPass_advances hinside mark).runs (chainRest mark item) ?_
    (hitem tokens first rest hfirst) [first]
  intro steps found
  rw [chainRest, chainPass, bind_assoc]
  refine bind_congr fun marked => ?_
  split
  · rw [behindFound_chainWithin, bind_assoc]
    simp
  · simp

end Lists

section Types

variable {type : TypeReader}

theorem takesToken_of_follows
    {α γ : Type} {item : Parse α} {loose : Bool} {view : α → γ}
    (h : ∀ bound, ItemsFollow id [] bound 1 loose view item item) :
    TakesToken item := by
  intro tokens value rest hread
  have hfollows := h (tokens.length + 1) (Nat.lt_succ_self _) (Continues.refl id tokens)
  exact hfollows.took.length value rest hread

theorem suffixPass_advances
    (hinside : ∀ conditional, StaysInside (type conditional)) :
    Advances (suffixPass type) where
  inside inner := .bind .get fun _ => .ite
    (.bind (skip_inside 1) fun _ => .bind (suffix_inside hinside inner) fun _ => .pure _) (.pure _)
  onward inner tokens := by
    refine Onward.ite (fun hopens => .skip ?_ ?_) fun _ => .ends inner
    · rintro rfl
      simp [markAt] at hopens
    · exact .bind (suffix_inside hinside inner) fun _ => .pure _

theorem suffixesWithin_runs
    (hinside : ∀ conditional, StaysInside (type conditional)) (inner : TypeExpr)
    (tokens : List Token) :
    Runs (suffixPass type) inner tokens
      (suffixesWithin type (tokens.length + 1) inner tokens) := by
  refine (suffixPass_advances hinside).runs (suffixesWithin type) ?_ (Nat.lt_succ_self _) inner
  intro steps inner
  simp only [suffixesWithin_succ, suffixPass, bind_assoc]
  refine bind_congr fun tokens => ?_
  split <;> simp

theorem membersPass_advances
    (hinside : ∀ conditional, StaysInside (type conditional))
    (hmember : TakesToken (member type)) :
    Advances (membersPass type) where
  inside _ := .bind .get fun _ => .ite (.pure _) <| .ite (.fail _) <|
    .ite (.bind (skip_inside 1) fun _ => .pure _)
      (.bind (member_inside hinside) fun _ => .pure _)
  onward found tokens := by
    refine Onward.ite (fun _ => .ends found) fun _ => .ite (fun _ => .fail _) fun hne =>
      .ite (fun _ => .skip ?_ (.pure _)) fun _ => .taken (hmember tokens) fun _ => .pure _
    simpa using hne

theorem membersWithin_runs
    (hinside : ∀ conditional, StaysInside (type conditional))
    (hmember : TakesToken (member type)) (tokens : List Token) :
    Runs (membersPass type) [] tokens (membersWithin type (tokens.length + 1) tokens) := by
  refine (membersPass_advances hinside hmember).runs_list (membersWithin type) ?_ tokens
  intro steps found
  simp only [behindFound, membersWithin, membersPass, map_bind, bind_assoc]
  refine bind_congr fun tokens => ?_
  split
  · simp
  · split
    · rfl
    · split <;> simp

theorem statementsPass_advances
    (hinside : ∀ conditional, StaysInside (type conditional))
    (hstatement : ∀ tokens ≠ [], ∀ value rest, statement type tokens = .ok (value, rest) →
      rest.length < tokens.length) :
    Advances (statementsPass type) where
  inside _ := .bind .get fun _ => .ite (.pure _) <| .bind (eat_inside ";") fun _ =>
    .ite (.pure _) (.bind (statement_inside hinside) fun _ => .pure _)
  onward found tokens := by
    refine Onward.ite (fun _ => .ends found) fun hne => .eat (.pure _) ?_
    refine .taken (hstatement tokens ?_) fun _ => .pure _
    simpa using hne

theorem statementsWithin_runs
    (hinside : ∀ conditional, StaysInside (type conditional))
    (hstatement : ∀ tokens ≠ [], ∀ value rest, statement type tokens = .ok (value, rest) →
      rest.length < tokens.length) (tokens : List Token) :
    Runs (statementsPass type) [] tokens (statementsWithin type (tokens.length + 1) tokens) := by
  refine (statementsPass_advances hinside hstatement).runs_list (statementsWithin type) ?_ tokens
  intro steps found
  simp only [behindFound, statementsWithin, statementsPass, map_bind, bind_assoc]
  refine bind_congr fun tokens => ?_
  split
  · simp
  · simp only [map_bind, bind_assoc]
    refine bind_congr fun semicolon => ?_
    split <;> simp

end Types

/-! ## Scans -/

theorem skipFrom_runs
    (inScope : Bool) (depth : Nat) (tokens : List Token) :
    Runs (skipPass inScope) (true, depth) tokens (.ok ((), skipFrom inScope depth tokens)) := by
  induction tokens generalizing depth with
  | nil => exact .ends rfl List.suffix_rfl
  | cons token rest ih =>
    unfold skipFrom
    split
    · rename_i hresumes
      refine .ends ?_ List.suffix_rfl
      simp [skipPass, hresumes]
    · rename_i hgoes
      cases hdepth : depthBehind? depth token.lexeme with
      | none =>
        refine .ends ?_ (List.suffix_cons token rest)
        simp [skipPass, hgoes, hdepth]
      | some behind =>
        refine .again ?_ (List.suffix_cons token rest) (Nat.lt_succ_self _) (ih behind)
        simp [skipPass, hgoes, hdepth]

theorem skipStatement_runs
    (tokens : List Token) :
    Runs (skipPass (opensScope tokens)) (false, 0) tokens (.ok ((), skipStatement tokens)) := by
  cases tokens with
  | nil => exact .ends rfl List.suffix_rfl
  | cons token rest =>
    rw [skipStatement]
    cases hdepth : depthBehind? 0 token.lexeme with
    | none =>
      refine .ends ?_ (List.suffix_cons token rest)
      simp [skipPass, hdepth]
    | some behind =>
      refine .again ?_ (List.suffix_cons token rest) (Nat.lt_succ_self _)
        (skipFrom_runs _ behind rest)
      simp [skipPass, hdepth]

theorem behindDefault_runs
    (depth : Int) (tokens : List Token) :
    Runs defaultPass depth tokens (.ok ((), behindDefault depth tokens)) := by
  induction tokens generalizing depth with
  | nil => exact .ends rfl List.suffix_rfl
  | cons token rest ih =>
    by_cases hends : depth = 0 ∧ (token.lexeme = .punct "," ∨ token.lexeme = .punct ")")
    · rw [behindDefault, if_pos hends]
      refine .ends ?_ List.suffix_rfl
      rw [defaultPass, if_pos hends]
    · have hread : behindDefault depth (token :: rest) =
          behindDefault (depth + turn token.lexeme) rest := by
        rw [behindDefault, if_neg hends, turn]
        split
        · rfl
        · split
          · rfl
          · rw [Int.add_zero]
      rw [hread]
      refine .again ?_ (List.suffix_cons token rest) (Nat.lt_succ_self _) (ih _)
      rw [defaultPass, if_neg hends]

theorem group_runs
    (closer : String) (depth : Nat) (parts : List String) (tokens : List Token) :
    Runs (groupPass closer) (depth, parts) tokens
      (behindFound parts (group closer depth) tokens) := by
  induction tokens generalizing depth parts with
  | nil => exact .fails rfl List.suffix_rfl
  | cons token rest ih =>
    by_cases hclosed : depthBehind depth token.lexeme = 0
    · have hread : behindFound parts (group closer depth) (token :: rest) =
          .ok (parts ++ [token.lexeme.spelling], rest) := by
        rw [behindFound, run_map, group_cons, if_pos hclosed]
        rfl
      rw [hread]
      refine .ends ?_ (List.suffix_cons token rest)
      simp [groupPass, hclosed]
    · have hread : behindFound parts (group closer depth) (token :: rest) =
          behindFound (parts ++ [token.lexeme.spelling])
            (group closer (depthBehind depth token.lexeme)) rest := by
        rw [behindFound, run_map, group_cons, if_neg hclosed, ← run_map, map_bind]
        simp [behindFound]
      rw [hread]
      refine .again ?_ (List.suffix_cons token rest) (Nat.lt_succ_self _) (ih _ _)
      simp [groupPass, hclosed]

/-! ## Reading goes forward -/

/-- The loops of the grammar, where types are read by the given reader. A chain is a loop behind its
first item. -/
structure LoopsRun (type : TypeReader) : Prop where
  statements : ∀ tokens, Runs (statementsPass type) [] tokens
    (statementsWithin type (tokens.length + 1) tokens)
  skipped : ∀ tokens, Runs (skipPass (opensScope tokens)) (false, 0) tokens
    (.ok ((), skipStatement tokens))
  heritage : ∀ tokens first rest, heritageEntry type tokens = .ok (first, rest) →
    Runs (chainPass "," (heritageEntry type)) [first] rest (chain "," (heritageEntry type) tokens)
  members : ∀ tokens, Runs (membersPass type) [] tokens
    (membersWithin type (tokens.length + 1) tokens)
  typeParameters : ∀ tokens, Runs (commaPass ">" (typeParameter type)) [] tokens
    (commaListWithin ">" (typeParameter type) (tokens.length + 1) tokens)
  typeArguments : ∀ tokens, Runs (commaPass ">" (type true)) [] tokens
    (commaListWithin ">" (type true) (tokens.length + 1) tokens)
  parameters : ∀ tokens, Runs (commaPass ")" (parameter type)) [] tokens
    (commaListWithin ")" (parameter type) (tokens.length + 1) tokens)
  defaults : ∀ tokens, Runs defaultPass 0 tokens (.ok ((), behindDefault 0 tokens))
  brackets : ∀ closer tokens, Runs (groupPass closer) (1, []) tokens (group closer 1 tokens)
  union : ∀ tokens first rest, intersectionType type tokens = .ok (first, rest) →
    Runs (chainPass "|" (intersectionType type)) [first] rest
      (chain "|" (intersectionType type) tokens)
  intersection : ∀ tokens first rest, operatorType type tokens = .ok (first, rest) →
    Runs (chainPass "&" (operatorType type)) [first] rest (chain "&" (operatorType type) tokens)
  suffixes : ∀ inner tokens, Runs (suffixPass type) inner tokens
    (suffixesWithin type (tokens.length + 1) inner tokens)
  tuple : ∀ tokens, Runs (commaPass "]" (tupleElement type)) [] tokens
    (commaListWithin "]" (tupleElement type) (tokens.length + 1) tokens)

theorem typeReader_follows
    (bound : Nat) :
    TypesFollow id [] bound typeReader typeReader :=
  typesFollow_of_shorter (fun _ _ _ => rfl) (fun _ _ _ => rfl)

theorem typeReader_inside
    (conditional : Bool) :
    StaysInside (typeReader conditional) :=
  fun tokens => typeWithin_inside (tokens.length + 1) conditional tokens

theorem member_takesToken :
    TakesToken (member typeReader) := by
  intro tokens value rest hread
  have hfollows := member_follows (typeReader_follows (tokens.length + 1)) (Nat.lt_succ_self _)
    (Continues.refl id tokens)
  exact hfollows.took.length value rest hread

theorem statement_length_lt
    {tokens : List Token} (hne : tokens ≠ []) (value : Statement) (rest : List Token)
    (hread : statement typeReader tokens = .ok (value, rest)) :
    rest.length < tokens.length := by
  obtain ⟨token, more, rfl⟩ := List.exists_cons_of_ne_nil hne
  have hfollows := statement_follows (typeReader_follows (more.length + 1)) (Nat.lt_succ_self _)
    (Continues.refl id (token :: more))
  exact hfollows.took.length value rest hread

theorem typeReader_loopsRun :
    LoopsRun typeReader where
  statements := statementsWithin_runs typeReader_inside fun _ => statement_length_lt
  skipped := skipStatement_runs
  heritage _ _ _ := chain_runs (heritageEntry_inside typeReader_inside)
    (takesToken_of_follows fun bound => heritageEntry_follows (typeReader_follows bound)) ","
  members := membersWithin_runs typeReader_inside member_takesToken
  typeParameters := commaListWithin_runs (typeParameter_inside typeReader_inside)
    (takesToken_of_follows fun bound => typeParameter_follows (typeReader_follows bound)) ">"
  typeArguments := commaListWithin_runs (typeReader_inside true)
    (takesToken_of_follows fun bound => typeReader_follows bound true) ">"
  parameters := commaListWithin_runs (parameter_inside typeReader_inside)
    (takesToken_of_follows fun bound => parameter_follows (typeReader_follows bound)) ")"
  defaults := behindDefault_runs 0
  brackets closer tokens := by
    have hruns := group_runs closer 1 [] tokens
    rwa [behindFound_nil] at hruns
  union _ _ _ := chain_runs (intersectionType_inside typeReader_inside)
    (takesToken_of_follows fun bound tokens tokens' hbound =>
      intersectionType_follows (typeReader_follows bound) (Nat.lt_succ_of_lt hbound)) "|"
  intersection _ _ _ := chain_runs (operatorType_inside typeReader_inside)
    (takesToken_of_follows fun bound tokens tokens' hbound =>
      operatorType_follows (typeReader_follows bound) (Nat.lt_succ_of_lt hbound)) "&"
  suffixes := suffixesWithin_runs typeReader_inside
  tuple := commaListWithin_runs (tupleElement_inside typeReader_inside)
    (takesToken_of_follows fun bound => tupleElement_follows (typeReader_follows bound)) "]"

/-- Reading with the reader of types is what the grammar says, without a bound on the nesting, and
it goes forward. -/
structure GoesForward (type : TypeReader) : Prop where
  /-- A type is read by the reader. -/
  types : ∀ tokens, TypeExpr.ofTokens tokens =
    ((do let read ← type true; expectEnd; return read : Parse TypeExpr) tokens).map Prod.fst
  /-- Statements are read by the reader. -/
  statements : ∀ tokens, Statement.listOfTokens tokens =
    (statementsWithin type (tokens.length + 1) tokens).map Prod.fst
  /-- The reader closes the grammar. -/
  closed : ∀ conditional, type conditional = typeFrom type conditional
  /-- No other reader does. -/
  unique : ∀ other : TypeReader,
    (∀ conditional, other conditional = typeFrom other conditional) → other = type
  /-- A type depends only on how types are read behind at least one of its tokens. -/
  nested : ∀ (other : TypeReader) (tokens : List Token),
    (∀ conditional rest, rest.length < tokens.length →
      other conditional rest = type conditional rest) →
    ∀ conditional, typeFrom other conditional tokens = type conditional tokens
  inside : ReadersStayInside type
  loops : LoopsRun type

/-- Every list of tokens is read to a result or a failure: no reader leaves the tokens or goes back,
every pass of a loop that does not end it takes a token, and so does every way from a type to a type
nested in it. -/
theorem typeReader_goesForward :
    GoesForward typeReader where
  types tokens := by
    rw [TypeExpr.ofTokens_eq, wholeType_eq]
  statements tokens := by
    rw [Statement.listOfTokens_eq, wholeFile_eq]
  closed := typeReader_eq
  unique _ := typeReader_unique
  nested _ _ := typeFrom_eq_typeReader
  inside := readersStayInside typeReader_inside
  loops := typeReader_loopsRun

end Parse

end EntityDiagram.Declaration
