import EntityDiagram.Proofs.Text.MarkupReading
import Mathlib.Data.List.Basic

/-!
# Escaping in one pass

An attribute value is made by passes over the whole text, each of which replaces one character. No pass
replaces a character that an earlier pass has brought in, so the passes together do what a single pass
does that looks at every character once. This holds for passes over any such table.

In one pass the effect is plain to see: a special character becomes its entity and any other character
stays. So ampersands stand only where an entity starts, and the text is read back by decoding once.
-/

namespace EntityDiagram.Text.Markup

/-! ## Passes one after the other -/

/-- A character as the first entry of a table for it has it; without an entry it stays. -/
def replacement (table : List (Character × Text)) (c : Character) : List Character :=
  match table.lookup c with
  | some text => text.toList
  | none => [c]

/-- What the passes of a table bring in, no later pass replaces. -/
def PassesApart (table : List (Character × Text)) : Prop :=
  table.Pairwise fun earlier later => later.1 ∉ earlier.2.toList

theorem replacement_eq_self
    {table : List (Character × Text)} {c : Character} (h : ∀ entry ∈ table, entry.1 ≠ c) :
    replacement table c = [c] := by
  have hnone : table.lookup c = none := by
    rw [List.lookup_eq_none_iff]
    intro entry hentry
    exact bne_iff_ne.mpr (h entry hentry).symm
  rw [replacement, hnone]

/-- A text of which a table knows no character stays as it is. -/
theorem flatMap_replacement_eq_self
    {table : List (Character × Text)} {cs : List Character} (h : ∀ entry ∈ table, entry.1 ∉ cs) :
    cs.flatMap (replacement table) = cs := by
  have hself : ∀ c ∈ cs, replacement table c = [c] := by
    intro c hc
    apply replacement_eq_self
    rintro entry hentry rfl
    exact h entry hentry hc
  calc cs.flatMap (replacement table)
      = cs.flatMap (fun c => [c]) := List.flatMap_congr hself
    _ = cs := List.flatMap_singleton' cs

/-- Passes one after the other replace as one pass does that looks at every character once. -/
theorem foldl_replaceChar_eq_flatMap
    {table : List (Character × Text)} (h : PassesApart table) (cs : List Character) :
    table.foldl (fun text entry => replaceChar entry.1 entry.2.toList text) cs =
      cs.flatMap (replacement table) := by
  induction table generalizing cs with
  | nil => exact (List.flatMap_singleton' cs).symm
  | cons entry more ih =>
    obtain ⟨hentry, hmore⟩ := List.pairwise_cons.mp h
    rw [List.foldl_cons, ih hmore, replaceChar, List.flatMap_assoc]
    apply List.flatMap_congr
    intro c _
    by_cases hc : c = entry.1
    · -- What the first pass brings in stays as it is in all the others.
      rw [if_pos hc, flatMap_replacement_eq_self hentry, replacement, hc, List.lookup_cons_self]
    · rw [if_neg hc, List.flatMap_singleton, replacement, replacement,
        List.lookup_cons, beq_false_of_ne hc]

/-! ## The five entities -/

/-- A character as it stands in an attribute value. -/
def valueChars : Character → List Character
  | .scalar '&' => [.scalar '&', .scalar 'a', .scalar 'm', .scalar 'p', .scalar ';']
  | .scalar '<' => [.scalar '&', .scalar 'l', .scalar 't', .scalar ';']
  | .scalar '>' => [.scalar '&', .scalar 'g', .scalar 't', .scalar ';']
  | .scalar '"' => [.scalar '&', .scalar 'q', .scalar 'u', .scalar 'o', .scalar 't', .scalar ';']
  | .scalar '\'' => [.scalar '&', .scalar 'a', .scalar 'p', .scalar 'o', .scalar 's', .scalar ';']
  | c => [c]

theorem valueChars_eq_self
    {c : Character} (h : isPlain c = true) :
    valueChars c = [c] := by
  simp only [isPlain, Bool.and_eq_true, bne_iff_ne] at h
  obtain ⟨⟨⟨⟨hamp, hlt⟩, hgt⟩, hquote⟩, hapos⟩ := h
  exact valueChars.eq_6 c hamp hlt hgt hquote hapos

theorem replacement_markupEntities
    (c : Character) :
    replacement markupEntities c = valueChars c := by
  obtain hplain | rfl | rfl | rfl | rfl | rfl := isPlain_or c
  · rw [valueChars_eq_self hplain]
    apply replacement_eq_self
    rintro entry hentry rfl
    have hspecial : ∀ entry ∈ markupEntities, isPlain entry.1 = false := by decide
    exact absurd hplain (Bool.eq_false_iff.mp (hspecial entry hentry))
  all_goals rfl

theorem passesApart_markupEntities :
    PassesApart markupEntities := by
  unfold PassesApart
  decide

/-- The ampersand has to go first. -/
example : ¬ PassesApart [('<', "&lt;"), ('&', "&amp;")] := by
  unfold PassesApart
  decide

/-- The value of a text has each character replaced on its own. -/
theorem escapeMarkupChars_eq_flatMap
    (cs : List Character) :
    escapeMarkupChars cs = cs.flatMap valueChars := by
  rw [escapeMarkupChars, foldl_replaceChar_eq_flatMap passesApart_markupEntities]
  exact List.flatMap_congr fun c _ => replacement_markupEntities c

/-- A text with no angle bracket and no quote in which every ampersand starts one of the five
entities. -/
structure IsValueText (cs : List Character) : Prop where
  special : .scalar '<' ∉ cs ∧ .scalar '>' ∉ cs ∧ .scalar '"' ∉ cs ∧ .scalar '\'' ∉ cs
  ampersand : ∀ before after, cs = before ++ .scalar '&' :: after →
    ∃ c ∈ [.scalar '&', .scalar '<', .scalar '>', .scalar '"', .scalar '\''],
      valueChars c <+: .scalar '&' :: after

theorem IsValueText.append
    {a b : List Character} (ha : IsValueText a) (hb : IsValueText b) :
    IsValueText (a ++ b) := by
  constructor
  · have hfront := ha.special
    have hback := hb.special
    simp only [List.mem_append, not_or]
    exact ⟨⟨hfront.1, hback.1⟩, ⟨hfront.2.1, hback.2.1⟩, ⟨hfront.2.2.1, hback.2.2.1⟩,
      ⟨hfront.2.2.2, hback.2.2.2⟩⟩
  · intro before after hsplit
    obtain ⟨between, hbefore, hb'⟩ | ⟨between, ha', hafter⟩ := List.append_eq_append_iff.mp hsplit
    · exact hb.ampersand between after hb'
    · cases between with
      | nil => exact hb.ampersand [] after hafter.symm
      | cons c rest =>
        obtain ⟨rfl, rfl⟩ := List.cons.inj hafter
        obtain ⟨special, hspecial, hentity⟩ := ha.ampersand before rest ha'
        refine ⟨special, hspecial, hentity.trans ?_⟩
        exact ⟨b, rfl⟩

/-- An entity has its ampersand in front and no other. -/
theorem isValueText_of_entity
    {special : Character}
    (hspecial : special ∈ [.scalar '&', .scalar '<', .scalar '>', .scalar '"', .scalar '\'']) :
    IsValueText (valueChars special) := by
  have hcases : special = .scalar '&' ∨ special = .scalar '<' ∨ special = .scalar '>' ∨
      special = .scalar '"' ∨ special = .scalar '\'' := by
    simpa using hspecial
  have hfront : .scalar '&' ∉ (valueChars special).tail := by
    obtain rfl | rfl | rfl | rfl | rfl := hcases <;> decide
  constructor
  · obtain rfl | rfl | rfl | rfl | rfl := hcases <;> decide
  · intro before after hsplit
    cases before with
    | nil => exact ⟨special, hspecial, hsplit ▸ List.prefix_rfl⟩
    | cons c rest =>
      have htail : .scalar '&' ∈ (valueChars special).tail := by simp [hsplit]
      exact absurd htail hfront

theorem isValueText_valueChars
    (c : Character) :
    IsValueText (valueChars c) := by
  obtain hplain | hspecial := isPlain_or c
  · rw [valueChars_eq_self hplain]
    constructor
    · simp only [isPlain, Bool.and_eq_true, bne_iff_ne] at hplain
      obtain ⟨⟨⟨⟨-, hlt⟩, hgt⟩, hquote⟩, hapos⟩ := hplain
      simp only [List.mem_singleton]
      exact ⟨hlt.symm, hgt.symm, hquote.symm, hapos.symm⟩
    · intro before after hsplit
      have hmem : .scalar '&' ∈ [c] := by simp [hsplit]
      obtain rfl := List.mem_singleton.mp hmem
      exact absurd hplain (by decide)
  · exact isValueText_of_entity (by simpa using hspecial)

theorem isValueText_flatMap
    (cs : List Character) :
    IsValueText (cs.flatMap valueChars) := by
  induction cs with
  | nil =>
    constructor
    · simp
    · intro before after hsplit
      simp at hsplit
  | cons c rest ih => exact (isValueText_valueChars c).append ih

/-- Escaping is a clean encoding of all texts. It replaces each character on its own, so no pass
touches what another has brought in; the result is fit to stand between quotes of either kind;
decoding it once gives the text back, whatever entities or pieces of entities the text held; and
the values of two texts, joined, are the value of the joined text. -/
theorem escapeMarkup_encodes
    (text more : Text) :
    escapeMarkup text = ofList (text.toList.flatMap valueChars) ∧
      IsValueText (escapeMarkup text).toList ∧
      decode (escapeMarkup text).toList = some text.toList ∧
      escapeMarkup (text ++ more) = escapeMarkup text ++ escapeMarkup more := by
  have hpass : escapeMarkup text = ofList (text.toList.flatMap valueChars) := by
    rw [escapeMarkup, escapeMarkupChars_eq_flatMap]
  refine ⟨hpass, ?_, ?_, ?_⟩
  · rw [hpass]
    exact isValueText_flatMap text.toList
  · rw [escapeMarkup]
    exact decode_escapeMarkupChars text.toList
  · simp only [escapeMarkup, toList_append, escapeMarkupChars_append]
    rfl

end EntityDiagram.Text.Markup
