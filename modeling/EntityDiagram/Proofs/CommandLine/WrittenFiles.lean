import EntityDiagram.CommandLine.FileSystem
import Mathlib.Data.List.Basic

/-!
# Written files

In a settled path two dots stand only at the start. Following such a path therefore goes down through
directories that exist, and a file that is written at its end makes no directory: it is the only thing
that changes.
-/

namespace EntityDiagram.CommandLine

namespace Path

/-! ## Settled paths -/

/-- Two dots stand only at the start of a path, and only of a relative one. -/
structure IsSettled (path : Path) : Prop where
  ordered : path.parts.Pairwise fun before part => part = ".." → before = ".."
  relative : ".." ∈ path.parts → path.anchor = ""

/-- Two dots behind a path: they come first if only such dots are in front of them. -/
theorem isSettled_child_dots
    {path : Path} (hanchor : path.anchor = "") (hparts : ∀ part ∈ path.parts, part = "..") :
    (path.child "..").IsSettled where
  ordered := by
    have hall : ∀ part ∈ path.parts ++ [".."], part = ".." :=
      List.forall_mem_append.mpr ⟨hparts, by simp⟩
    exact List.pairwise_of_forall_mem_list fun before hbefore _ _ _ => hall before hbefore
  relative := fun _ => hanchor

theorem IsSettled.child
    {path : Path} (h : path.IsSettled) {part : String} (hpart : part ≠ "..") :
    (path.child part).IsSettled where
  ordered := by
    refine List.pairwise_append.mpr ⟨h.ordered, List.pairwise_singleton _ _, ?_⟩
    intro before _ last hlast hdots
    exact absurd ((List.mem_singleton.mp hlast).symm.trans hdots) hpart
  relative := by
    intro hmem
    obtain hmem | hlast := List.mem_append.mp hmem
    · exact h.relative hmem
    · exact absurd (List.mem_singleton.mp hlast).symm hpart

theorem IsSettled.front
    {anchor : String} {front back : List String} (h : IsSettled ⟨anchor, front ++ back⟩) :
    IsSettled ⟨anchor, front⟩ where
  ordered := (List.pairwise_append.mp h.ordered).1
  relative := fun hmem => h.relative (List.mem_append_left _ hmem)

/-- If two dots stand last, only such dots stand in the path. -/
theorem IsSettled.eq_dots
    {path : Path} (h : path.IsSettled) (hlast : path.parts.getLast? = some "..") :
    path.anchor = "" ∧ ∀ part ∈ path.parts, part = ".." := by
  obtain ⟨front, hfront⟩ := List.getLast?_eq_some_iff.mp hlast
  have hordered := h.ordered
  rw [hfront, List.pairwise_append] at hordered
  refine ⟨h.relative (by simp [hfront]), ?_⟩
  rw [hfront]
  exact List.forall_mem_append.mpr
    ⟨fun part hpart => hordered.2.2 part hpart ".." (by simp) rfl, by simp⟩

theorem IsSettled.parent
    {path : Path} (h : path.IsSettled) :
    path.parent.IsSettled := by
  unfold Path.parent
  split
  · rename_i hnone
    split
    · rename_i hanchor
      have hparts : path.parts = [] := List.getLast?_eq_none_iff.mp hnone
      exact isSettled_child_dots (by simpa using hanchor) (by simp [hparts])
    · exact h
  · rename_i last hlast
    split
    · rename_i hdots
      obtain ⟨hanchor, hparts⟩ := h.eq_dots (hdots ▸ hlast)
      exact isSettled_child_dots hanchor hparts
    · obtain ⟨front, hfront⟩ := List.getLast?_eq_some_iff.mp hlast
      obtain ⟨anchor, parts⟩ := path
      obtain rfl : parts = front ++ [last] := hfront
      simpa using h.front

theorem isSettled_settled
    (path : Path) :
    path.settled.IsSettled := by
  have hfold : ∀ (parts : List String) (reached : Path), reached.IsSettled →
      (parts.foldl (fun reached part =>
        if part = ".." then reached.parent else reached.child part) reached).IsSettled := by
    intro parts
    induction parts with
    | nil => exact fun _ h => h
    | cons part rest ih =>
      intro reached h
      refine ih _ ?_
      beta_reduce
      split
      · exact h.parent
      · rename_i hpart
        exact h.child hpart
  exact hfold _ _ ⟨List.Pairwise.nil, by simp⟩

end Path

namespace FileSystem

variable {system : FileSystem}

/-! ## Following settled paths -/

/-- A part of a settled path leads down from a directory. -/
theorem enter_eq_ok
    {path reached : Path} {part : String} (hsettled : (path.child part).IsSettled)
    (h : system.enter path part = .ok reached) :
    reached = path.child part ∧ system.isDirectory path = true := by
  unfold enter at h
  split at h
  · cases h
  rename_i hdirectory
  refine ⟨?_, by simpa using hdirectory⟩
  split at h
  · rename_i hdots
    subst hdots
    obtain ⟨hanchor, hparts⟩ := hsettled.eq_dots (by simp [Path.child])
    have hfront : ∀ part ∈ path.parts, part = ".." := fun part hpart =>
      hparts part (List.mem_append_left _ hpart)
    obtain rfl := Except.ok.inj h
    unfold Path.parent
    split
    · exact if_pos (by simpa [Path.child] using hanchor)
    · rename_i last hlast
      exact if_pos (hfront last (List.mem_of_getLast? hlast))
  · split at h
    · cases h
    · exact (Except.ok.inj h).symm

/-- A settled path leads to itself, through directories. -/
theorem foldlM_enter_eq_ok
    {rest : List String} {path reached : Path}
    (hsettled : Path.IsSettled ⟨path.anchor, path.parts ++ rest⟩)
    (h : rest.foldlM system.enter path = .ok reached) :
    reached = ⟨path.anchor, path.parts ++ rest⟩ ∧
      ∀ front back, rest = front ++ back → back ≠ [] →
        system.isDirectory ⟨path.anchor, path.parts ++ front⟩ = true := by
  induction rest generalizing path with
  | nil =>
    obtain rfl := Except.ok.inj h
    refine ⟨by simp, ?_⟩
    rintro front back hsplit hback
    exact absurd (List.append_eq_nil_iff.mp hsplit.symm).2 hback
  | cons part rest ih =>
    rw [List.foldlM_cons] at h
    have hassoc : path.parts ++ part :: rest = (path.child part).parts ++ rest := by
      simp [Path.child]
    rw [hassoc] at hsettled ⊢
    cases hentered : system.enter path part with
    | error fault =>
      rw [hentered] at h
      cases h
    | ok next =>
      rw [hentered] at h
      obtain ⟨rfl, hdirectory⟩ := enter_eq_ok hsettled.front hentered
      obtain ⟨hreached, hfronts⟩ := ih hsettled h
      refine ⟨hreached, ?_⟩
      rintro front back hsplit hback
      cases front with
      | nil => simpa using hdirectory
      | cons first front =>
        obtain ⟨rfl, rfl⟩ := List.cons_eq_cons.mp hsplit
        simpa [Path.child] using hfronts front back rfl hback

/-- A settled path that can be followed leads to itself, through directories. -/
theorem follow_eq_ok
    {path reached : Path} (hsettled : path.IsSettled) (h : system.follow path = .ok reached) :
    reached = path ∧ ∀ front back, path.parts = front ++ back → back ≠ [] →
      system.isDirectory ⟨path.anchor, front⟩ = true := by
  have hstart : Path.IsSettled ⟨path.start.anchor, path.start.parts ++ path.parts⟩ := by
    simpa [Path.start] using hsettled
  simpa [Path.start] using foldlM_enter_eq_ok hstart h

/-! ## Writing a file -/

section

variable {target : Path} {bytes : List UInt8}

theorem lookup_filter_ne
    {path : Path} (hpath : path ≠ target) (files : List (Path × List UInt8)) :
    (files.filter fun entry => entry.1 != target).lookup path = files.lookup path := by
  induction files with
  | nil => rfl
  | cons entry rest ih =>
    by_cases hentry : entry.1 = target
    · rw [List.filter_cons_of_neg (by simpa using hentry), ih, List.lookup_cons,
        beq_false_of_ne (hentry ▸ hpath)]
    · rw [List.filter_cons_of_pos (by simpa using hentry), List.lookup_cons, List.lookup_cons, ih]

theorem lookup_write
    (path : Path) :
    (system.write target bytes).files.lookup path =
      if path = target then some bytes else system.files.lookup path := by
  rw [write, List.lookup_cons]
  split
  · rename_i hpath
    rw [if_pos (beq_iff_eq.mp hpath)]
  · rename_i hpath
    rw [if_neg (beq_eq_false_iff_ne.mp hpath), lookup_filter_ne (beq_eq_false_iff_ne.mp hpath)]

/-- The directories around a settled path that can be followed exist already. -/
theorem isDirectory_of_leadsTo
    (hsettled : target.IsSettled) (htarget : system.follow target = .ok target) {path : Path}
    (hleads : path.leadsTo target = true) (hne : path ≠ target) :
    system.isDirectory path = true := by
  obtain ⟨anchor, parts⟩ := path
  rw [Path.leadsTo, Bool.and_eq_true, beq_iff_eq, List.isPrefixOf_iff_prefix] at hleads
  obtain ⟨hanchor, back, hback⟩ := hleads
  obtain rfl : anchor = target.anchor := hanchor
  refine (follow_eq_ok hsettled htarget).2 parts back hback.symm ?_
  rintro rfl
  rw [List.append_nil] at hback
  exact hne (by rw [show parts = target.parts from hback])

/-- Writing a file makes no directory and removes none. -/
theorem isDirectory_write
    (hsettled : target.IsSettled) (htarget : system.follow target = .ok target) (path : Path) :
    (system.write target bytes).isDirectory path = system.isDirectory path := by
  rw [Bool.eq_iff_iff]
  constructor
  · intro h
    rw [isDirectory, Bool.or_eq_true] at h
    obtain hknown | hfiles := h
    · rw [isDirectory, Bool.or_eq_true]
      exact .inl hknown
    · obtain ⟨entry, hentry, hleads⟩ := List.any_eq_true.mp hfiles
      obtain rfl | hentry := List.mem_cons.mp hentry
      -- The new file could be reached before, so the directories around it were there.
      · simp only [Bool.and_eq_true, bne_iff_ne] at hleads
        exact isDirectory_of_leadsTo hsettled htarget hleads.1 hleads.2
      · rw [isDirectory, Bool.or_eq_true]
        exact .inr (List.any_eq_true.mpr ⟨entry, (List.mem_filter.mp hentry).1, hleads⟩)
  · intro h
    rw [isDirectory, Bool.or_eq_true] at h ⊢
    refine h.imp_right fun hfiles => ?_
    obtain ⟨entry, hentry, hleads⟩ := List.any_eq_true.mp hfiles
    by_cases hsame : entry.1 = target
    · exact List.any_eq_true.mpr ⟨_, List.mem_cons_self, hsame ▸ hleads⟩
    · exact List.any_eq_true.mpr
        ⟨entry, List.mem_cons_of_mem _ (List.mem_filter.mpr ⟨hentry, by simpa using hsame⟩), hleads⟩

/-- Writing a file keeps where a path leads. -/
theorem follow_write
    (hsettled : target.IsSettled) (htarget : system.follow target = .ok target) (path : Path) :
    ((system.write target bytes).follow path).toOption = (system.follow path).toOption := by
  have henter : ∀ reached part, ((system.write target bytes).enter reached part).toOption =
      (system.enter reached part).toOption := by
    intro reached part
    rw [enter, enter, isDirectory_write hsettled htarget]
    split
    · rfl
    · rfl
  rw [follow, follow]
  generalize path.start = reached
  induction path.parts generalizing reached with
  | nil => rfl
  | cons part rest ih =>
    have hpart := henter reached part
    rw [List.foldlM_cons, List.foldlM_cons]
    cases hafter : (system.write target bytes).enter reached part with
    | error fault =>
      cases hbefore : system.enter reached part with
      | error fault' => rfl
      | ok next => simp [hafter, hbefore, Except.toOption] at hpart
    | ok next =>
      cases hbefore : system.enter reached part with
      | error fault => simp [hafter, hbefore, Except.toOption] at hpart
      | ok next' =>
        obtain rfl : next = next' := by simpa [hafter, hbefore, Except.toOption] using hpart
        exact ih next

/-- Only the file at the target has changed. -/
structure ChangesOnly (before after : FileSystem) (target : Path) (bytes : List UInt8) : Prop where
  lookup : ∀ path, after.files.lookup path =
    if path = target then some bytes else before.files.lookup path
  isDirectory : ∀ path, after.isDirectory path = before.isDirectory path
  read : after.read? target = some bytes
  others : ∀ path, path ≠ target → before.follow path ≠ .ok target →
    after.read? path = before.read? path

/-- Where a file can be written, it gets the bytes, and no other file changes. -/
theorem changesOnly_write
    (hsettled : target.IsSettled) {shown : String} (hfault : system.writeFault? target shown = none)
    (bytes : List UInt8) :
    ChangesOnly system (system.write target bytes) target bytes := by
  have htarget : system.follow target = .ok target := by
    cases hreached : system.follow target with
    | error fault =>
      rw [writeFault?, hreached] at hfault
      split_ifs at hfault
      all_goals cases hfault
    | ok reached => rw [(follow_eq_ok hsettled hreached).1]
  refine ⟨lookup_write, isDirectory_write hsettled htarget, ?_, ?_⟩
  · rw [read?, lookup_write, if_pos rfl, Option.some_or]
  · intro path hne hfollow
    rw [read?, read?, lookup_write, if_neg hne, follow_write hsettled htarget]
    cases hreached : system.follow path with
    | error fault => rfl
    | ok reached =>
      have hother : reached ≠ target := fun hsame => hfollow (hsame ▸ hreached)
      simp only [Except.toOption, Option.bind_some, lookup_write, if_neg hother]

end

end FileSystem

end EntityDiagram.CommandLine
