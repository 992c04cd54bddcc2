import RemoteImports.Proofs.FileTree.Canonical

/-!
# Writing a file

A text is written to the place that a path refers to, which holds a file or nothing. What stands at
the other places stays (`SameApart`): files keep their content, links their target, and directories
are directories still. So the path leads to the same place afterwards (`reach_of_sameApart`), and
reads as the text (`write_eq_ok`).
-/

namespace RemoteImports

namespace Entry

variable {e new : Entry} {place other more : Location} {content : Content}

/-- An entry without what is below it. -/
def bare : Entry → Entry
  | directory _ => directory []
  | e => e

/-- Only directories are the same without what is below them and not the same. -/
theorem bare_eq_bare_iff :
    new.bare = e.bare ↔ (∀ entries, e ≠ directory entries) ∧ new = e ∨
      ∃ entries entries', e = directory entries ∧ new = directory entries' := by
  cases e <;> cases new <;> simp [bare]

theorem lookup_cons_eq (name other : OsString) (e : Entry) (rest : List (OsString × Entry)) :
    List.lookup other ((name, e) :: rest) = if other = name then some e else rest.lookup other := by
  by_cases h : other = name
  · rw [if_pos h, h, List.lookup_cons_self]
  · rw [if_neg h, List.lookup_cons, beq_eq_false_iff_ne.2 h]

theorem lookup_setEntry (name other : OsString) (new : Entry) (entries : List (OsString × Entry)) :
    (setEntry name new entries).lookup other =
      if other = name then some new else entries.lookup other := by
  induction entries with
  | nil => rw [setEntry, lookup_cons_eq]
  | cons first rest ih =>
    obtain ⟨first, e⟩ := first
    rw [setEntry]
    by_cases hname : first = name
    · rw [if_pos hname, hname, lookup_cons_eq, lookup_cons_eq]
      split <;> rfl
    · rw [if_neg hname, lookup_cons_eq, lookup_cons_eq, ih]
      by_cases hother : other = first
      · rw [if_pos hother, if_pos hother, if_neg (hother ▸ hname)]
      · rw [if_neg hother, if_neg hother]

/-! ## Places of an entry -/

theorem at?_append (place more : Location) (e : Entry) :
    at? (place ++ more) e = (at? place e).bind (at? more) := by
  induction place generalizing e with
  | nil => rfl
  | cons name rest ih =>
    rw [List.cons_append, at?, at?]
    cases e.entries.lookup name with
    | none => rfl
    | some inner => exact ih inner

/-- Only a directory has anything below it. -/
theorem exists_directory_of_at?_append (hmore : more ≠ [])
    (h : at? (place ++ more) e = some new) :
    ∃ entries, at? place e = some (directory entries) := by
  obtain ⟨name, rest, rfl⟩ := List.exists_cons_of_ne_nil hmore
  rw [at?_append, Option.bind_eq_some_iff] at h
  obtain ⟨inner, hinner, h⟩ := h
  rw [at?] at h
  cases inner with
  | directory entries => exact ⟨entries, hinner⟩
  | file | link => simp [entries] at h

/-- What is put at a place stands there, with what is below it. -/
theorem at?_append_put (place more : Location) (new e : Entry) :
    at? (place ++ more) (put place new e) = at? more new := by
  induction place generalizing e with
  | nil => rfl
  | cons name rest ih =>
    rw [List.cons_append, put, at?, entries, lookup_setEntry, if_pos rfl, Option.bind_some, ih]

theorem at?_put_self (place : Location) (new e : Entry) :
    at? place (put place new e) = some new := by
  have h := at?_append_put place [] new e
  rwa [List.append_nil] at h

/-- Beside the place nothing changes. -/
theorem at?_put_of_not_prefix (h : ¬ place <+: other) (h' : ¬ other <+: place) :
    at? other (put place new e) = at? other e := by
  induction place generalizing e other with
  | nil => exact absurd List.nil_prefix h
  | cons name rest ih =>
    cases other with
    | nil => exact absurd List.nil_prefix h'
    | cons first more =>
      rw [put, at?, at?, entries, lookup_setEntry]
      by_cases hname : first = name
      · subst hname
        simp only [List.cons_prefix_cons, true_and] at h h'
        rw [if_pos rfl, Option.bind_some, ih h h']
        cases e.entries.lookup first with
        | some inner => rfl
        | none =>
          -- nothing was there, and the directory that is made has nothing else in it
          obtain ⟨second, more, rfl⟩ := List.exists_cons_of_ne_nil
            (show more ≠ [] from fun he => h' (he ▸ List.nil_prefix))
          rfl
      · rw [if_neg hname]

/-- On the way to the place there are directories. -/
theorem exists_directory_put (hmore : more ≠ []) :
    ∃ entries, at? place (put (place ++ more) new e) = some (directory entries) :=
  exists_directory_of_at?_append hmore (at?_put_self (place ++ more) new e)

end Entry

/-- The place that a path refers to, whether or not there is anything. -/
def Reach.place : Reach → Location
  | present place => place
  | absent directory name => directory ++ [name]

namespace FileTree

variable {tree tree' : FileTree} {place other : Location} {p : FilePath} {text : String}
  {new : Entry} {content : Content}

theorem at?_put (tree : FileTree) (place : Location) (new : Entry) :
    (tree.put place new).at? place = some new :=
  Entry.at?_put_self place new tree.top

/-- A place holds a file or nothing. -/
def IsFree (tree : FileTree) (place : Location) : Prop :=
  tree.at? place = none ∨ ∃ content, tree.at? place = some (.file content)

/-- Two trees with the same working directory have the same at all places but one. -/
structure SameApart (tree tree' : FileTree) (place : Location) : Prop where
  working_eq : tree'.working = tree.working
  bare_eq : ∀ other ≠ place, (tree'.at? other).map Entry.bare = (tree.at? other).map Entry.bare

/-- **Putting a file** where there is a file or nothing, in a directory, changes that place only. -/
theorem sameApart_put (hfree : tree.IsFree place)
    (hdirectories : ∀ above more, more ≠ [] → place = above ++ more →
      ∃ entries, tree.at? above = some (.directory entries)) (content : Content) :
    tree.SameApart (tree.put place (.file content)) place where
  working_eq := rfl
  bare_eq := by
    intro other hne
    by_cases hbelow : place <+: other
    · -- a file has nothing below it, and there was nothing before
      obtain ⟨more, rfl⟩ := hbelow
      obtain ⟨name, rest, rfl⟩ := List.exists_cons_of_ne_nil
        (show more ≠ [] from fun he => hne (by rw [he, List.append_nil]))
      have hnew : (tree.put place (.file content)).at? (place ++ name :: rest) = none :=
        Entry.at?_append_put place (name :: rest) (.file content) tree.top
      have hold : tree.at? (place ++ name :: rest) = none := by
        rw [at?, Entry.at?_append]
        rcases hfree with hnone | ⟨old, hold⟩
        · rw [show Entry.at? place tree.top = none from hnone]
          rfl
        · rw [show Entry.at? place tree.top = some (.file old) from hold]
          rfl
      rw [hnew, hold]
    by_cases habove : other <+: place
    · obtain ⟨more, rfl⟩ := habove
      have hmore : more ≠ [] := fun he => hne (by rw [he, List.append_nil])
      obtain ⟨entries, hold⟩ := hdirectories other more hmore rfl
      obtain ⟨entries', hnew⟩ : ∃ entries', (tree.put (other ++ more) (.file content)).at? other =
          some (.directory entries') := Entry.exists_directory_put hmore
      rw [hold, hnew]
      rfl
    · exact congrArg _ (Entry.at?_put_of_not_prefix hbelow habove)

/-! ## Following a path after the change -/

section Follow

variable {jump jump' : Location → FilePath → List Step → Except FileFault Reach} {start : Location}
  {steps : List Step} {r : Reach} {links : Nat}

/-- What stands at another place: nothing, the same in both trees, or a directory in both. -/
theorem SameApart.at?_cases (h : tree.SameApart tree' place) (hne : other ≠ place) :
    (tree.at? other = none ∧ tree'.at? other = none) ∨
      (∃ e, (∀ entries, e ≠ .directory entries) ∧ tree.at? other = some e ∧
        tree'.at? other = some e) ∨
      ∃ entries entries', tree.at? other = some (.directory entries) ∧
        tree'.at? other = some (.directory entries') := by
  have hbare := h.bare_eq other hne
  cases hold : tree.at? other with
  | none =>
    rw [hold, Option.map_none, Option.map_eq_none_iff] at hbare
    exact .inl ⟨rfl, hbare⟩
  | some e =>
    rw [hold, Option.map_some, Option.map_eq_some_iff] at hbare
    obtain ⟨new, hnew, hbare⟩ := hbare
    obtain ⟨hfile, rfl⟩ | ⟨entries, entries', rfl, rfl⟩ := Entry.bare_eq_bare_iff.1 hbare
    · exact .inr (.inl ⟨new, hfile, rfl, hnew⟩)
    · exact .inr (.inr ⟨entries, entries', rfl, hnew⟩)

theorem SameApart.exists_directory (h : tree.SameApart tree' place) (hne : other ≠ place)
    {entries : List (OsString × Entry)} (hat : tree.at? other = some (.directory entries)) :
    ∃ entries', tree'.at? other = some (.directory entries') := by
  obtain ⟨hold, -⟩ | ⟨e, hfile, hold, -⟩ | ⟨_, entries', -, hnew⟩ := h.at?_cases hne
  · cases hold.symm.trans hat
  · exact absurd (Option.some.inj (hold.symm.trans hat)) (hfile entries)
  · exact ⟨entries', hnew⟩

theorem lookup_eq_at? {entries : List (OsString × Entry)}
    (hat : tree.at? start = some (.directory entries)) (name : OsString) :
    entries.lookup name = tree.at? (start ++ [name]) := by
  rw [at?, Entry.at?_append, show Entry.at? start tree.top = _ from hat, Option.bind_some,
    Entry.at?, Entry.entries]
  cases entries.lookup name <;> rfl

/-- Steps lead to the changed place as before, if the jumps at links do. -/
theorem SameApart.followWith (h : tree.SameApart tree' r.place) (hfree : tree.IsFree r.place)
    (hnew : tree'.at? r.place = some (.file content))
    (hjump : ∀ start target rest, jump start target rest = .ok r →
      jump' start target rest = .ok (.present r.place))
    (hr : tree.followWith jump start steps = .ok r) :
    tree'.followWith jump' start steps = .ok (.present r.place) := by
  induction steps generalizing start with
  | nil =>
    cases hr
    rfl
  | cons step rest ih =>
    rw [FileTree.followWith] at hr
    -- only a directory is left by a step, and it is no place for a file
    split at hr
    case h_2 | h_3 => cases hr
    rename_i entries hat
    have hne : start ≠ r.place := by
      rintro rfl
      rcases hfree with hnone | ⟨old, hold⟩
      · cases hat.symm.trans hnone
      · cases hat.symm.trans hold
    obtain ⟨entries', hat'⟩ := h.exists_directory hne hat
    rw [FileTree.followWith, hat']
    cases step with
    | here => exact ih hr
    | up => exact ih hr
    | name text =>
      simp only [lookup_eq_at? hat, lookup_eq_at? hat'] at hr ⊢
      split at hr
      · cases hr
      rename_i hsize
      rw [if_neg hsize]
      by_cases hplace : start ++ [text] = r.place
      · rw [hplace] at hr ⊢
        rw [hnew]
        rcases hfree with hnone | ⟨old, hold⟩
        · -- the path ends here
          rw [hnone] at hr
          simp only at hr
          split at hr
          · rename_i hrest
            rw [hrest]
            rfl
          · cases hr
        · rw [hold] at hr
          exact ih hr
      · obtain ⟨hold, hnew'⟩ | ⟨e, hfile, hold, hnew'⟩ | ⟨below, below', hold, hnew'⟩ :=
          h.at?_cases hplace
        all_goals
          rw [hold] at hr
          rw [hnew']
        · simp only at hr
          split at hr
          · cases hr
            exact absurd rfl hplace
          · cases hr
        · cases e with
          | file old => exact ih hr
          | link target => exact hjump _ _ _ hr
          | directory below => exact absurd rfl (hfile below)
        · exact ih hr

/-- Followed links lead to the changed place as before. -/
theorem SameApart.follow (h : tree.SameApart tree' r.place) (hfree : tree.IsFree r.place)
    (hnew : tree'.at? r.place = some (.file content)) (hr : tree.follow links start steps = .ok r) :
    tree'.follow links start steps = .ok (.present r.place) := by
  induction links generalizing start steps with
  | zero => exact h.followWith hfree hnew (fun _ _ _ hjump => by cases hjump) hr
  | succ links ih => exact h.followWith hfree hnew (fun _ _ _ hjump => ih hjump) hr

end Follow

/-- **A path leads to what was put at its place.** -/
theorem SameApart.reach {r : Reach} (h : tree.SameApart tree' r.place) (hfree : tree.IsFree r.place)
    (hnew : tree'.at? r.place = some (.file content)) (hr : tree.reach p = .ok r) :
    tree'.reach p = .ok (.present r.place) := by
  have hstart : tree'.startOf p = tree.startOf p := by rw [startOf, startOf, h.working_eq]
  rw [FileTree.reach] at hr ⊢
  split at hr
  · cases hr
  rename_i hnull
  split at hr
  · cases hr
  rename_i hempty
  rw [if_neg hnull, if_neg hempty, hstart]
  exact h.follow hfree hnew hr

/-! ## Absent names -/

section Absent

variable {jump : Location → FilePath → List Step → Except FileFault Reach} {start dir : Location}
  {steps : List Step} {name : OsString} {links : Nat}

/-- A name that a directory lacks. -/
def Lacks (tree : FileTree) (dir : Location) (name : OsString) : Prop :=
  ∃ entries, tree.at? dir = some (.directory entries) ∧ tree.at? (dir ++ [name]) = none

theorem lacks_of_followWith
    (hjump : ∀ start target rest, jump start target rest = .ok (.absent dir name) →
      tree.Lacks dir name)
    (h : tree.followWith jump start steps = .ok (.absent dir name)) : tree.Lacks dir name := by
  induction steps generalizing start with
  | nil => cases h
  | cons step rest ih =>
    rw [FileTree.followWith] at h
    split at h
    case h_2 | h_3 => cases h
    rename_i entries hat
    cases step with
    | here => exact ih h
    | up => exact ih h
    | name text =>
      simp only at h
      split at h
      · cases h
      split at h
      · rename_i hlookup
        split at h
        · cases h
          exact ⟨entries, hat, by rw [← lookup_eq_at? hat, hlookup]⟩
        · cases h
      · exact hjump _ _ _ h
      · exact ih h

theorem lacks_of_follow (h : tree.follow links start steps = .ok (.absent dir name)) :
    tree.Lacks dir name := by
  induction links generalizing start steps with
  | zero => exact lacks_of_followWith (fun _ _ _ hjump => by cases hjump) h
  | succ links ih => exact lacks_of_followWith (fun _ _ _ hjump => ih hjump) h

end Absent

/-! ## Writing -/

/-- **What a successful write has done**: the path refers to a place with a file or nothing, and
this place holds the text now. -/
theorem write_eq_ok (h : tree.write p text = .ok tree') :
    ∃ r, tree.reach p = .ok r ∧ tree.IsFree r.place ∧
      tree'.at? r.place = some (.file (.text text)) ∧ tree.SameApart tree' r.place := by
  obtain ⟨r, hr, h⟩ := bind_eq_ok_iff.1 h
  have hreach : tree.reach p = .ok r := by
    unfold reachForWriting at hr
    split at hr
    · obtain ⟨_, _, hr⟩ := bind_eq_ok_iff.1 hr
      cases hr
    · exact hr
  refine ⟨r, hreach, ?_⟩
  cases r with
  | absent dir name =>
    cases h
    obtain ⟨entries, hdir, hnone⟩ := lacks_of_follow (reach_eq_follow hreach)
    refine ⟨.inl hnone, at?_put ..,
      sameApart_put (.inl hnone) (fun above more hmore hplace => ?_) _⟩
    -- the new name is all that comes after its directory
    obtain ⟨rest, last, rfl⟩ := List.eq_nil_or_concat' more |>.resolve_left hmore
    obtain ⟨rfl, -⟩ := List.append_inj' (hplace.trans (List.append_assoc ..).symm) rfl
    rcases eq_or_ne rest [] with rfl | hrest
    · exact ⟨entries, by rwa [List.append_nil] at hdir⟩
    · exact Entry.exists_directory_of_at?_append hrest hdir
  | present place =>
    simp only at h
    split at h
    · rename_i old hold
      cases h
      refine ⟨.inr ⟨old, hold⟩, at?_put .., sameApart_put (.inr ⟨old, hold⟩) ?_ _⟩
      rintro above more hmore rfl
      exact Entry.exists_directory_of_at?_append hmore hold
    · cases h

/-- **The text is read back** from the path that it was written to. -/
theorem read_write (h : tree.write p text = .ok tree') : tree'.read p = .ok text := by
  obtain ⟨r, hr, hfree, hnew, hsame⟩ := write_eq_ok h
  have hlocate : tree'.locate p = .ok r.place := by
    rw [locate, hsame.reach hfree hnew hr]
  rw [read, hlocate]
  simp only [bind, Except.bind, hnew]

end FileTree

end RemoteImports
