import RemoteImports.Proofs.FilePath.Child
import RemoteImports.Proofs.FileTree.Entries

/-!
# The steps of a path

A relative path joined to a directory adds its steps to those of the directory (`steps_join`), and a
path takes the steps of its parent before its own last one (`goesOnFrom_of_parent?`). In both cases
the longer path goes on from the shorter one (`GoesOnFrom`), as long as that is not the empty path.
-/

namespace RemoteImports

open FilePath
open OsString (slash dot)

namespace FilePath

variable {dir p q : FilePath}

/-! ## Joined paths -/

/-- Joining writes a relative path after its directory, with a slash where one is needed. -/
theorem exists_bytes_join (hp : p.isAbsolute = false) :
    ∃ before, (dir.join p).bytes = before ++ p.bytes ∧
      (before = dir.bytes ∧ (before = [] ∨ before.getLast? = some slash) ∨
        before = dir.bytes ++ [slash]) := by
  rw [join, hp, if_neg Bool.false_ne_true]
  by_cases hend : dir.bytes = [] ∨ dir.bytes.getLast? = some slash
  · rw [if_pos hend]
    exact ⟨dir.bytes, rfl, .inl ⟨rfl, hend⟩⟩
  · rw [if_neg hend]
    exact ⟨dir.bytes ++ [slash], rfl, .inr rfl⟩

theorem plainSteps_join (hp : p.isAbsolute = false) :
    (dir.join p).plainSteps = dir.plainSteps ++ p.plainSteps := by
  obtain ⟨before, hbytes, ⟨hdir, hnil | hslash⟩ | hbefore⟩ := @exists_bytes_join dir p hp
  · rw [plainSteps, pieces, hbytes, plainSteps, pieces, ← hdir, hnil]
    rfl
  · -- the empty piece after the slash at the end of the directory gives no step
    obtain ⟨start, hstart⟩ := List.getLast?_eq_some_iff.1 hslash
    rw [plainSteps, pieces, hbytes, plainSteps, pieces, ← hdir, hstart, List.append_assoc,
      List.singleton_append, List.splitOn_append_cons_self, List.splitOn_append_cons_self,
      List.filterMap_append, List.filterMap_append]
    exact congrArg (· ++ p.plainSteps) (List.append_nil _).symm
  · rw [plainSteps, pieces, hbytes, hbefore, List.append_assoc, List.singleton_append,
      List.splitOn_append_cons_self, List.filterMap_append]
    rfl

theorem steps_join (hp : p.isAbsolute = false) (hne : p.bytes ≠ []) :
    (dir.join p).steps = dir.plainSteps ++ p.steps := by
  have hslash : (dir.join p).endsInSlash = p.endsInSlash := by
    obtain ⟨before, hbytes, -⟩ := @exists_bytes_join dir p hp
    obtain ⟨start, b, hb⟩ := (List.eq_nil_or_concat' p.bytes).resolve_left hne
    rw [endsInSlash, endsInSlash, hbytes, hb, ← List.append_assoc, List.getLast?_concat,
      List.getLast?_concat]
  rw [steps, steps, hslash, plainSteps_join hp]
  split
  · rw [List.append_assoc]
  · rfl

/-- Besides its plain steps a path stays where it is once or not at all. -/
theorem exists_steps_eq (p : FilePath) : ∃ n, p.steps = p.plainSteps ++ List.replicate n .here := by
  rw [steps]
  split
  · exact ⟨1, rfl⟩
  · exact ⟨0, (List.append_nil _).symm⟩

theorem exists_step_of_ne_nil {piece : List UInt8} (h : piece ≠ []) :
    ∃ step, Step.ofPiece? piece = some step := by
  rw [Step.ofPiece?, if_neg h]
  split
  · exact ⟨_, rfl⟩
  · split <;> exact ⟨_, rfl⟩

/-- A relative path asks for a step. -/
theorem steps_ne_nil (hp : p.isAbsolute = false) (hne : p.bytes ≠ []) : p.steps ≠ [] := by
  obtain ⟨first, rest, hsplit⟩ := List.exists_cons_of_ne_nil p.pieces_ne_nil
  have hbytes := p.intercalate_pieces
  rw [hsplit] at hbytes
  have hfirst : first ≠ [] := by
    rintro rfl
    cases rest with
    | nil => exact hne hbytes.symm
    | cons next more =>
      rw [isAbsolute, ← hbytes, List.intercalate_cons_cons] at hp
      cases hp
  obtain ⟨step, hstep⟩ := exists_step_of_ne_nil hfirst
  obtain ⟨n, hn⟩ := p.exists_steps_eq
  rw [hn, plainSteps, hsplit, List.filterMap_cons_some hstep]
  exact List.cons_ne_nil _ _

/-! ## Paths that go on -/

/-- Whether a path starts where another one does, takes its steps, and takes more. -/
structure GoesOnFrom (p dir : FilePath) : Prop where
  isAbsolute_eq : p.isAbsolute = dir.isAbsolute
  exists_steps : ∃ more, more ≠ [] ∧ p.steps = dir.plainSteps ++ more

/-- A path has the bytes of the names that it goes on from. -/
theorem GoesOnFrom.mem_bytes {b : UInt8} (h : p.GoesOnFrom dir) (hslash : b ≠ slash)
    (hdot : b ≠ dot) (hb : b ∈ dir.bytes) : b ∈ p.bytes := by
  rw [mem_bytes_iff hslash hdot] at hb ⊢
  obtain ⟨s, hs, hmem⟩ := hb
  obtain ⟨more, -, hsteps⟩ := h.exists_steps
  obtain ⟨n, hn⟩ := p.exists_steps_eq
  have hname : Step.name s ∈ p.plainSteps ++ List.replicate n .here := by
    rw [← hn, hsteps]
    exact List.mem_append_left more (List.mem_of_mem_filter hs)
  refine ⟨s, List.mem_filter.2 ⟨?_, by simp⟩, hmem⟩
  exact (List.mem_append.1 hname).resolve_right fun h => by cases List.eq_of_mem_replicate h

theorem goesOnFrom_join (hdir : dir.bytes ≠ []) (hp : p.isAbsolute = false) (hne : p.bytes ≠ []) :
    (dir.join p).GoesOnFrom dir := by
  refine ⟨?_, p.steps, steps_ne_nil hp hne, steps_join hp hne⟩
  obtain ⟨b, rest, hb⟩ := List.exists_cons_of_ne_nil hdir
  obtain ⟨before, hbytes, ⟨hbefore, -⟩ | hbefore⟩ := @exists_bytes_join dir p hp
  all_goals
    rw [isAbsolute, isAbsolute, hbytes, hbefore, hb]
    rfl

/-! ## Parents -/

theorem exists_filterMap_of_isIdle {idle : List (List UInt8)} (h : ∀ piece ∈ idle, isIdle piece) :
    ∃ n, idle.filterMap Step.ofPiece? = List.replicate n .here := by
  induction idle with
  | nil => exact ⟨0, rfl⟩
  | cons piece rest ih =>
    obtain ⟨hpiece, hrest⟩ := List.forall_mem_cons.1 h
    obtain ⟨n, hn⟩ := ih hrest
    rcases (by simpa [isIdle] using hpiece : piece = [] ∨ piece = [dot]) with rfl | rfl
    · exact ⟨n, hn⟩
    · exact ⟨n + 1, congrArg (Step.here :: ·) hn⟩

theorem plainSteps_ofTrimmed {pieces : List (List UInt8)} (hne : trimPieces pieces ≠ [])
    (hslash : ∀ piece ∈ trimPieces pieces, slash ∉ piece) :
    (ofTrimmed pieces).plainSteps = (trimPieces pieces).filterMap Step.ofPiece? := by
  by_cases htop : trimPieces pieces = [[]]
  · rw [ofTrimmed, htop]
    rfl
  · rw [ofTrimmed_of_ne htop, plainSteps, FilePath.pieces,
      List.splitOn_intercalate slash hslash hne]

theorem bytes_ofTrimmed_ne_nil {pieces : List (List UInt8)} (hne : trimPieces pieces ≠ [])
    (hslash : ∀ piece ∈ trimPieces pieces, slash ∉ piece) : (ofTrimmed pieces).bytes ≠ [] := by
  intro hempty
  by_cases htop : trimPieces pieces = [[]]
  · rw [ofTrimmed, htop] at hempty
    exact absurd hempty (by decide)
  · rw [ofTrimmed_of_ne htop] at hempty
    have hsplit := List.splitOn_intercalate slash hslash hne
    rw [show [slash].intercalate (trimPieces pieces) = [] from hempty] at hsplit
    exact htop hsplit.symm

/-- A path goes on from its parent; from the empty path it takes one step, and then it stays. -/
theorem goesOnFrom_of_parent? (h : p.parent? = some q) :
    p.GoesOnFrom q ∧ (q.bytes = [] → ∃ step n, p.steps = step :: List.replicate n .here) := by
  have hslash := p.slash_notMem_of_mem_pieces
  have habs : p.isAbsolute = q.isAbsolute := by
    obtain ⟨c, hroot, hc⟩ := exists_components_of_parent? h
    rw [Bool.eq_iff_iff, isAbsolute_iff, isAbsolute_iff, hc]
    cases q.components <;> simp [hroot]
  obtain ⟨n, hn⟩ := p.exists_steps_eq
  obtain ⟨first, rest, hsplit⟩ := List.exists_cons_of_ne_nil p.pieces_ne_nil
  obtain ⟨kept, idle, rfl, hidle, htrim, hlast⟩ := exists_trimPieces_cons first rest
  obtain ⟨m, hm⟩ := exists_filterMap_of_isIdle hidle
  rw [plainSteps, hsplit] at hn
  rcases kept.eq_nil_or_concat' with rfl | ⟨before, last, rfl⟩
  · -- a single piece has the empty path for its parent
    rw [parent?, hsplit, htrim] at h
    cases first with
    | nil => cases h
    | cons c piece =>
      cases h
      obtain ⟨step, hstep⟩ := @exists_step_of_ne_nil (c :: piece) (by simp)
      rw [List.nil_append, List.filterMap_cons_some hstep, hm, List.cons_append,
        List.replicate_append_replicate] at hn
      exact ⟨⟨habs, p.steps, by simp [hn], rfl⟩, fun _ => ⟨step, _, hn⟩⟩
  · rw [parent?_of_trimPieces (by simp) (hsplit ▸ htrim), ← List.cons_append,
      List.dropLast_concat] at h
    obtain rfl := Option.some.inj h
    obtain ⟨held, skipped, rfl, -, hheld, -⟩ := exists_trimPieces_cons first before
    obtain ⟨step, hstep⟩ := @exists_step_of_ne_nil last fun hnil =>
      hlast _ last rfl (by simp [isIdle, hnil])
    have hslash' : ∀ piece ∈ trimPieces (first :: (held ++ skipped)), slash ∉ piece := by
      intro piece hpiece
      rw [hheld] at hpiece
      refine hslash piece (hsplit ▸ List.cons_subset_cons first ?_ hpiece)
      rw [List.append_assoc, List.append_assoc]
      exact List.subset_append_left held _
    refine ⟨⟨habs, skipped.filterMap Step.ofPiece? ++ step ::
      (List.replicate m .here ++ List.replicate n .here), by simp, ?_⟩, fun hempty => ?_⟩
    · have hpieces : first :: (held ++ skipped ++ [last] ++ idle) =
          (first :: held) ++ (skipped ++ ([last] ++ idle)) := by simp
      rw [hn, plainSteps_ofTrimmed (by simp [hheld]) hslash', hheld, hpieces, List.filterMap_append,
        List.filterMap_append, List.filterMap_append, hm, List.filterMap_cons_some hstep]
      simp
    · exact absurd hempty (bytes_ofTrimmed_ne_nil (by simp [hheld]) hslash')

end FilePath

end RemoteImports
