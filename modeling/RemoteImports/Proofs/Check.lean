import Mathlib.Algebra.GroupWithZero.Nat
import Mathlib.Data.List.Forall2
import RemoteImports.Check
import RemoteImports.Proofs.FilePath.Containment
import RemoteImports.Proofs.FilePath.Order
import RemoteImports.Proofs.Project.Transform

/-!
# Results of checking

A check plans the rewrites of a file, a transformation plans and carries them out; the one says what
the other would do (`reports_check`). The report on some files has a result for each that holds text
(`forall₂_resultsFor`), under a path of its own (`nodup_path_resultsFor`), and its totals are those
of the results (`balanced_ofResults`).
-/

namespace RemoteImports

open FilePath FilePath.Component

/-! ## One file -/

/-- The result of checking a file says what the transformation of its text comes to. -/
structure FileResult.Reports (result : FileResult) (source : String)
    (transformed : Except Failure Transformed) : Prop where
  failed_iff : ∀ message, result.status = .failed ∧ result.error = some message ↔
    ∃ failure, transformed = .error failure ∧ failure.message = message
  unchanged_iff : result.status = .unchanged ↔
    ∃ out, transformed = .ok out ∧ out.rewrites = [] ∧ out.code = source
  rewritten_iff : result.status = .rewritten ↔ ∃ out, transformed = .ok out ∧ out.rewrites ≠ []
  rewrites_of_ok : ∀ out, transformed = .ok out → result.error = none ∧
    result.rewrites = out.rewrites.map fun r =>
      ⟨r.site.line, r.site.specifier, r.proxy.filename, r.proxy.methods⟩
  rewrites_of_error : ∀ failure, transformed = .error failure → result.rewrites = []

namespace Project

variable {project : Project} {tree : FileTree} {p : FilePath} {source : String}

/-- **A transformation makes the planned rewrites**, and fails if there is no plan. -/
theorem map_rewrites_transform (project : Project) (tree : FileTree) (p : FilePath)
    (source : String) :
    (project.transform tree p source).map Transformed.rewrites =
      project.planSource tree p source := by
  unfold transform planSource
  cases Module.parse p source with
  | error failure => rfl
  | ok m =>
    change ((project.apply tree m >>= _).map _) = project.plan tree m
    rw [apply_eq]
    cases project.plan tree m <;> rfl

theorem code_of_transform {out : Transformed} (h : project.transform tree p source = .ok out)
    (hnone : out.rewrites = []) : out.code = source := by
  obtain ⟨m, m', -, -, -, hcode⟩ := transform_eq_ok h
  rw [hcode, if_pos hnone]

/-- **A check agrees with the transformation.** -/
theorem reports_check (project : Project) (tree : FileTree) (dir p : FilePath) (source : String) :
    (project.check tree dir p source).Reports source (project.transform tree p source) := by
  rw [check, ← map_rewrites_transform]
  cases h : project.transform tree p source with
  | error failure =>
    constructor <;> simp [Except.map, FileResult.ofPlan]
  | ok out =>
    obtain ⟨code, rewrites⟩ := out
    cases rewrites with
    | nil =>
      obtain rfl : code = source := code_of_transform h rfl
      constructor <;> simp [Except.map, FileResult.ofPlan]
    | cons r rest =>
      constructor <;> simp [Except.map, FileResult.ofPlan, Rewrite.summary]

theorem path_check (project : Project) (tree : FileTree) (dir p : FilePath) (source : String) :
    (project.check tree dir p source).path = dir.shownFrom p := by
  unfold check FileResult.ofPlan
  split <;> rfl

end Project

/-! ## Shown paths -/

namespace FilePath

/-- Only the first component of a path is the top. -/
theorem isInner_of_append {p : FilePath} {start steps : List Component}
    (hstart : start.head? = some root) (h : p.components = start ++ steps) :
    ∀ c ∈ steps, IsInner c := by
  obtain ⟨first, inner, hfirst, hinner, hp⟩ := p.components_shape
  obtain ⟨rest, rfl⟩ := List.head?_eq_some_iff.1 hstart
  rw [hp] at h
  intro c hc
  rcases hfirst with rfl | rfl | rfl
  · obtain ⟨-, rfl⟩ := List.cons.inj h
    exact hinner c (List.mem_append_right _ hc)
  · cases h
  · rw [List.nil_append] at h
    exact hinner c (by simp [h, hc])

/-- **Absolute paths are shown differently** when they have different components. -/
theorem components_eq_of_shownFrom {dir p q : FilePath} (hdir : dir.components.head? = some root)
    (hp : p.components.head? = some root) (hq : q.components.head? = some root)
    (h : dir.shownFrom p = dir.shownFrom q) : p.components = q.components := by
  -- a path below the directory is shown as a relative one
  have hbelow : ∀ (p : FilePath) (steps : List Component), dir.below? p = some steps →
      (dir.shownFrom p).components = steps ∧ steps.head? ≠ some root := by
    intro p steps hsteps
    have hinner := isInner_of_append hdir (below?_eq_some_iff.1 hsteps)
    refine ⟨?_, fun hroot => ?_⟩
    · rw [shownFrom, hsteps]
      exact components_ofComponents hinner
    · exact hinner root (List.mem_of_mem_head? hroot)
  cases hpsteps : dir.below? p with
  | some steps =>
    obtain ⟨hshown, hne⟩ := hbelow p steps hpsteps
    cases hqsteps : dir.below? q with
    | some steps' =>
      obtain ⟨hshown', -⟩ := hbelow q steps' hqsteps
      rw [h, hshown'] at hshown
      rw [below?_eq_some_iff.1 hpsteps, below?_eq_some_iff.1 hqsteps, hshown]
    | none =>
      rw [h, shownFrom, hqsteps] at hshown
      exact absurd (hshown ▸ hq) hne
  | none =>
    cases hqsteps : dir.below? q with
    | some steps' =>
      obtain ⟨hshown', hne⟩ := hbelow q steps' hqsteps
      rw [← h, shownFrom, hpsteps] at hshown'
      exact absurd (hshown' ▸ hp) hne
    | none =>
      rw [shownFrom, shownFrom, hpsteps, hqsteps] at h
      exact congrArg components h

end FilePath

/-! ## Reports -/

/-- The totals of a report are those of its results. -/
structure CheckReport.Balanced (report : CheckReport) : Prop where
  filesChecked_eq : report.filesChecked = report.files.length
  filesChecked_eq_add : report.filesChecked =
    countOf report.files .unchanged + report.filesRewritten + report.filesFailed
  filesRewritten_eq : report.filesRewritten = countOf report.files .rewritten
  filesFailed_eq : report.filesFailed = countOf report.files .failed
  importsRewritten_eq : report.importsRewritten = (report.files.map (·.rewrites.length)).sum

namespace CheckReport

variable {project : Project} {tree : FileTree} {dir : FilePath} {files : List FilePath}

/-- Every result has one of the three statuses. -/
theorem length_eq_countOf (results : List FileResult) :
    results.length =
      countOf results .unchanged + countOf results .rewritten + countOf results .failed := by
  induction results with
  | nil => rfl
  | cons result rest ih =>
    simp only [countOf, List.length_cons, List.countP_cons] at ih ⊢
    cases result.status <;> simp <;> omega

theorem importsIn_eq_sum (results : List FileResult) :
    importsIn results = (results.map (·.rewrites.length)).sum := by
  induction results with
  | nil => rfl
  | cons result rest ih => rw [importsIn, ih, List.map_cons, List.sum_cons]

/-- **A report balances.** -/
theorem balanced_ofResults (project : Project) (results : List FileResult) (skipped : Nat) :
    (ofResults project results skipped).Balanced where
  filesChecked_eq := rfl
  filesChecked_eq_add := length_eq_countOf results
  filesRewritten_eq := rfl
  filesFailed_eq := rfl
  importsRewritten_eq := importsIn_eq_sum results

/-- **Each file that holds text has its result**, in the order of the files. -/
theorem forall₂_resultsFor (project : Project) (tree : FileTree) (dir : FilePath)
    (files : List FilePath) :
    List.Forall₂ (fun file result => ∃ source, tree.read file = .ok source ∧
        result = project.check tree dir file source)
      (files.filter fun file => (tree.read file).isOk) (resultsFor project tree dir files) := by
  induction files with
  | nil => exact .nil
  | cons file rest ih =>
    rw [resultsFor, List.filter_cons, List.filterMap_cons]
    cases h : tree.read file with
    | error fault => exact ih
    | ok source => exact .cons ⟨source, h, rfl⟩ ih

/-- The other files are counted as skipped. -/
theorem filesSkipped_ofFiles (project : Project) (tree : FileTree) (dir : FilePath)
    (files : List FilePath) :
    (ofFiles project tree dir files).filesSkipped =
      files.countP fun file => !(tree.read file).isOk := by
  have hresults := (forall₂_resultsFor project tree dir files).length_eq
  have hcount := List.length_eq_countP_add_countP (fun file => (tree.read file).isOk) (l := files)
  rw [← List.countP_eq_length_filter] at hresults
  simp only [ofFiles, ofResults, ← hresults]
  simp only [Bool.not_eq_true, Bool.decide_eq_false] at hcount
  omega

theorem map_path_resultsFor (project : Project) (tree : FileTree) (dir : FilePath)
    (files : List FilePath) :
    (resultsFor project tree dir files).map (·.path) =
      (files.filter fun file => (tree.read file).isOk).map dir.shownFrom := by
  have hresults := forall₂_resultsFor project tree dir files
  generalize resultsFor project tree dir files = results at hresults ⊢
  generalize (files.filter fun file => (tree.read file).isOk) = readable at hresults ⊢
  induction hresults with
  | nil => rfl
  | cons h _ ih =>
    obtain ⟨source, -, rfl⟩ := h
    rw [List.map_cons, List.map_cons, ih, Project.path_check]

/-- **Files that are apart are shown apart.** -/
theorem nodup_path_resultsFor (hdir : dir.components.head? = some .root)
    (hroot : ∀ file ∈ files, file.components.head? = some .root)
    (hfiles : files.Pairwise fun p q => p.before q) :
    ((resultsFor project tree dir files).map (·.path)).Nodup := by
  rw [map_path_resultsFor]
  refine List.Nodup.sublist (List.filter_sublist.map _) (List.pairwise_map.2 ?_)
  refine hfiles.imp_of_mem fun hp hq hbefore h => ?_
  exact components_ne_of_before hbefore
    (components_eq_of_shownFrom hdir (hroot _ hp) (hroot _ hq) h)

end CheckReport

end RemoteImports
