import Mathlib.Data.List.Basic
import RemoteImports.Import.Rewrite

/-!
# What an import asks for

The names that an import asks its target for are its imported names, each where it stands first
(`requested_eq_eraseDups`). The import passes if all of them are exposed, and then it becomes a
proxy with these methods (`rewrite_eq_ok_iff`); otherwise it fails with those that are not
(`rewrite_eq_error_iff`).
-/

namespace RemoteImports

/-! ## First occurrences -/

theorem filter_distinct (p : String → Bool) (names : List String) :
    (distinct names).filter p = distinct (names.filter p) := by
  induction names with
  | nil => rfl
  | cons name rest ih =>
    rw [distinct, List.filter_cons, List.filter_cons, List.filter_filter]
    by_cases hp : p name
    · have hcomm : ∀ n, (p n && decide (n ≠ name)) = (decide (n ≠ name) && p n) :=
        fun n => Bool.and_comm _ _
      simp only [hp, if_true, distinct, hcomm]
      rw [← List.filter_filter, ih]
    · -- the first name goes, and with it the others like it
      have habsorb : ∀ n, (p n && decide (n ≠ name)) = p n := by
        intro n
        by_cases hn : n = name
        · simp [hn, hp]
        · simp [hn]
      simp only [hp, Bool.false_eq_true, if_false, habsorb, ih]

/-- The names of a list without repeats, as the list library has it. -/
theorem distinct_eq_eraseDups (names : List String) : distinct names = names.eraseDups := by
  match names with
  | [] => rfl
  | name :: rest =>
    rw [distinct, List.eraseDups_cons, filter_distinct, distinct_eq_eraseDups]
    simp only [ne_eq, decide_not, beq_eq_decide]
termination_by names.length
decreasing_by exact Nat.lt_succ_of_le (List.length_filter_le _ _)

theorem mem_distinct {name : String} {names : List String} :
    name ∈ distinct names ↔ name ∈ names := by
  rw [distinct_eq_eraseDups, List.mem_eraseDups]

theorem nodup_distinct (names : List String) : (distinct names).Nodup := by
  induction names with
  | nil => exact List.nodup_nil
  | cons name rest ih =>
    rw [distinct, List.nodup_cons]
    exact ⟨by simp, ih.filter _⟩

namespace BackendImport

variable {site : BackendImport} {exposed : List String}

theorem requested_eq_eraseDups (site : BackendImport) :
    site.requested = (site.bindings.map Binding.imported).eraseDups :=
  distinct_eq_eraseDups _

theorem mem_requested {name : String} :
    name ∈ site.requested ↔ ∃ binding ∈ site.bindings, binding.imported = name := by
  rw [requested, mem_distinct, List.mem_map]

/-! ## Validation -/

theorem rewrite_eq_ok_iff {r : Rewrite} :
    site.rewrite exposed = .ok r ↔
      (∀ name ∈ site.requested, name ∈ exposed) ∧
        r = ⟨site, ⟨site.bindings, site.requested, site.filename⟩⟩ := by
  unfold rewrite
  cases hmissing : site.requested.filter (!exposed.contains ·) with
  | nil =>
    have hall : ∀ name ∈ site.requested, name ∈ exposed := by simpa using hmissing
    constructor
    · intro hr
      exact ⟨hall, (Except.ok.inj hr).symm⟩
    · rintro ⟨-, rfl⟩
      rfl
  | cons name rest =>
    have hname : name ∈ site.requested.filter (!exposed.contains ·) := by
      rw [hmissing]
      exact List.mem_cons_self
    constructor
    · intro hr
      cases hr
    · rintro ⟨hall, -⟩
      have hmem := List.mem_filter.1 hname
      simp [hall name hmem.1] at hmem

/-- An import fails with the names that its target lacks, in the order in which it asks for them. -/
theorem rewrite_eq_error_iff {failure : Failure} :
    site.rewrite exposed = .error failure ↔
      (∃ name ∈ site.requested, name ∉ exposed) ∧
        failure = .missingExposure site.specifier (site.requested.filter (· ∉ exposed)) := by
  have hmissing : site.requested.filter (!exposed.contains ·) =
      site.requested.filter (· ∉ exposed) := by
    simp
  have hnil : site.requested.filter (· ∉ exposed) = [] ↔
      ¬ ∃ name ∈ site.requested, name ∉ exposed := by
    simp
  unfold rewrite
  rw [hmissing]
  cases hfilter : site.requested.filter (· ∉ exposed) with
  | nil => exact iff_of_false nofun fun h => hnil.1 hfilter h.1
  | cons name rest =>
    have hlacks : ∃ name ∈ site.requested, name ∉ exposed := by
      by_cases h : ∃ name ∈ site.requested, name ∉ exposed
      · exact h
      · cases hfilter.symm.trans (hnil.2 h)
    constructor
    · intro h
      cases h
      exact ⟨hlacks, rfl⟩
    · rintro ⟨-, rfl⟩
      rfl

/-- Of what a target exposes only the names that are asked for matter. -/
theorem rewrite_congr {listed : List String}
    (h : ∀ name ∈ site.requested, name ∈ exposed ↔ name ∈ listed) :
    site.rewrite exposed = site.rewrite listed := by
  have hmissing : site.requested.filter (!exposed.contains ·) =
      site.requested.filter (!listed.contains ·) :=
    List.filter_congr fun name hname => by simp [h name hname]
  rw [rewrite, rewrite, hmissing]

theorem site_of_rewrite {r : Rewrite} (h : site.rewrite exposed = .ok r) : r.site = site := by
  obtain ⟨-, rfl⟩ := rewrite_eq_ok_iff.1 h
  rfl

end BackendImport

end RemoteImports
