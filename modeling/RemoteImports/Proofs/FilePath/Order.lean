import Mathlib.Data.List.Lex
import Mathlib.Data.Prod.Lex
import RemoteImports.FilePath

/-!
# The order of paths

Paths are ordered by their components, and components by their kind and name. Read as a key of
numbers, this is the lexicographic order (`before_iff`), so it is linear up to paths with
the same components (`before_of_not_before`), and sorting by it gives a strictly growing list when
no two paths have the same components (`pairwise_before_mergeSort`).
-/

namespace RemoteImports.FilePath

open Component

/-- Bytes as numbers. -/
def numbers (bytes : List UInt8) : List ℕ := bytes.map UInt8.toNat

theorem numbers_injective : Function.Injective numbers :=
  List.map_injective_iff.2 fun _ _ => UInt8.toNat_inj.1

theorem numbers_lt_iff {bytes others : List UInt8} :
    bytes < others ↔ numbers bytes < numbers others := by
  induction bytes generalizing others with
  | nil => cases others <;> simp [numbers]
  | cons b bytes ih =>
    cases others with
    | nil => simp [numbers]
    | cons o others =>
      rw [List.cons_lt_cons_iff, ih]
      simp only [numbers, List.map_cons, List.cons_lt_cons_iff, UInt8.lt_iff_toNat_lt,
        UInt8.toNat_inj]

/-- The kind of a component and its name. -/
def Component.key : Component → ℕ ×ₗ List ℕ
  | name s => toLex (3, numbers s.bytes)
  | c => toLex (c.rank, [])

/-- What a path is ordered by. -/
def key (p : FilePath) : List (ℕ ×ₗ List ℕ) := p.components.map Component.key

theorem Component.key_injective : Function.Injective Component.key := by
  intro c d h
  cases c <;> cases d <;> simp_all [Component.key, Component.rank]
  exact OsString.ext (numbers_injective h)

theorem key_inj {p q : FilePath} : p.key = q.key ↔ p.components = q.components :=
  (List.map_injective_iff.2 Component.key_injective).eq_iff

theorem Component.before_iff {c d : Component} : c.before d ↔ c.key < d.key := by
  cases c <;> cases d <;>
    simp [Component.before, Component.key, Component.rank, Prod.Lex.toLex_lt_toLex, numbers_lt_iff]

theorem componentsBefore_iff {as bs : List Component} :
    componentsBefore as bs ↔ as.map Component.key < bs.map Component.key := by
  induction as generalizing bs with
  | nil => cases bs <;> simp [componentsBefore]
  | cons a as ih =>
    cases bs with
    | nil => simp [componentsBefore]
    | cons b bs =>
      simp [componentsBefore, Component.before_iff, ih, List.cons_lt_cons_iff,
        Component.key_injective.eq_iff]

theorem before_iff {p q : FilePath} : p.before q ↔ p.key < q.key := componentsBefore_iff

/-- Of two paths with different components, one is before the other. -/
theorem before_of_not_before {p q : FilePath} (hne : p.components ≠ q.components)
    (h : !q.before p) : p.before q := by
  rw [Bool.not_eq_true', ← Bool.not_eq_true, before_iff, not_lt] at h
  rw [before_iff]
  exact lt_of_le_of_ne h fun hkey => hne (key_inj.1 hkey)

theorem components_ne_of_before {p q : FilePath} (h : p.before q) :
    p.components ≠ q.components := by
  intro he
  rw [before_iff, key_inj.2 he] at h
  exact lt_irrefl _ h

/-- **Strictly growing lists are equal** if they have the same members. -/
theorem eq_of_pairwise_before {ps qs : List FilePath} (hps : ps.Pairwise fun p q => p.before q)
    (hqs : qs.Pairwise fun p q => p.before q) (h : ∀ p, p ∈ ps ↔ p ∈ qs) : ps = qs := by
  have hne {p q : FilePath} (hbefore : p.before q) : p ≠ q := by
    rintro rfl
    exact components_ne_of_before hbefore rfl
  refine List.Perm.eq_of_pairwise (fun p q _ _ hpq hqp => ?_) hps hqs ?_
  · rw [before_iff] at hpq hqp
    exact absurd hqp (lt_asymm hpq)
  · exact (List.perm_ext_iff_of_nodup (hps.imp hne) (hqs.imp hne)).2 h

/-- **Sorted paths grow strictly**, if no two of them have the same components. -/
theorem pairwise_before_mergeSort {paths : List FilePath}
    (h : (paths.map components).Nodup) :
    (paths.mergeSort fun p q => !q.before p).Pairwise fun p q => p.before q := by
  have htrans : ∀ p q r : FilePath, (!q.before p) → (!r.before q) → !r.before p := by
    intro p q r hpq hqr
    simp only [Bool.not_eq_true', ← Bool.not_eq_true, before_iff, not_lt] at hpq hqr ⊢
    exact hpq.trans hqr
  have htotal : ∀ p q : FilePath, (!q.before p) || !p.before q := by
    intro p q
    simp only [Bool.or_eq_true, Bool.not_eq_true', ← Bool.not_eq_true, before_iff, not_lt]
    exact le_total _ _
  have hsorted := List.pairwise_mergeSort htrans htotal paths
  have hnodup : ((paths.mergeSort fun p q => !q.before p).map components).Nodup :=
    ((List.mergeSort_perm paths _).map components).nodup_iff.2 h
  rw [List.Nodup, List.pairwise_map] at hnodup
  exact (hsorted.and hnodup).imp fun h => before_of_not_before h.2 h.1

end RemoteImports.FilePath
