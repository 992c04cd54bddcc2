import Mathlib.Logic.Relation
import RemoteImports.Config
import RemoteImports.Proofs.FilePath.Relative

/-!
# Normal forms and cancellation

The normal form of a path is what remains of its components when dots vanish, a name cancels with
the step to the parent after it, and a step to the parent right after the top vanishes (`Cancels`).
The order of the cancellations does not matter: each of them keeps the normal form
(`Cancels.normalComponents_eq`), and where none is left a list is its own (`IsReduced`). A path may
be normalized before another one is joined to it (`normalize_join`), so the backend directory of a
project is the normal form of the one that its configuration shows (`normalize_canonical`).
-/

namespace RemoteImports.FilePath

open Component

/-- One cancellation in a list of components. -/
inductive Cancels : List Component → List Component → Prop
  /-- A dot vanishes. -/
  | dot (before after : List Component) : Cancels (before ++ here :: after) (before ++ after)
  /-- A name and the step to the parent after it cancel. -/
  | back (before : List Component) (s : OsString) (after : List Component) :
      Cancels (before ++ name s :: up :: after) (before ++ after)
  /-- There is nothing above the top. -/
  | top (after : List Component) : Cancels (root :: up :: after) (root :: after)

/-- Any number of cancellations, in any order. -/
abbrev Reduces : List Component → List Component → Prop := Relation.ReflTransGen Cancels

/-- There is no dot, and nothing but steps to the parent is in front of a step to the parent. -/
structure IsReduced (steps : List Component) : Prop where
  here_notMem : here ∉ steps
  ups_first : ∀ before after, steps = before ++ up :: after → ∀ c ∈ before, c = up

variable {done steps reduced : List Component} {dir p : FilePath}

/-! ## Cancellations keep the normal form -/

theorem Cancels.normalComponents_eq (h : Cancels steps reduced) :
    normalComponents reduced = normalComponents steps := by
  unfold normalComponents
  cases h with
  | dot before after => rw [List.foldl_append, List.foldl_append, List.foldl_cons, stepNormal]
  | back before s after =>
    rw [List.foldl_append, List.foldl_append, List.foldl_cons, List.foldl_cons]
    rfl
  | top after => rfl

theorem Reduces.normalComponents_eq (h : Reduces steps reduced) :
    normalComponents reduced = normalComponents steps := by
  induction h with
  | refl => rfl
  | tail _ hlast ih => exact hlast.normalComponents_eq.trans ih

theorem Cancels.sublist (h : Cancels steps reduced) : reduced.Sublist steps := by
  cases h with
  | dot before after => exact (List.sublist_cons_self here after).append_left before
  | back before s after =>
    exact ((List.sublist_cons_self up after).trans (List.sublist_cons_self _ _)).append_left before
  | top after => exact (List.sublist_cons_self up after).cons_cons root

theorem Reduces.sublist (h : Reduces steps reduced) : reduced.Sublist steps := by
  induction h with
  | refl => exact List.Sublist.refl steps
  | tail _ hlast ih => exact hlast.sublist.trans ih

/-! ## Cancellations reach the normal form -/

/-- A step that is put on the stack of kept components cancels with its top or with nothing. -/
theorem NormalStack.reduces_stepNormal {c : Component} (h : NormalStack done) (hc : IsInner c)
    (rest : List Component) :
    Reduces (done.reverse ++ c :: rest) ((FilePath.stepNormal done c).reverse ++ rest) := by
  match c, hc with
  | name s, _ =>
    have hkept : FilePath.stepNormal done (name s) = name s :: done := rfl
    rw [hkept, List.reverse_cons, List.append_assoc]
    exact .refl
  | up, _ =>
    cases h with
    | top => exact .single (.top rest)
    | climb k =>
      have hkept : FilePath.stepNormal (List.replicate k up) up = up :: List.replicate k up := by
        cases k <;> rfl
      rw [hkept, List.reverse_cons, List.append_assoc]
      exact .refl
    | @push done s h hs =>
      rw [List.reverse_cons, List.append_assoc]
      exact .single (.back done.reverse s rest)

theorem NormalStack.reduces_foldl (h : NormalStack done) (hsteps : ∀ c ∈ steps, IsInner c) :
    Reduces (done.reverse ++ steps) (steps.foldl FilePath.stepNormal done).reverse := by
  induction steps generalizing done with
  | nil =>
    rw [List.append_nil]
    exact .refl
  | cons c rest ih =>
    have hc : IsInner c := hsteps c List.mem_cons_self
    exact (h.reduces_stepNormal hc rest).trans
      (ih (h.stepNormal hc) fun d hd => hsteps d (List.mem_cons_of_mem c hd))

/-- **Cancellations lead from a path to its normal form.** -/
theorem reduces_normalize (p : FilePath) : Reduces p.components p.normalize.components := by
  obtain ⟨start, inner, hstart, hinner, hp⟩ := p.components_shape
  rw [components_normalize, hp]
  rcases hstart with rfl | rfl | rfl
  · exact NormalStack.top.reduces_foldl hinner
  · exact .head (.dot [] inner) ((NormalStack.climb 0).reduces_foldl hinner)
  · exact (NormalStack.climb 0).reduces_foldl hinner

/-! ## Reduced lists -/

theorem IsNormal.isReduced (h : IsNormal steps) : IsReduced steps := by
  cases h with
  | @absolute names =>
    have hup : up ∉ root :: names.map name := by simp
    refine ⟨by simp, fun before after heq => ?_⟩
    rw [heq] at hup
    exact absurd (List.mem_append_right before List.mem_cons_self) hup
  | @relative k names =>
    have hup : up ∉ names.map name := by simp
    refine ⟨by simp [List.mem_replicate], fun before after heq c hc => ?_⟩
    rcases List.append_eq_append_iff.1 heq with ⟨more, rfl, hmore⟩ | ⟨more, hups, -⟩
    · rw [hmore] at hup
      exact absurd (List.mem_append_right more List.mem_cons_self) hup
    · exact List.eq_of_mem_replicate (hups ▸ List.mem_append_left more hc)

/-- Nothing cancels in a reduced list. -/
theorem IsReduced.not_cancels (h : IsReduced steps) (reduced : List Component) :
    ¬ Cancels steps reduced := by
  rintro (⟨before, after⟩ | ⟨before, s, after⟩ | ⟨after⟩)
  · exact h.here_notMem (List.mem_append_right before List.mem_cons_self)
  · have hs : name s = up := h.ups_first (before ++ [name s]) after (by simp) (name s) (by simp)
    cases hs
  · have hroot : root = up := h.ups_first [root] after rfl root List.mem_cons_self
    cases hroot

/-- **The cancellations are confluent**: what they leave of a path, when nothing cancels any more,
is its normal form. -/
theorem isReduced_reduces_iff (p q : FilePath) :
    IsReduced q.components ∧ Reduces p.components q.components ↔
      q.components = p.normalize.components := by
  constructor
  · rintro ⟨hreduced, hpq⟩
    have hq : q.normalize.components = q.components :=
      (Relation.reflTransGen_iff_eq hreduced.not_cancels).1 (reduces_normalize q)
    rw [← hq, components_normalize, components_normalize, hpq.normalComponents_eq]
  · intro h
    rw [h]
    exact ⟨(isNormal_normalize p).isReduced, reduces_normalize p⟩

/-! ## Normalized paths -/

theorem normalize_congr {q : FilePath}
    (h : normalComponents p.components = normalComponents q.components) :
    p.normalize = q.normalize :=
  congrArg ofComponents h

theorem normalize_normalize (p : FilePath) : p.normalize.normalize = p.normalize :=
  normalize_congr (reduces_normalize p).normalComponents_eq

theorem isAbsolute_normalize (p : FilePath) : p.normalize.isAbsolute = p.isAbsolute := by
  rw [Bool.eq_iff_iff]
  constructor
  · intro h
    rw [isAbsolute_iff] at h ⊢
    have hroot : root ∈ p.components :=
      (reduces_normalize p).sublist.subset (List.mem_of_mem_head? h)
    obtain ⟨start, inner, hstart, hinner, hp⟩ := p.components_shape
    rw [hp, List.mem_append] at hroot
    rcases hroot with hroot | hroot
    · rcases hstart with rfl | rfl | rfl
      · rw [hp]
        rfl
      · simp at hroot
      · simp at hroot
    · exact absurd (hinner root hroot) id
  · intro h
    obtain ⟨names, -, hp⟩ := normalize_of_isAbsolute h
    rw [hp]
    exact isAbsolute_ofComponents_root _

/-! ## Joined paths -/

/-- The run over the components of a joined path goes on where the run over its directory ends. -/
theorem foldl_components_join (dir : FilePath) (hp : p.isAbsolute = false) :
    (dir.join p).components.foldl stepNormal [] =
      p.components.foldl stepNormal (dir.components.foldl stepNormal []) := by
  by_cases hdir : dir.bytes = []
  · rw [join_of_empty hdir hp, components_of_empty hdir]
    rfl
  · rw [components_join hdir hp, List.foldl_append, foldl_stepNormal_filter_here]

theorem foldl_components_normalize (p : FilePath) :
    p.normalize.components.foldl stepNormal [] = p.components.foldl stepNormal [] :=
  List.reverse_injective (reduces_normalize p).normalComponents_eq

/-- **A directory may be normalized before a path is joined to it.** -/
theorem normalize_join (dir p : FilePath) :
    (dir.normalize.join p).normalize = (dir.join p).normalize := by
  cases hp : p.isAbsolute with
  | true => rw [join_of_isAbsolute _ hp, join_of_isAbsolute _ hp]
  | false =>
    refine normalize_congr (congrArg List.reverse ?_)
    rw [foldl_components_join _ hp, foldl_components_join _ hp, foldl_components_normalize]

/-- **Normalization computes a canonical form that respects joining.** The normal form is reduced,
starts where the path does, is its own normal form, and is the only path of this kind that
cancellations lead to. The project has the normal form of the backend directory that the
configuration shows. -/
theorem normalize_canonical :
    (∀ p : FilePath, IsReduced p.normalize.components ∧
      p.normalize.isAbsolute = p.isAbsolute ∧ p.normalize.normalize = p.normalize ∧
      ∀ q : FilePath,
        (IsReduced q.components ∧ Reduces p.components q.components ↔
          q.components = p.normalize.components) ∧
        (q.normalize = q ∧ Reduces p.components q.components ↔ q = p.normalize)) ∧
    (∀ dir p : FilePath, (dir.normalize.join p).normalize = (dir.join p).normalize) ∧
    ∀ (config : Config) (changedOnly : Bool), ∃ shown : FilePath,
      (config.showLines changedOnly).getLast? = some ("Backend root: " ++ shown.text) ∧
        config.project.backendRoot = shown.normalize := by
  refine ⟨fun p => ⟨(isNormal_normalize p).isReduced, isAbsolute_normalize p,
    normalize_normalize p, fun q => ⟨isReduced_reduces_iff p q, ?_⟩⟩, normalize_join,
    fun config changedOnly => ?_⟩
  · constructor
    · rintro ⟨hq, hpq⟩
      rw [← hq]
      exact normalize_congr hpq.normalComponents_eq
    · rintro rfl
      exact ⟨normalize_normalize p, reduces_normalize p⟩
  · refine ⟨config.backendRoot, ?_, normalize_join config.root config.backend⟩
    rw [Config.showLines, List.getLast?_append]
    rfl

example : normalize ⟨"a/./../../b"⟩ = ⟨"../b"⟩ ∧ normalize ⟨"/../x"⟩ = ⟨"/x"⟩ := by
  decide +kernel

end RemoteImports.FilePath
