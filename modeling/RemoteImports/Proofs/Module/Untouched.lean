import RemoteImports.Proofs.Module.Exposed
import RemoteImports.Proofs.Module.Names

/-!
# What a rewriting leaves alone

A rewriting takes imports away and puts statements of its own in their places
(`Statement.IsGenerated`), which bind names of other modules as the imports did
(`Statement.IsLink`). Whatever is read off the other statements is the same before and after it, in
the same order (`flatMap_rewrite?`), and so are the functions that the module exposes, for every
request (`exposed_rewrite?`).
-/

namespace RemoteImports

namespace Statement

/-- A statement that binds names of another module: an import or a proxy. -/
def IsLink (s : Statement) : Prop :=
  (∃ decl, s.kind = .importing decl) ∨ ∃ decl, s.kind = .proxy decl

/-- A statement as a list, if it declares a function. -/
def declared (s : Statement) : List Statement :=
  match s.kind with
  | .function _ | .exportFunction _ => [s]
  | _ => []

/-- A statement of one of the kinds that a rewriting generates. -/
inductive IsGenerated (s : Statement) : Prop
  | runtime (h : s.kind = runtimeImport.kind)
  | types (specifier : String) (bindings : List Binding)
      (h : s.kind = (typeImport specifier bindings).kind)
  | proxy (decl : Proxy) (h : s.kind = .proxy decl)

theorem IsGenerated.isLink {s : Statement} (h : s.IsGenerated) : s.IsLink := by
  cases h with
  | runtime h => exact .inl ⟨_, h⟩
  | types _ _ h => exact .inl ⟨_, h⟩
  | proxy decl h => exact .inr ⟨decl, h⟩

theorem IsGenerated.of_kind_eq {s new : Statement} (h : s.IsGenerated)
    (hkind : new.kind = s.kind) : new.IsGenerated := by
  cases h with
  | runtime h => exact .runtime (hkind.trans h)
  | types specifier bindings h => exact .types specifier bindings (hkind.trans h)
  | proxy decl h => exact .proxy decl (hkind.trans h)

/-- Placing statements does not make up any. -/
theorem exists_kind_eq_of_mem_placed {s new : Statement} {statements : List Statement}
    (h : new ∈ s.placed statements) : ∃ old ∈ statements, new.kind = old.kind := by
  cases statements with
  | nil => cases h
  | cons first rest =>
    rcases List.mem_cons.1 h with rfl | h
    · exact ⟨first, List.mem_cons_self, rfl⟩
    · obtain ⟨old, hold, rfl⟩ := List.mem_map.1 h
      exact ⟨old, List.mem_cons_of_mem _ hold, rfl⟩

end Statement

theorem Rewrite.isGenerated_of_mem_statements {r : Rewrite} {new : Statement}
    (h : new ∈ r.statements) : new.IsGenerated := by
  rw [Rewrite.statements, List.mem_append, List.mem_singleton] at h
  rcases h with h | rfl
  · split at h
    · cases h
    · obtain rfl := List.mem_singleton.1 h
      exact .types _ _ rfl
  · exact .proxy _ rfl

namespace Module

variable {m m' : Module} {rewrites : List Rewrite} {r : Rewrite} {s new : Statement} {i : Nat}

/-- Where a rewrite is about a statement, all that stands there afterwards is generated. -/
theorem isGenerated_of_mem_rewrittenAt (hr : r ∈ rewrites) (hi : r.site.position = i)
    (h : new ∈ rewrittenAt rewrites i s) : new.IsGenerated := by
  unfold rewrittenAt at h
  split at h
  · rename_i hnone
    exact absurd (List.find?_eq_none.1 hnone r hr) (by simpa using hi)
  · obtain ⟨old, hold, hkind⟩ := Statement.exists_kind_eq_of_mem_placed h
    refine Statement.IsGenerated.of_kind_eq ?_ hkind
    rcases List.mem_append.1 hold with hold | hold
    · split at hold
      · obtain rfl := List.mem_singleton.1 hold
        exact .runtime rfl
      · cases hold
    · exact Rewrite.isGenerated_of_mem_statements hold

/-- The statements of a rewritten module: those that no rewrite is about, and generated ones. -/
theorem mem_statements_rewrite? (h : InOrder 0 m.statements.length rewrites)
    (hm : m.rewrite? rewrites = some m') (hs : s ∈ m'.statements) :
    s.IsGenerated ∨
      ∃ i, m.statements[i]? = some s ∧ ∀ r ∈ rewrites, r.site.position ≠ i := by
  obtain rfl := Option.some.inj ((rewrite?_eq h).symm.trans hm)
  obtain ⟨⟨old, i⟩, hold, hs⟩ := List.mem_flatMap.1 hs
  by_cases hposition : ∃ r ∈ rewrites, r.site.position = i
  · obtain ⟨r, hr, hi⟩ := hposition
    exact .inl (isGenerated_of_mem_rewrittenAt hr hi hs)
  · have hnone : ∀ r ∈ rewrites, r.site.position ≠ i := fun r hr hi => hposition ⟨r, hr, hi⟩
    rw [rewrittenAt_of_notMem old hnone, List.mem_singleton] at hs
    subst hs
    exact .inr ⟨i, List.mk_mem_zipIdx_iff_getElem?.1 hold, hnone⟩

theorem path_rewrite? (h : InOrder 0 m.statements.length rewrites)
    (hm : m.rewrite? rewrites = some m') : m'.path = m.path := by
  obtain rfl := Option.some.inj ((rewrite?_eq h).symm.trans hm)
  rfl

/-- **What is not read off links is kept** by a rewriting that replaces links only, with its
order. -/
theorem flatMap_rewrite? {α : Type} {view : Statement → List α}
    (hview : ∀ s : Statement, s.IsLink → view s = [])
    (h : InOrder 0 m.statements.length rewrites)
    (hrewrites : ∀ r ∈ rewrites, ∀ s, m.statements[r.site.position]? = some s → s.IsLink)
    (hm : m.rewrite? rewrites = some m') :
    m'.statements.flatMap view = m.statements.flatMap view := by
  obtain rfl := Option.some.inj ((rewrite?_eq h).symm.trans hm)
  have hplaces : ∀ p ∈ m.statements.zipIdx,
      (rewrittenAt rewrites p.2 p.1).flatMap view = view p.1 := by
    rintro ⟨s, i⟩ hp
    by_cases hposition : ∃ r ∈ rewrites, r.site.position = i
    · -- neither the old statement nor the new ones show
      obtain ⟨r, hr, hi⟩ := hposition
      have hs := hrewrites r hr s (by rw [hi]; exact List.mk_mem_zipIdx_iff_getElem?.1 hp)
      rw [hview s hs, List.flatMap_eq_nil_iff]
      exact fun new hnew => hview new (isGenerated_of_mem_rewrittenAt hr hi hnew).isLink
    · rw [rewrittenAt_of_notMem s fun r hr hi => hposition ⟨r, hr, hi⟩, List.flatMap_singleton]
  rw [replaceEach, List.flatMap_assoc, List.flatMap_congr hplaces, flatMap_zipIdx_fst]

/-! ## Exposed functions -/

/-- Only the functions among some statements count for what they expose. -/
theorem exposedAmong_flatMap_declared (path : FilePath) (surface : List String)
    (requested : Option (List String)) (statements : List Statement) :
    exposedAmong path surface requested (statements.flatMap Statement.declared) =
      exposedAmong path surface requested statements := by
  induction statements with
  | nil => rfl
  | cons s rest ih =>
    rw [List.flatMap_cons, Statement.declared]
    cases hkind : s.kind with
    | function decl => simp only [List.singleton_append, exposedAmong, hkind, ih]
    | exportFunction decl => simp only [List.singleton_append, exposedAmong, hkind, ih]
    | importing | surface | proxy | other =>
      simp only [List.nil_append, exposedAmong, hkind, ih]

/-- **A rewriting does not change what a module exposes**, whatever is asked for. -/
theorem exposed_rewrite? (h : InOrder 0 m.statements.length rewrites)
    (hrewrites : ∀ r ∈ rewrites, ∀ s, m.statements[r.site.position]? = some s → s.IsLink)
    (hm : m.rewrite? rewrites = some m') (requested : Option (List String)) :
    m'.exposed requested = m.exposed requested := by
  have hsurface : m'.selfBound = m.selfBound := by
    refine flatMap_rewrite? (fun s hs => ?_) h hrewrites hm
    rcases hs with ⟨decl, hkind⟩ | ⟨decl, hkind⟩ <;> rw [Statement.selfBound, hkind]
  have hdeclared : m'.statements.flatMap Statement.declared =
      m.statements.flatMap Statement.declared := by
    refine flatMap_rewrite? (fun s hs => ?_) h hrewrites hm
    rcases hs with ⟨decl, hkind⟩ | ⟨decl, hkind⟩ <;> rw [Statement.declared, hkind]
  rw [exposed, exposed, ← exposedAmong_flatMap_declared, hdeclared, path_rewrite? h hm, hsurface,
    exposedAmong_flatMap_declared]

end Module

end RemoteImports
