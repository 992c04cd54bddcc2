import Mathlib.Data.List.Perm.Basic
import RemoteImports.Proofs.Import.Classification
import RemoteImports.Proofs.Import.Requests
import RemoteImports.Proofs.Module.Rewriting
import RemoteImports.Proofs.Module.Source

/-!
# Names in scope

The names that the imports and proxies of a module bind (`Module.bound`), and what becomes of them
when imports are rewritten. The generated statements for an import bind what the import bound
(`Rewrite.Replaces.perm_bound`), so a rewriting adds what the import of the runtime brings and
nothing else. The same holds of all that is read off the kinds of the statements, as long as each of
the imports hands it on to the statements in its place: `perm_flatMap_rewrite?` is stated for any
such view.
-/

namespace RemoteImports

/-- The local names that a statement binds if it is an import or a proxy. -/
def Statement.bound (s : Statement) : List String :=
  match s.kind with
  | .importing decl => decl.specifiers.map ImportSpecifier.bound
  | .proxy decl => decl.bindings.map Binding.bound
  | _ => []

/-- The local names that the imports and proxies of a module bind. -/
def Module.bound (m : Module) : List String := m.statements.flatMap Statement.bound

/-- The local names that the imports of a module bind. -/
def Module.imported (m : Module) : List String :=
  m.statements.flatMap fun s =>
    match s.kind with
    | .importing decl => decl.specifiers.map ImportSpecifier.bound
    | _ => []

/-- The runtime module, if a statement imports it. -/
def Statement.runtime (s : Statement) : List String :=
  match s.kind with
  | .importing decl => if decl.source = runtimeModule then [decl.source] else []
  | _ => []

/-- The imports of the runtime module, each by its specifier. -/
def Module.runtimeImports (m : Module) : List String := m.statements.flatMap Statement.runtime

/-- A rewrite is made for an import statement: its proxy takes over the values, and the types are
those that the statement imports besides. -/
structure Rewrite.Replaces (r : Rewrite) (s : Statement) (decl : ImportDecl) : Prop where
  kind_eq : s.kind = .importing decl
  relative : decl.source.toList.head? = some '.'
  specifier_eq : r.site.specifier = decl.source
  parted : BackendImport.Parted decl.specifiers r.site.bindings r.site.typeBindings
  bindings_eq : r.proxy.bindings = r.site.bindings

/-! ## The names of one import -/

theorem BackendImport.Parted.perm_bound {specifiers : List ImportSpecifier}
    {values types : List Binding} (h : Parted specifiers values types) :
    (types.map Binding.bound ++ values.map Binding.bound).Perm
      (specifiers.map ImportSpecifier.bound) := by
  induction h with
  | nil => exact .refl _
  | value binding _ ih => exact List.perm_middle.trans (ih.cons _)
  | type binding _ ih => exact ih.cons _

theorem bound_typeImport (specifier : String) (bindings : List Binding) :
    (typeImport specifier bindings).bound = bindings.map Binding.bound := by
  simp [typeImport, Statement.unplaced, Statement.bound, ImportSpecifier.bound]

theorem bound_proxy (decl : Proxy) : decl.statement.bound = decl.bindings.map Binding.bound := rfl

namespace Rewrite.Replaces

variable {r : Rewrite} {s : Statement} {decl : ImportDecl}

/-- **The statements in the place of an import bind its names.** -/
theorem perm_bound (h : r.Replaces s decl) :
    (r.statements.flatMap Statement.bound).Perm s.bound := by
  have hbound : s.bound = decl.specifiers.map ImportSpecifier.bound := by
    rw [Statement.bound, h.kind_eq]
  have hproxy : r.proxy.statement.bound = r.site.bindings.map Binding.bound := by
    rw [bound_proxy, h.bindings_eq]
  rw [hbound]
  refine List.Perm.trans (.of_eq ?_) h.parted.perm_bound
  unfold Rewrite.statements
  split
  · rename_i htypes
    simp [htypes, hproxy]
  · simp [hproxy, bound_typeImport]

/-- Neither an import from the backend nor what takes its place is an import of the runtime. -/
theorem perm_runtime (h : r.Replaces s decl) :
    (r.statements.flatMap Statement.runtime).Perm s.runtime := by
  have hne : decl.source ≠ runtimeModule := by
    intro he
    have hdot := h.relative
    rw [he] at hdot
    exact absurd hdot (by decide)
  have hs : s.runtime = [] := by
    rw [Statement.runtime, h.kind_eq]
    exact if_neg hne
  have hproxy : r.proxy.statement.runtime = [] := rfl
  have htypes : (typeImport r.site.specifier r.site.typeBindings).runtime = [] := by
    rw [h.specifier_eq]
    exact if_neg hne
  rw [hs]
  unfold Rewrite.statements
  split <;> simp [hproxy, htypes]

end Rewrite.Replaces

namespace Module

/-! ## A view of all statements -/

variable {α : Type} {view : Statement → List α} {m m' : Module} {rewrites : List Rewrite}

/-- The layout of statements does not show in a view of their kinds. -/
theorem flatMap_placed (hview : ∀ s s' : Statement, s.kind = s'.kind → view s = view s')
    (s : Statement) (new : List Statement) : (s.placed new).flatMap view = new.flatMap view := by
  cases new with
  | nil => rfl
  | cons first rest =>
    simp only [Statement.placed, List.flatMap_cons, List.flatMap_map]
    exact congrArg₂ (· ++ ·) (hview _ _ rfl)
      (congrArg (List.flatMap · rest) (funext fun new => hview _ _ rfl))

/-- What stands at one position of a list stands in it once. -/
theorem flatMap_zipIdx_ite (new : List α) {position n : Nat} {statements : List Statement}
    (hn : n ≤ position) (hlt : position < n + statements.length) :
    ((statements.zipIdx n).flatMap fun p => if position = p.2 then new else []) = new := by
  induction statements generalizing n with
  | nil => simp only [List.length_nil] at hlt; omega
  | cons s rest ih =>
    rw [List.length_cons] at hlt
    rw [List.zipIdx_cons, List.flatMap_cons]
    by_cases hs : position = n
    · have hrest : ((rest.zipIdx (n + 1)).flatMap fun p =>
          if position = p.2 then new else []) = [] := by
        rw [List.flatMap_eq_nil_iff]
        rintro ⟨s', i⟩ hmem
        have := List.le_snd_of_mem_zipIdx hmem
        exact if_neg (by omega)
      rw [if_pos hs, hrest, List.append_nil]
    · rw [if_neg hs, ih (by omega) (by omega), List.nil_append]

theorem flatMap_zipIdx_fst (view : Statement → List α) (n : Nat) (statements : List Statement) :
    ((statements.zipIdx n).flatMap fun p => view p.1) = statements.flatMap view := by
  rw [← List.flatMap_map Prod.fst view, List.zipIdx_map_fst]

/-- At each position a rewriting keeps what is seen, up to the import of the runtime. -/
theorem perm_flatMap_rewrittenAt {r : Rewrite} {rest : List Rewrite}
    (hview : ∀ s s' : Statement, s.kind = s'.kind → view s = view s') {i : Nat} {s : Statement}
    (hrewrites : ∀ r' ∈ r :: rest, r'.site.position = i →
      (r'.statements.flatMap view).Perm (view s)) :
    ((rewrittenAt (r :: rest) i s).flatMap view).Perm
      ((if r.site.position = i then view runtimeImport else []) ++ view s) := by
  unfold rewrittenAt
  cases hfind : (r :: rest).find? (·.site.position = i) with
  | none =>
    have hne : r.site.position ≠ i := by
      simpa using List.find?_eq_none.1 hfind r List.mem_cons_self
    simp [hne]
  | some r' =>
    have hposition : r'.site.position = i := by simpa using List.find?_some hfind
    have hr' := hrewrites r' (List.mem_of_find?_eq_some hfind) hposition
    dsimp only
    rw [flatMap_placed hview, List.flatMap_append]
    refine List.Perm.append (.of_eq ?_) hr'
    by_cases hfirst : r.site.position = i <;> simp [hfirst]

/-- **What a rewriting adds.** A view of the kinds of the statements shows the same before and
after, apart from what the import of the runtime shows, if each import hands it on. -/
theorem perm_flatMap_rewrite?
    (hview : ∀ s s' : Statement, s.kind = s'.kind → view s = view s')
    (h : InOrder 0 m.statements.length rewrites) (hne : rewrites ≠ [])
    (hrewrites : ∀ r ∈ rewrites, ∀ s, m.statements[r.site.position]? = some s →
      (r.statements.flatMap view).Perm (view s))
    (hm : m.rewrite? rewrites = some m') :
    (m'.statements.flatMap view).Perm (view runtimeImport ++ m.statements.flatMap view) := by
  obtain rfl := Option.some.inj ((rewrite?_eq h).symm.trans hm)
  obtain ⟨r, rest, rfl⟩ := List.exists_cons_of_ne_nil hne
  have hplaces : ((replaceEach (rewrittenAt (r :: rest)) 0 m.statements).flatMap view).Perm
      ((m.statements.zipIdx).flatMap fun p =>
        (if r.site.position = p.2 then view runtimeImport else []) ++ view p.1) := by
    rw [replaceEach, List.flatMap_assoc]
    refine List.Perm.flatMap_left _ fun p hp => perm_flatMap_rewrittenAt hview ?_
    rintro r' hr' hposition
    refine hrewrites r' hr' p.1 ?_
    rw [hposition]
    exact List.mk_mem_zipIdx_iff_getElem?.1 hp
  refine hplaces.trans ((List.flatMap_append_perm _ _ _).symm.trans (.of_eq ?_))
  have hlt := h.lt_stop r List.mem_cons_self
  rw [flatMap_zipIdx_ite _ (Nat.zero_le _) (by omega), flatMap_zipIdx_fst]

/-! ## The names of a module -/

/-- Without proxies all names come from imports. -/
theorem bound_eq_imported (h : ∀ s ∈ m.statements, ∀ decl, s.kind ≠ .proxy decl) :
    m.bound = m.imported := by
  refine List.flatMap_congr fun s hs => ?_
  unfold Statement.bound
  cases hkind : s.kind with
  | proxy decl => exact absurd hkind (h s hs decl)
  | _ => rfl

/-- **A rewriting keeps the names in scope** and adds the proxy factory. -/
theorem perm_bound_rewrite? (h : InOrder 0 m.statements.length rewrites) (hne : rewrites ≠ [])
    (hrewrites : ∀ r ∈ rewrites, ∃ s decl,
      m.statements[r.site.position]? = some s ∧ r.Replaces s decl)
    (hm : m.rewrite? rewrites = some m') : m'.bound.Perm (runtimeFactory :: m.bound) := by
  refine perm_flatMap_rewrite? (fun s s' hkind => ?_) h hne (fun r hr s hs => ?_) hm
  · rw [Statement.bound, Statement.bound, hkind]
  · obtain ⟨s', decl, hs', hr⟩ := hrewrites r hr
    obtain rfl := Option.some.inj (hs.symm.trans hs')
    exact hr.perm_bound

/-- **A rewriting imports the runtime once more** than the module did. -/
theorem perm_runtimeImports_rewrite? (h : InOrder 0 m.statements.length rewrites)
    (hne : rewrites ≠ [])
    (hrewrites : ∀ r ∈ rewrites, ∃ s decl,
      m.statements[r.site.position]? = some s ∧ r.Replaces s decl)
    (hm : m.rewrite? rewrites = some m') :
    m'.runtimeImports.Perm (runtimeModule :: m.runtimeImports) := by
  refine perm_flatMap_rewrite? (fun s s' hkind => ?_) h hne (fun r hr s hs => ?_) hm
  · rw [Statement.runtime, Statement.runtime, hkind]
  · obtain ⟨s', decl, hs', hr⟩ := hrewrites r hr
    obtain rfl := Option.some.inj (hs.symm.trans hs')
    exact hr.perm_runtime

/-! ## Modules that were read -/

theorem exportOfNode_ne_proxy (source : List Char) (node : Script.Node) (tagged : Bool)
    (decl : Proxy) : exportOfNode source node tagged ≠ .proxy decl := by
  unfold exportOfNode
  repeat' split
  all_goals nofun

theorem kindOfNode_ne_proxy (source : List Char) (node : Script.Node) (tagged : Bool)
    (decl : Proxy) : kindOfNode source node tagged ≠ .proxy decl := by
  have hgetD : ∀ {β : Type} (read : Option β) (kind : β → StatementKind),
      (∀ b, kind b ≠ .proxy decl) → (read.map kind).getD .other ≠ .proxy decl := by
    intro β read kind hkind
    cases read with
    | none => nofun
    | some b => exact hkind b
  unfold kindOfNode
  split
  · exact hgetD _ _ nofun
  · exact hgetD _ _ nofun
  · exact exportOfNode_ne_proxy source node tagged decl
  · exact hgetD _ _ nofun
  · nofun

/-- No source text holds a proxy: to a reader it is a declaration like others. -/
theorem kind_ne_proxy_of_parse {p : FilePath} {source : String}
    (h : Module.parse p source = .ok m) :
    ∀ s ∈ m.statements, ∀ decl, s.kind ≠ .proxy decl := by
  have hnodes : ∀ (progress : Progress) (nodes : List Script.Node),
      ∀ s ∈ (statementsOfNodes source.toList progress nodes).1, ∀ decl, s.kind ≠ .proxy decl := by
    intro progress nodes
    induction nodes generalizing progress with
    | nil => simp [statementsOfNodes]
    | cons node rest ih =>
      rw [statementsOfNodes]
      split
      · exact ih _
      · exact List.forall_mem_cons.2 ⟨kindOfNode_ne_proxy _ _ _, ih _⟩
  rw [ofNodes_of_parse h]
  exact hnodes .start _

end Module

end RemoteImports
