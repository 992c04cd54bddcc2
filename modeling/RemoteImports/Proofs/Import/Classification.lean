import RemoteImports.Import.Backend
import RemoteImports.Proofs.FilePath.Containment

/-!
# Which statements are imports from the backend

`isSome_ofStatement?_iff` says which statements are imports from the backend, and
`parted_of_ofStatement?` how their specifiers are dealt out to values and types. The imports of a
whole module keep the order of the statements: `among_eq_filterMap` gives the list,
`pairwise_position_among` its positions.
-/

namespace RemoteImports.BackendImport

open FilePath

/-! ## Eligible imports -/

/-- An import statement that names all of its bindings, at least one of them a value. -/
structure NamesValues (decl : ImportDecl) : Prop where
  not_typeOnly : decl.typeOnly = false
  named : ∀ specifier ∈ decl.specifiers, ∃ binding typeOnly, specifier = .named binding typeOnly
  value : ∃ binding, .named binding false ∈ decl.specifiers

theorem isNamed_iff {specifier : ImportSpecifier} :
    isNamed specifier ↔ ∃ binding typeOnly, specifier = .named binding typeOnly := by
  cases specifier <;> simp [isNamed]

theorem isSome_valueBinding?_iff {specifier : ImportSpecifier} :
    (valueBinding? specifier).isSome ↔ ∃ binding, specifier = .named binding false := by
  cases specifier with
  | default => simp [valueBinding?]
  | whole => simp [valueBinding?]
  | named binding typeOnly => cases typeOnly <;> simp [valueBinding?]

theorem isEligible_iff {decl : ImportDecl} :
    isEligible decl ↔ decl.source.toList.head? = some '.' ∧ NamesValues decl := by
  simp only [isEligible, Bool.and_eq_true, decide_eq_true_eq, Bool.not_eq_true', List.all_eq_true,
    List.any_eq_true, isNamed_iff, isSome_valueBinding?_iff]
  constructor
  · rintro ⟨⟨⟨hdot, htype⟩, hnamed⟩, specifier, hmem, binding, rfl⟩
    exact ⟨hdot, htype, hnamed, binding, hmem⟩
  · rintro ⟨hdot, htype, hnamed, binding, hmem⟩
    exact ⟨⟨⟨hdot, htype⟩, hnamed⟩, _, hmem, binding, rfl⟩

/-- `Parted specifiers values types`: every specifier names a binding, which goes to the values or
to the types; both keep the order of the specifiers. -/
inductive Parted : List ImportSpecifier → List Binding → List Binding → Prop
  | nil : Parted [] [] []
  | value {specifiers : List ImportSpecifier} {values types : List Binding} (binding : Binding)
      (h : Parted specifiers values types) :
      Parted (.named binding false :: specifiers) (binding :: values) types
  | type {specifiers : List ImportSpecifier} {values types : List Binding} (binding : Binding)
      (h : Parted specifiers values types) :
      Parted (.named binding true :: specifiers) values (binding :: types)

theorem parted_filterMap {specifiers : List ImportSpecifier}
    (h : ∀ specifier ∈ specifiers, ∃ binding typeOnly, specifier = .named binding typeOnly) :
    Parted specifiers (specifiers.filterMap valueBinding?)
      (specifiers.filterMap typeBinding?) := by
  induction specifiers with
  | nil => exact .nil
  | cons specifier rest ih =>
    obtain ⟨binding, typeOnly, rfl⟩ := h specifier (by simp)
    have hrest := ih fun s hs => h s (by simp [hs])
    cases typeOnly with
    | false => exact .value binding hrest
    | true => exact .type binding hrest

namespace Parted

variable {specifiers : List ImportSpecifier} {values types : List Binding}

theorem named (h : Parted specifiers values types) :
    ∀ specifier ∈ specifiers, ∃ binding typeOnly, specifier = .named binding typeOnly := by
  induction h with
  | nil => simp
  | value binding _ ih => exact List.forall_mem_cons.2 ⟨⟨binding, false, rfl⟩, ih⟩
  | type binding _ ih => exact List.forall_mem_cons.2 ⟨⟨binding, true, rfl⟩, ih⟩

theorem mem_values_iff (h : Parted specifiers values types) {binding : Binding} :
    binding ∈ values ↔ .named binding false ∈ specifiers := by
  induction h with
  | nil => simp
  | value _ _ ih => simp [ih]
  | type _ _ ih => simp [ih]

theorem mem_types_iff (h : Parted specifiers values types) {binding : Binding} :
    binding ∈ types ↔ .named binding true ∈ specifiers := by
  induction h with
  | nil => simp
  | value _ _ ih => simp [ih]
  | type _ _ ih => simp [ih]

end Parted

/-! ## One statement -/

variable {importer backendRoot : FilePath} {position : Nat} {s : Statement} {site : BackendImport}

/-- What is known of a statement that is an import from the backend. -/
theorem ofStatement?_eq_some (h : ofStatement? importer backendRoot position s = some site) :
    ∃ decl, s.kind = .importing decl ∧ isEligible decl ∧ site.position = position ∧
      site.line = s.line ∧ site.specifier = decl.source ∧
      site.bindings = decl.specifiers.filterMap valueBinding? ∧
      site.typeBindings = decl.specifiers.filterMap typeBinding? ∧
      site.target = importer.resolveFrom decl.source ∧
      backendRoot.relativeTo (importer.resolveFrom decl.source) = some site.filename := by
  unfold ofStatement? at h
  split at h
  · rename_i decl hkind
    split at h
    · rename_i heligible
      obtain ⟨filename, hfilename, rfl⟩ := Option.map_eq_some_iff.1 h
      refine ⟨decl, hkind, heligible, ?_⟩
      simp [hfilename]
    · cases h
  · cases h

/-- **The imports from the backend**, among all statements: they name values, their specifier starts
with a dot, and it leads strictly below the backend root. -/
theorem isSome_ofStatement?_iff :
    (ofStatement? importer backendRoot position s).isSome ↔
      ∃ decl, s.kind = .importing decl ∧ NamesValues decl ∧
        decl.source.toList.head? = some '.' ∧
        IsBelow backendRoot (importer.resolveFrom decl.source) := by
  constructor
  · intro h
    obtain ⟨site, hsite⟩ := Option.isSome_iff_exists.1 h
    obtain ⟨decl, hkind, heligible, -, -, -, -, -, -, hfilename⟩ := ofStatement?_eq_some hsite
    obtain ⟨hdot, hnames⟩ := isEligible_iff.1 heligible
    refine ⟨decl, hkind, hnames, hdot, isSome_relativeTo_iff.1 ?_⟩
    rw [hfilename]
    rfl
  · rintro ⟨decl, hkind, hnames, hdot, hbelow⟩
    unfold ofStatement?
    simp only [hkind, if_pos (isEligible_iff.2 ⟨hdot, hnames⟩), Option.isSome_map]
    exact isSome_relativeTo_iff.2 hbelow

theorem parted_of_ofStatement? (h : ofStatement? importer backendRoot position s = some site) :
    ∃ decl, s.kind = .importing decl ∧
      Parted decl.specifiers site.bindings site.typeBindings := by
  obtain ⟨decl, hkind, heligible, -, -, -, hvalues, htypes, -, -⟩ := ofStatement?_eq_some h
  refine ⟨decl, hkind, ?_⟩
  rw [hvalues, htypes]
  exact parted_filterMap (isEligible_iff.1 heligible).2.named

theorem position_of_ofStatement? (h : ofStatement? importer backendRoot position s = some site) :
    site.position = position := by
  obtain ⟨-, -, -, hposition, -⟩ := ofStatement?_eq_some h
  exact hposition

/-! ## All statements of a module -/

variable {statements : List Statement}

theorem among_eq_filterMap (importer backendRoot : FilePath) (position : Nat)
    (statements : List Statement) :
    among importer backendRoot position statements =
      (statements.zipIdx position).filterMap fun p =>
        ofStatement? importer backendRoot p.2 p.1 := by
  induction statements generalizing position with
  | nil => rfl
  | cons s rest ih =>
    rw [among, List.zipIdx_cons, List.filterMap_cons, ih]
    cases ofStatement? importer backendRoot position s <;> rfl

theorem mem_among_iff :
    site ∈ among importer backendRoot 0 statements ↔
      ∃ s, statements[site.position]? = some s ∧
        ofStatement? importer backendRoot site.position s = some site := by
  rw [among_eq_filterMap, List.mem_filterMap]
  constructor
  · rintro ⟨⟨s, i⟩, hmem, hsite⟩
    obtain rfl := position_of_ofStatement? hsite
    exact ⟨s, List.mk_mem_zipIdx_iff_getElem?.1 hmem, hsite⟩
  · rintro ⟨s, hs, hsite⟩
    exact ⟨(s, site.position), List.mk_mem_zipIdx_iff_getElem?.2 hs, hsite⟩

/-- **The imports keep the order of the statements**, and no statement gives two. -/
theorem pairwise_position_among (importer backendRoot : FilePath) (position : Nat)
    (statements : List Statement) :
    ((among importer backendRoot position statements).map (·.position)).Pairwise (· < ·) := by
  have hsub : ((among importer backendRoot position statements).map (·.position)).Sublist
      ((statements.zipIdx position).map (·.2)) := by
    induction statements generalizing position with
    | nil => exact .slnil
    | cons s rest ih =>
      rw [among, List.zipIdx_cons, List.map_cons]
      split
      · rename_i hsite
        rw [List.map_cons, position_of_ofStatement? hsite]
        exact (ih (position + 1)).cons_cons _
      · exact (ih (position + 1)).cons _
  refine List.Pairwise.sublist hsub ?_
  rw [List.zipIdx_map_snd]
  exact List.pairwise_lt_range'

end RemoteImports.BackendImport
