import Mathlib.Data.List.Basic
import RemoteImports.Module.OfNodes
import RemoteImports.Script.Tree
import RemoteImports.Proofs.Import.Classification

/-!
# Types among the names of an import

An import may name types besides values. Taking some of its types out changes nothing but the list
of its types, wherever the import leads (`ofStatement?_withoutSpecifiers`), with one exception: the
default export has no name, and an import that names it is never one from the backend, whether it
asks for the value or for the type (`default_type_bars_import`).
-/

namespace RemoteImports

open Script

namespace Script.Node

variable {source : List Char} {f : Node → Node}

/-! ## Changes below a node -/

/-- A change of nodes that leaves everything of them but their children. -/
structure KeepsPlace (f : Node → Node) : Prop where
  kind_eq : ∀ node, (f node).kind = node.kind
  role_eq : ∀ node, (f node).role = node.role
  start_eq : ∀ node, (f node).start = node.start
  stop_eq : ∀ node, (f node).stop = node.stop

/-- A node with each of its children changed. -/
def onChildren (f : Node → Node) (node : Node) : Node :=
  { node with children := node.children.map f }

/-- A node without some of its children. -/
def without (gone : Node → Bool) (node : Node) : Node :=
  { node with children := node.children.filter (!gone ·) }

/-- A change of the nodes of one kind. -/
def onKind (kind : Kind) (f : Node → Node) (node : Node) : Node :=
  if node.kind = kind then f node else node

theorem keepsPlace_onChildren (f : Node → Node) : KeepsPlace (onChildren f) :=
  ⟨fun _ => rfl, fun _ => rfl, fun _ => rfl, fun _ => rfl⟩

theorem keepsPlace_without (gone : Node → Bool) : KeepsPlace (without gone) :=
  ⟨fun _ => rfl, fun _ => rfl, fun _ => rfl, fun _ => rfl⟩

/-- What a change leaves alone, it leaves alone where it is made for one kind only. -/
theorem apply_onKind {α : Type} {get : Node → α} (h : ∀ node, get (f node) = get node)
    (kind : Kind) (node : Node) : get (onKind kind f node) = get node := by
  unfold onKind
  split
  · exact h node
  · rfl

theorem KeepsPlace.onKind (h : KeepsPlace f) (kind : Kind) : KeepsPlace (onKind kind f) :=
  ⟨apply_onKind h.kind_eq kind, apply_onKind h.role_eq kind, apply_onKind h.start_eq kind,
    apply_onKind h.stop_eq kind⟩

theorem KeepsPlace.stringText_eq (h : KeepsPlace f) (node : Node) :
    (f node).stringText source = node.stringText source := by
  rw [stringText, stringText, h.start_eq, h.stop_eq]

theorem KeepsPlace.namedChildren_onChildren (h : KeepsPlace f) (node : Node) :
    (node.onChildren f).namedChildren = node.namedChildren.map f := by
  rw [namedChildren, onChildren, List.filter_map, namedChildren]
  congr 1
  exact List.filter_congr fun child _ => by simp [h.kind_eq]

theorem KeepsPlace.child?_onChildren (h : KeepsPlace f) (node : Node) (role : Role) :
    (node.onChildren f).child? role = (node.child? role).map f := by
  rw [child?, onChildren, List.find?_map, child?]
  congr 2
  funext child
  simp [h.role_eq]

theorem KeepsPlace.isTypeOnly_onChildren (h : KeepsPlace f) (node : Node) :
    (node.onChildren f).isTypeOnly = node.isTypeOnly := by
  simp [isTypeOnly, hasKeyword, onChildren, Function.comp_def, h.kind_eq]

/-! ## Specifiers -/

/-- The parts of the clause of an import statement. -/
def importParts (node : Node) : List Node :=
  (node.namedChildren.filter (·.kind == .importClause)).flatMap namedChildren

/-- The specifiers in one part of an import clause. -/
def specifiersInPart (part : Node) : List Node :=
  if part.kind = .namedImports then part.namedChildren.filter (·.kind == .importSpecifier) else []

/-- The specifiers between the braces of an import statement. -/
def importSpecifiers (node : Node) : List Node := node.importParts.flatMap specifiersInPart

/-- A part of an import clause without some of its specifiers. -/
def shed (gone : Node → Bool) : Node → Node :=
  onKind .namedImports (without fun child => child.kind == .importSpecifier && gone child)

/-- An import statement without some of the specifiers between its braces. -/
def withoutSpecifiers (gone : Node → Bool) (node : Node) : Node :=
  node.onChildren (onKind .importClause (onChildren (shed gone)))

/-- Whether a specifier names the default export. -/
def namesDefault (source : List Char) (specifier : Node) : Bool :=
  (specifier.child? .name).any fun name => name.nameText source == "default"

theorem keepsPlace_shed (gone : Node → Bool) : KeepsPlace (shed gone) :=
  (keepsPlace_without _).onKind _

theorem keepsPlace_shed_clause (gone : Node → Bool) :
    KeepsPlace (onKind .importClause (onChildren (shed gone))) :=
  (keepsPlace_onChildren _).onKind _

theorem specifiersInPart_shed (gone : Node → Bool) (part : Node) :
    specifiersInPart (shed gone part) = (specifiersInPart part).filter (!gone ·) := by
  by_cases hkind : part.kind = .namedImports
  · rw [specifiersInPart, (keepsPlace_shed gone).kind_eq, if_pos hkind, specifiersInPart,
      if_pos hkind, shed, onKind, if_pos hkind, namedChildren, namedChildren, without]
    simp only [List.filter_filter]
    refine List.filter_congr fun child _ => ?_
    cases child.kind == .importSpecifier <;> simp [Bool.and_comm]
  · simp [specifiersInPart, (keepsPlace_shed gone).kind_eq, hkind]

theorem importParts_withoutSpecifiers (gone : Node → Bool) (node : Node) :
    (node.withoutSpecifiers gone).importParts = node.importParts.map (shed gone) := by
  have hkeep := keepsPlace_shed_clause gone
  rw [importParts, withoutSpecifiers, hkeep.namedChildren_onChildren, List.filter_map,
    List.flatMap_map, importParts, List.map_flatMap]
  have hkinds : ((·.kind == .importClause) : Node → Bool) ∘
      onKind .importClause (onChildren (shed gone)) = (·.kind == .importClause) :=
    funext fun child => by simp [hkeep.kind_eq]
  rw [hkinds]
  refine List.flatMap_congr fun clause hclause => ?_
  have hkind : clause.kind = .importClause := by simpa using (List.mem_filter.1 hclause).2
  rw [onKind, if_pos hkind, (keepsPlace_shed gone).namedChildren_onChildren]

theorem importSpecifiers_withoutSpecifiers (gone : Node → Bool) (node : Node) :
    (node.withoutSpecifiers gone).importSpecifiers =
      node.importSpecifiers.filter (!gone ·) := by
  rw [importSpecifiers, importParts_withoutSpecifiers, List.flatMap_map, importSpecifiers,
    List.filter_flatMap]
  exact List.flatMap_congr fun part _ => specifiersInPart_shed gone part

end Script.Node

open Script

namespace Module

variable {source : List Char} {node : Node} {gone : Node → Bool}

/-! ## What the specifiers bind -/

/-- The specifiers that the nodes of an import statement give. -/
def specifiersOfImport (source : List Char) (node : Node) : List ImportSpecifier :=
  node.importParts.flatMap (specifiersOfPart source)

/-- The bindings of the types among some specifiers. -/
def typeNames (source : List Char) (specifiers : List Node) : List Binding :=
  specifiers.filterMap fun specifier =>
    (specifierOfNode source specifier).bind BackendImport.typeBinding?

theorem specifiers_of_importOfNode {decl : ImportDecl} (h : importOfNode source node = some decl) :
    decl.specifiers = specifiersOfImport source node := by
  obtain ⟨target, -, rfl⟩ := Option.map_eq_some_iff.1 h
  simp only [specifiersOfImport, Node.importParts, List.flatMap_assoc]

theorem importOfNode_withoutSpecifiers (source : List Char) (gone : Node → Bool) (node : Node) :
    importOfNode source (node.withoutSpecifiers gone) =
      (importOfNode source node).map fun decl =>
        { decl with specifiers := specifiersOfImport source (node.withoutSpecifiers gone) } := by
  have hkeep := Node.keepsPlace_shed_clause gone
  have hfind : ((node.withoutSpecifiers gone).child? .source).or
      ((node.withoutSpecifiers gone).namedChildren.find? (·.kind == .string)) =
      ((node.child? .source).or (node.namedChildren.find? (·.kind == .string))).map
        (Node.onKind .importClause (Node.onChildren (Node.shed gone))) := by
    rw [Node.withoutSpecifiers, hkeep.child?_onChildren, hkeep.namedChildren_onChildren,
      List.find?_map, Option.map_or]
    simp only [Function.comp_def, hkeep.kind_eq]
  rw [importOfNode, hfind, importOfNode, Option.map_map, Option.map_map]
  congr 1
  funext target
  simp only [Function.comp_apply, hkeep.stringText_eq, ImportDecl.mk.injEq, true_and]
  refine ⟨hkeep.isTypeOnly_onChildren node, ?_⟩
  simp only [specifiersOfImport, Node.importParts, List.flatMap_assoc]

theorem specifiersOfPart_namedImports {part : Node} (h : part.kind = .namedImports) :
    specifiersOfPart source part =
      part.specifiersInPart.filterMap (specifierOfNode source) := by
  rw [specifiersOfPart, Node.specifiersInPart, if_pos h]
  simp only [h]

/-- What is read off the specifiers stays when specifiers go that it reads nothing off. -/
theorem filterMap_specifiersOfImport_withoutSpecifiers {α : Type}
    (read : ImportSpecifier → Option α)
    (h : ∀ specifier ∈ node.importSpecifiers, gone specifier →
      (specifierOfNode source specifier).bind read = none) :
    (specifiersOfImport source (node.withoutSpecifiers gone)).filterMap read =
      (specifiersOfImport source node).filterMap read := by
  rw [specifiersOfImport, Node.importParts_withoutSpecifiers, List.flatMap_map, specifiersOfImport,
    List.filterMap_flatMap, List.filterMap_flatMap]
  refine List.flatMap_congr fun part hpart => ?_
  by_cases hkind : part.kind = .namedImports
  · have hshed : (Node.shed gone part).kind = .namedImports := by
      rw [(Node.keepsPlace_shed gone).kind_eq, hkind]
    rw [specifiersOfPart_namedImports hkind, specifiersOfPart_namedImports hshed,
      Node.specifiersInPart_shed, List.filterMap_filterMap, List.filterMap_filterMap,
      List.filterMap_filter]
    refine List.filterMap_congr fun specifier hmem => ?_
    cases hgone : gone specifier with
    | false => simp
    | true => simp [h specifier (List.mem_flatMap.2 ⟨part, hpart, hmem⟩) hgone]
  · rw [Node.shed, Node.onKind, if_neg hkind]

/-- The types of an import statement are those between its braces. -/
theorem filterMap_typeBinding?_specifiersOfImport (node : Node) :
    (specifiersOfImport source node).filterMap BackendImport.typeBinding? =
      typeNames source node.importSpecifiers := by
  rw [specifiersOfImport, List.filterMap_flatMap, typeNames, Node.importSpecifiers,
    List.filterMap_flatMap]
  refine List.flatMap_congr fun part _ => ?_
  by_cases hkind : part.kind = .namedImports
  · rw [specifiersOfPart_namedImports hkind, List.filterMap_filterMap]
  · rw [Node.specifiersInPart, if_neg hkind, specifiersOfPart]
    split
    · rfl
    · cases part.namedChildren.find? (·.kind == .identifier) <;> rfl
    · contradiction
    · rfl

/-! ## What a type is not -/

/-- A specifier gives the default export without its name, or a binding, as a type if it is marked
so. -/
theorem specifierOfNode_eq_some {specifier : Node} {given : ImportSpecifier}
    (h : specifierOfNode source specifier = some given) :
    (specifier.namesDefault source = true ∧ ∃ bound, given = .default bound) ∨
      (specifier.namesDefault source = false ∧
        ∃ binding, given = .named binding specifier.isTypeOnly) := by
  obtain ⟨name, hname, rfl⟩ := Option.map_eq_some_iff.1 h
  dsimp only
  split
  · rename_i hdefault
    exact .inl ⟨by simp [Node.namesDefault, hname, hdefault], _, rfl⟩
  · rename_i hdefault
    exact .inr ⟨by simp [Node.namesDefault, hname, hdefault], _, rfl⟩

/-- A specifier that is marked as a type binds no value. -/
theorem specifierOfNode_bind_valueBinding? {specifier : Node} (h : specifier.isTypeOnly) :
    (specifierOfNode source specifier).bind BackendImport.valueBinding? = none := by
  refine Option.bind_eq_none_iff.2 fun given hgiven => ?_
  obtain ⟨-, bound, rfl⟩ | ⟨-, binding, rfl⟩ := specifierOfNode_eq_some hgiven
  · rfl
  · rw [h]
    rfl

/-- A specifier that does not name the default export names a binding, if it gives any. -/
theorem specifierOfNode_bind_unnamed {specifier : Node}
    (h : specifier.namesDefault source = false) :
    (specifierOfNode source specifier).bind (Option.guard (!BackendImport.isNamed ·)) = none := by
  refine Option.bind_eq_none_iff.2 fun given hgiven => ?_
  obtain ⟨hdefault, -⟩ | ⟨-, binding, rfl⟩ := specifierOfNode_eq_some hgiven
  · rw [h] at hdefault
    cases hdefault
  · rfl

theorem exists_default_mem_specifiersOfImport {specifier : Node}
    (hmem : specifier ∈ node.importSpecifiers) (h : specifier.namesDefault source) :
    ∃ bound, ImportSpecifier.default bound ∈ specifiersOfImport source node := by
  obtain ⟨part, hpart, hin⟩ := List.mem_flatMap.1 hmem
  have hkind : part.kind = .namedImports := by
    by_contra hkind
    simp [Node.specifiersInPart, hkind] at hin
  obtain ⟨given, hgiven⟩ : ∃ given, specifierOfNode source specifier = some given := by
    obtain ⟨name, hname, -⟩ := (Option.any_eq_true _ _).1 h
    exact ⟨_, Option.map_eq_some_iff.2 ⟨name, hname, rfl⟩⟩
  obtain ⟨-, bound, rfl⟩ | ⟨hnot, -⟩ := specifierOfNode_eq_some hgiven
  · refine ⟨bound, List.mem_flatMap.2 ⟨part, hpart, ?_⟩⟩
    rw [specifiersOfPart_namedImports hkind]
    exact List.mem_filterMap.2 ⟨specifier, hin, hgiven⟩
  · rw [h] at hnot
    cases hnot

end Module

open RemoteImports.Module

namespace BackendImport

variable {source : List Char} {node : Node} {gone : Node → Bool}
variable {importer backendRoot : FilePath} {position : Nat}

/-! ## The import that a statement is -/

theorem isEligible_iff_nil {decl : ImportDecl} :
    isEligible decl ↔ decl.source.toList.head? = some '.' ∧ decl.typeOnly = false ∧
      decl.specifiers.filter (!isNamed ·) = [] ∧ decl.specifiers.filterMap valueBinding? ≠ [] := by
  simp only [isEligible, Bool.and_eq_true, decide_eq_true_eq, Bool.not_eq_true', List.all_eq_true,
    List.any_eq_true, List.filter_eq_nil_iff, List.filterMap_eq_nil_iff, ne_eq, not_forall,
    Option.isSome_iff_ne_none, and_assoc, exists_prop, Bool.not_eq_false]

/-- Specifiers that bind the same values, and leave the same ones unnamed, make the same import from
the backend, up to its types. -/
theorem ofStatement?_congr {decl : ImportDecl} {specifiers : List ImportSpecifier} {s : Statement}
    (hs : s.kind = .importing decl)
    (hvalues : specifiers.filterMap valueBinding? = decl.specifiers.filterMap valueBinding?)
    (hnamed : specifiers.filter (!isNamed ·) = decl.specifiers.filter (!isNamed ·)) :
    ofStatement? importer backendRoot position
        { s with kind := .importing { decl with specifiers } } =
      (ofStatement? importer backendRoot position s).map fun site =>
        { site with typeBindings := specifiers.filterMap typeBinding? } := by
  have heligible : isEligible { decl with specifiers } = isEligible decl := by
    rw [Bool.eq_iff_iff, isEligible_iff_nil, isEligible_iff_nil, hvalues, hnamed]
  unfold ofStatement?
  simp only [hs, heligible, hvalues]
  split
  · rw [Option.map_map]
    rfl
  · rfl

theorem ofStatement?_eq_none {s : Statement} (h : ∀ decl, s.kind ≠ .importing decl) :
    ofStatement? importer backendRoot position s = none := by
  unfold ofStatement?
  split
  · rename_i decl hdecl
    exact absurd hdecl (h decl)
  · rfl

theorem kind_statementOfNode_eq_importing_iff {decl : ImportDecl}
    (hkind : node.kind = .importStatement) (p : Progress) :
    (statementOfNode source p node).kind = .importing decl ↔
      importOfNode source node = some decl := by
  simp only [statementOfNode, kindOfNode, hkind]
  cases importOfNode source node <;> simp

theorem typeBindings_of_ofStatement? {site : BackendImport} (hkind : node.kind = .importStatement)
    {p : Progress}
    (h : ofStatement? importer backendRoot position (statementOfNode source p node) = some site) :
    site.typeBindings = typeNames source node.importSpecifiers := by
  obtain ⟨decl, hdecl, -, -, -, -, -, htypes, -⟩ := ofStatement?_eq_some h
  rw [htypes, specifiers_of_importOfNode ((kind_statementOfNode_eq_importing_iff hkind p).1 hdecl),
    filterMap_typeBinding?_specifiersOfImport]

theorem ofStatement?_of_namesDefault {specifier : Node} (hkind : node.kind = .importStatement)
    (hmem : specifier ∈ node.importSpecifiers) (h : specifier.namesDefault source)
    (p : Progress) :
    ofStatement? importer backendRoot position (statementOfNode source p node) = none := by
  by_contra hsome
  obtain ⟨site, hsite⟩ := Option.ne_none_iff_exists'.1 hsome
  obtain ⟨decl, hdecl, heligible, -⟩ := ofStatement?_eq_some hsite
  obtain ⟨bound, hbound⟩ := exists_default_mem_specifiersOfImport hmem h
  rw [← specifiers_of_importOfNode ((kind_statementOfNode_eq_importing_iff hkind p).1 hdecl)]
    at hbound
  obtain ⟨_, _, himpossible⟩ := (isEligible_iff.1 heligible).2.named _ hbound
  cases himpossible

theorem ofStatement?_of_not_namesDefault (hkind : node.kind = .importStatement)
    (htype : ∀ specifier ∈ node.importSpecifiers, gone specifier → specifier.isTypeOnly)
    (hname : ∀ specifier ∈ node.importSpecifiers, gone specifier →
      specifier.namesDefault source = false) (p : Progress) :
    ofStatement? importer backendRoot position
        (statementOfNode source p (node.withoutSpecifiers gone)) =
      (ofStatement? importer backendRoot position (statementOfNode source p node)).map fun site =>
        { site with
          typeBindings := typeNames source (node.importSpecifiers.filter (!gone ·)) } := by
  have hkind' : (node.withoutSpecifiers gone).kind = .importStatement := hkind
  have himport := importOfNode_withoutSpecifiers source gone node
  cases hdecl : importOfNode source node with
  | none =>
    rw [hdecl] at himport
    have hfull : ∀ decl, (statementOfNode source p node).kind ≠ .importing decl := fun decl h => by
      rw [kind_statementOfNode_eq_importing_iff hkind, hdecl] at h
      cases h
    have hrest : ∀ decl, (statementOfNode source p (node.withoutSpecifiers gone)).kind ≠
        .importing decl := fun decl h => by
      rw [kind_statementOfNode_eq_importing_iff hkind', himport] at h
      cases h
    rw [ofStatement?_eq_none hfull, ofStatement?_eq_none hrest, Option.map_none]
  | some decl =>
    rw [hdecl] at himport
    have hs := (kind_statementOfNode_eq_importing_iff hkind p).2 hdecl
    have hs' := (kind_statementOfNode_eq_importing_iff hkind' p).2 himport
    have hreduced : statementOfNode source p (node.withoutSpecifiers gone) =
        { statementOfNode source p node with kind := .importing { decl with
            specifiers := specifiersOfImport source (node.withoutSpecifiers gone) } } := by
      rw [← hs']
      rfl
    rw [hreduced, ofStatement?_congr hs, filterMap_typeBinding?_specifiersOfImport,
      Node.importSpecifiers_withoutSpecifiers]
    · rw [specifiers_of_importOfNode hdecl]
      exact filterMap_specifiersOfImport_withoutSpecifiers _ fun specifier hmem hgone =>
        specifierOfNode_bind_valueBinding? (htype specifier hmem hgone)
    · rw [specifiers_of_importOfNode hdecl, ← List.filterMap_eq_filter]
      exact filterMap_specifiersOfImport_withoutSpecifiers _ fun specifier hmem hgone =>
        specifierOfNode_bind_unnamed (hname specifier hmem hgone)

/-- **Types among the names of an import.** Taking out specifiers that are marked as types changes
nothing but the list of the types, which loses just theirs, unless one of them names the default
export: a statement that has such a specifier, marked or not, is no import from the backend. -/
theorem ofStatement?_withoutSpecifiers (hkind : node.kind = .importStatement)
    (htype : ∀ specifier ∈ node.importSpecifiers, gone specifier → specifier.isTypeOnly)
    (p : Progress) :
    ((∀ specifier ∈ node.importSpecifiers, gone specifier →
        specifier.namesDefault source = false) →
      ofStatement? importer backendRoot position
          (statementOfNode source p (node.withoutSpecifiers gone)) =
        (ofStatement? importer backendRoot position (statementOfNode source p node)).map fun site =>
          { site with
            typeBindings := typeNames source (node.importSpecifiers.filter (!gone ·)) }) ∧
    (∀ site,
      ofStatement? importer backendRoot position (statementOfNode source p node) = some site →
      site.typeBindings = typeNames source node.importSpecifiers) ∧
    ((∃ specifier ∈ node.importSpecifiers, specifier.namesDefault source) →
      ofStatement? importer backendRoot position (statementOfNode source p node) = none) :=
  ⟨fun hname => ofStatement?_of_not_namesDefault hkind htype hname p,
    fun _ hsite => typeBindings_of_ofStatement? hkind hsite,
    fun ⟨_, hmem, h⟩ => ofStatement?_of_namesDefault hkind hmem h p⟩

/-- The first statement of a TypeScript source text. -/
def firstNode (text : String) : Node := (tree .typeScript text.toList).children.headD default

/-- A source text that imports a type and a value. -/
def zoneSource : String := "import { type Zone, now } from '../backend/clock';"

/-- The import from the backend that it is. -/
def zoneImport : BackendImport where
  position := 0
  line := 1
  specifier := "../backend/clock"
  bindings := [⟨"now", "now"⟩]
  typeBindings := [⟨"Zone", "Zone"⟩]
  target := ⟨"/app/backend/clock"⟩
  filename := "clock"

theorem zoneSource_withoutSpecifiers :
    ofStatement? ⟨"/app/src/main.ts"⟩ ⟨"/app/backend"⟩ 0
        (statementOfNode zoneSource.toList .start (firstNode zoneSource)) = some zoneImport ∧
      ofStatement? ⟨"/app/src/main.ts"⟩ ⟨"/app/backend"⟩ 0
          (statementOfNode zoneSource.toList .start
            ((firstNode zoneSource).withoutSpecifiers Node.isTypeOnly)) =
        some { zoneImport with typeBindings := [] } := by
  obtain ⟨hkind, hname, hrest, hfull⟩ :
      (firstNode zoneSource).kind = .importStatement ∧
      (∀ specifier ∈ (firstNode zoneSource).importSpecifiers, specifier.isTypeOnly →
        specifier.namesDefault zoneSource.toList = false) ∧
      typeNames zoneSource.toList
        ((firstNode zoneSource).importSpecifiers.filter (!·.isTypeOnly)) = [] ∧
      ofStatement? ⟨"/app/src/main.ts"⟩ ⟨"/app/backend"⟩ 0
        (statementOfNode zoneSource.toList .start (firstNode zoneSource)) = some zoneImport := by
    decide +kernel
  refine ⟨hfull, ?_⟩
  rw [(ofStatement?_withoutSpecifiers hkind (fun _ _ htype => htype) .start).1 hname, hfull,
    Option.map_some, hrest]

/-- A source text that imports the type of the default export and a value. -/
def defaultTypeSource : String := "import { type default as D, now } from '../backend/clock';"

/-- **The default export as a type** keeps a statement from being an import from the backend, which
it is without that type. -/
theorem default_type_bars_import :
    ofStatement? ⟨"/app/src/main.ts"⟩ ⟨"/app/backend"⟩ 0
        (statementOfNode defaultTypeSource.toList .start (firstNode defaultTypeSource)) = none ∧
      ofStatement? ⟨"/app/src/main.ts"⟩ ⟨"/app/backend"⟩ 0
          (statementOfNode defaultTypeSource.toList .start
            ((firstNode defaultTypeSource).withoutSpecifiers Node.isTypeOnly)) =
        some { zoneImport with typeBindings := [] } := by
  decide +kernel

end BackendImport

end RemoteImports
