import RemoteImports.Proofs.FileTree.Relocation
import RemoteImports.Proofs.Project.Transform

/-!
# Relocated modules

What corresponds below two roots: imports with targets at the same place, their rewrites, and
failures that name paths at the same place (`Failure.Relocated`). A module is read alike wherever
its file is (`sameOutcome_parse`), its functions are exposed alike (`sameOutcome_exposedAmong`), and
rewrites that differ in their targets make the same text of it (`textAfter_relocated`).
-/

namespace RemoteImports

open FilePath

/-! ## Relocated data -/

/-- Two imports that differ in the target only, which lies at the same place below two roots. -/
structure BackendImport.Relocated (dir dir' : FilePath) (site site' : BackendImport) : Prop where
  target : Corresponds dir dir' site.target site'.target
  eq_withTarget : site' = { site with target := site'.target }

/-- Two rewrites that differ in the target only. -/
structure Rewrite.Relocated (dir dir' : FilePath) (r r' : Rewrite) : Prop where
  site : r.site.Relocated dir dir' r'.site
  proxy_eq : r'.proxy = r.proxy

/-- Two failures of an import that differ only in the directory that their paths start from. -/
inductive Failure.Relocated (dir dir' : FilePath) : Failure → Failure → Prop
  /-- No module is found. -/
  | missing {target target' : FilePath} (h : Corresponds dir dir' target target')
      (specifier : String) (extensions : List String) :
      Relocated dir dir'
        (.unreadableImport specifier target (Project.noModule target extensions))
        (.unreadableImport specifier target' (Project.noModule target' extensions))
  /-- The module that is found cannot be read. -/
  | unreadable {target target' : FilePath} (h : Corresponds dir dir' target target')
      (specifier reason : String) :
      Relocated dir dir' (.unreadableImport specifier target reason)
        (.unreadableImport specifier target' reason)
  | parse {file file' : FilePath} (h : Corresponds dir dir' file file') (fault : SyntaxFault) :
      Relocated dir dir' (.parse file fault) (.parse file' fault)
  | exposedNotExported {file file' : FilePath} (h : Corresponds dir dir' file file')
      (function : String) :
      Relocated dir dir' (.exposedNotExported function file) (.exposedNotExported function file')
  | missingExposure (specifier : String) (names : List String) :
      Relocated dir dir' (.missingExposure specifier names) (.missingExposure specifier names)

/-- Two transformed texts with the same code, whose rewrites differ in their targets only. -/
structure Transformed.Relocated (dir dir' : FilePath) (out out' : Transformed) : Prop where
  code_eq : out'.code = out.code
  rewrites : List.Forall₂ (Rewrite.Relocated dir dir') out.rewrites out'.rewrites

/-! ## Modules at another path -/

namespace Module

variable {p p' : FilePath} {m : Module}

/-- A module read at another path of the same dialect is the same up to the path. -/
theorem sameOutcome_parse (h : p.components.getLast? = p'.components.getLast?) (source : String) :
    SameOutcome (fun e e' => ∃ fault, e = .parse p fault ∧ e' = .parse p' fault)
      (fun m m' => m.path = p ∧ m' = { m with path := p' })
      (Module.parse p source) (Module.parse p' source) := by
  unfold Module.parse parseAs ofTree
  rw [Dialect.ofPath_congr h]
  split
  · exact .error ⟨_, rfl, rfl⟩
  · exact .ok ⟨rfl, rfl⟩

/-- The path of a module shows only when a tagged function is not exported. -/
theorem sameOutcome_exposedAmong (p p' : FilePath) (surface : List String)
    (requested : Option (List String)) (statements : List Statement) :
    SameOutcome
      (fun e e' => ∃ name, e = .exposedNotExported name p ∧ e' = .exposedNotExported name p') Eq
      (exposedAmong p surface requested statements)
      (exposedAmong p' surface requested statements) := by
  induction statements with
  | nil => exact .ok rfl
  | cons s rest ih =>
    unfold exposedAmong
    split
    · rename_i name _
      split
      · split
        · exact ih.map fun _ _ hnames => congrArg (name :: ·) hnames
        · exact .error ⟨name, rfl, rfl⟩
      · exact ih
    · rename_i name _
      exact ih.map fun _ _ hnames => congrArg (name :: ·) hnames
    · exact ih

/-- The text in the place of a statement does not depend on the targets. -/
theorem textAfter_relocated {dir dir' : FilePath} {rewrites rewrites' : List Rewrite}
    (h : List.Forall₂ (Rewrite.Relocated dir dir') rewrites rewrites') :
    textAfter rewrites = textAfter rewrites' := by
  have hposition : ∀ r r', Rewrite.Relocated dir dir' r r' →
      r'.site.position = r.site.position := fun r r' hr => by rw [hr.site.eq_withTarget]
  have htext : ∀ r r', Rewrite.Relocated dir dir' r r' → r'.text = r.text := fun r r' hr => by
    rw [Rewrite.text, Rewrite.text, hr.proxy_eq, hr.site.eq_withTarget]
  have hhead : rewrites.head?.map (·.site.position) = rewrites'.head?.map (·.site.position) := by
    cases h with
    | nil => rfl
    | cons hr _ => exact congrArg some (hposition _ _ hr).symm
  funext i s
  have hfind : Option.Rel (Rewrite.Relocated dir dir') (rewrites.find? (·.site.position = i))
      (rewrites'.find? (·.site.position = i)) :=
    rel_find?_of_forall₂ h fun r r' hr => by rw [hposition r r' hr]
  unfold textAfter
  rw [hhead]
  generalize rewrites.find? (·.site.position = i) = found at hfind
  generalize rewrites'.find? (·.site.position = i) = found' at hfind
  cases hfind with
  | none => rfl
  | some hr =>
    dsimp only
    rw [htext _ _ hr]

end Module

end RemoteImports
