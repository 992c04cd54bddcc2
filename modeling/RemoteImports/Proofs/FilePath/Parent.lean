import Mathlib.Data.List.DropRight
import RemoteImports.Proofs.FilePath.Child

/-!
# Directories above a path

The parent of a path lacks its last component (`exists_components_of_parent?`), and only the top and
the empty path have none (`components_of_parent?_eq_none`). So a directory is at or above a path, as
its components say (`IsAtOrAbove`), if it is the path itself or at or above the parent
(`isAtOrAbove_iff_of_parent?`).
-/

namespace RemoteImports.FilePath

open Component
open OsString (slash dot)

variable {p q dir : FilePath}

/-! ## Idle pieces -/

theorem ofPiece?_of_isIdle {piece : List UInt8} (h : isIdle piece) : ofPiece? piece = none := by
  have hidle : piece = [] ∨ piece = [dot] := by simpa [isIdle] using h
  rw [ofPiece?, if_pos hidle]

theorem exists_ofPiece?_of_not_isIdle {piece : List UInt8} (h : ¬ isIdle piece) :
    ∃ c, ofPiece? piece = some c ∧ c ≠ root := by
  have hidle : ¬ (piece = [] ∨ piece = [dot]) := by simpa [isIdle] using h
  rw [ofPiece?, if_neg hidle]
  split
  · exact ⟨up, rfl, by simp⟩
  · exact ⟨_, rfl, by simp⟩

/-- The first piece stays, and what is cut off at the end is idle. -/
theorem exists_trimPieces_cons (first : List UInt8) (rest : List (List UInt8)) :
    ∃ kept idle, rest = kept ++ idle ∧ (∀ piece ∈ idle, isIdle piece) ∧
      trimPieces (first :: rest) = first :: kept ∧
      ∀ before last, kept = before ++ [last] → ¬ isIdle last := by
  refine ⟨rest.rdropWhile isIdle, rest.rtakeWhile isIdle,
    List.rdropWhile_append_rtakeWhile.symm, fun piece => List.mem_rtakeWhile_imp, rfl,
    fun before last hkept => ?_⟩
  have hne : rest.rdropWhile isIdle ≠ [] := by simp [hkept]
  have hlast := List.rdropWhile_last_not isIdle rest hne
  simpa only [hkept, List.getLast_concat] using hlast

theorem filterMap_append_idle (kept : List (List UInt8)) {idle : List (List UInt8)}
    (h : ∀ piece ∈ idle, isIdle piece) :
    (kept ++ idle).filterMap ofPiece? = kept.filterMap ofPiece? := by
  rw [List.filterMap_append, List.filterMap_eq_nil_iff.2 fun piece hpiece =>
    ofPiece?_of_isIdle (h piece hpiece), List.append_nil]

/-- Idle pieces at the end do not count, unless the slash before them is all there is. -/
theorem ofPieces_trimPieces {pieces : List (List UInt8)} (hne : pieces ≠ [])
    (h : trimPieces pieces ≠ [[]]) : ofPieces (trimPieces pieces) = ofPieces pieces := by
  obtain ⟨first, rest, rfl⟩ := List.exists_cons_of_ne_nil hne
  obtain ⟨kept, idle, rfl, hidle, htrim, -⟩ := exists_trimPieces_cons first rest
  rw [htrim] at h ⊢
  rcases eq_or_ne first [] with rfl | hempty
  · have hkept : kept ≠ [] := by simpa using h
    rw [ofPieces_nil_cons hkept, ofPieces_nil_cons (by simp [hkept]),
      filterMap_append_idle kept hidle]
  rcases eq_or_ne first [dot] with rfl | hdot
  · rw [ofPieces_dot_cons, ofPieces_dot_cons, filterMap_append_idle kept hidle]
  · rw [ofPieces_cons_of_ne kept hempty hdot, ofPieces_cons_of_ne _ hempty hdot, ← List.cons_append,
      filterMap_append_idle _ hidle]

/-! ## Pieces before the last one -/

/-- The path of some pieces without the idle ones at its end. An empty piece alone is what is left
of the top. -/
def ofTrimmed (pieces : List (List UInt8)) : FilePath :=
  match trimPieces pieces with
  | [[]] => ⟨⟨[slash]⟩⟩
  | kept => ⟨⟨[slash].intercalate kept⟩⟩

theorem ofTrimmed_of_ne {pieces : List (List UInt8)} (h : trimPieces pieces ≠ [[]]) :
    ofTrimmed pieces = ⟨⟨[slash].intercalate (trimPieces pieces)⟩⟩ := by
  unfold ofTrimmed
  split
  · rename_i htop
    exact absurd htop h
  · rfl

theorem components_ofTrimmed_of_ne {pieces : List (List UInt8)} (hne : pieces ≠ [])
    (hslash : ∀ piece ∈ pieces, slash ∉ piece) (h : trimPieces pieces ≠ [[]]) :
    (ofTrimmed pieces).components = ofPieces pieces := by
  have htrim := ofPieces_trimPieces hne h
  obtain ⟨first, rest, rfl⟩ := List.exists_cons_of_ne_nil hne
  obtain ⟨kept, idle, rfl, -, hkept, -⟩ := exists_trimPieces_cons first rest
  have hslash' : ∀ piece ∈ first :: kept, slash ∉ piece := fun piece hpiece =>
    hslash piece (List.mem_append_left idle hpiece)
  rw [ofTrimmed_of_ne h, ← htrim, hkept, components, FilePath.pieces,
    List.splitOn_intercalate slash hslash' (by simp)]

/-- **A piece at the end** adds the component that it stands for to those of the others. -/
theorem ofPieces_concat {pieces : List (List UInt8)} (hne : pieces ≠ [])
    (hslash : ∀ piece ∈ pieces, slash ∉ piece) (last : List UInt8) :
    ofPieces (pieces ++ [last]) = (ofTrimmed pieces).components ++ [last].filterMap ofPiece? := by
  by_cases htop : trimPieces pieces = [[]]
  · obtain ⟨first, rest, rfl⟩ := List.exists_cons_of_ne_nil hne
    obtain ⟨kept, idle, rfl, hidle, htrim, -⟩ := exists_trimPieces_cons first rest
    obtain ⟨rfl, rfl⟩ : first = [] ∧ kept = [] := by simpa [htrim] using htop
    have hcomponents : (ofTrimmed ([] :: ([] ++ idle))).components = [root] := by
      rw [ofTrimmed, htop]
      rfl
    rw [hcomponents, List.cons_append, ofPieces_nil_cons (by simp), List.filterMap_append,
      List.nil_append, List.filterMap_eq_nil_iff.2 fun piece hpiece =>
        ofPiece?_of_isIdle (hidle piece hpiece)]
    rfl
  · have hne' : pieces ≠ [[]] := by
      rintro rfl
      exact htop rfl
    obtain ⟨start, hstart, hself⟩ := exists_ofPieces_append hne
    rw [components_ofTrimmed_of_ne hne hslash htop, hstart _ (by simp), hself hne']

/-! ## Parents -/

/-- A path of several pieces has a parent. -/
theorem parent?_of_trimPieces {first : List UInt8} {kept : List (List UInt8)} (hne : kept ≠ [])
    (h : trimPieces (p.pieces) = first :: kept) :
    p.parent? = some (ofTrimmed (first :: kept).dropLast) := by
  obtain ⟨next, more, rfl⟩ := List.exists_cons_of_ne_nil hne
  rw [parent?, h, ofTrimmed]
  generalize htrim : trimPieces (first :: next :: more).dropLast = trimmed
  simp only [htrim]
  rcases trimmed with _ | ⟨_ | ⟨c, piece⟩, _ | ⟨other, rest⟩⟩ <;> rfl

/-- A single piece stands for one component. -/
theorem exists_ofPieces_singleton {piece : List UInt8} (h : piece ≠ []) :
    ∃ c, c ≠ root ∧ ofPieces [piece] = [c] := by
  rcases eq_or_ne piece [dot] with rfl | hdot
  · exact ⟨here, by simp, rfl⟩
  · have hidle : ¬ isIdle piece := by simp [isIdle, h, hdot]
    obtain ⟨c, hc, hroot⟩ := exists_ofPiece?_of_not_isIdle hidle
    refine ⟨c, hroot, ?_⟩
    rw [ofPieces_cons_of_ne [] h hdot, List.filterMap_cons_some hc, List.filterMap_nil]

/-- **The parent of a path** lacks its last component, which is not the top. -/
theorem exists_components_of_parent? (h : p.parent? = some q) :
    ∃ c, c ≠ root ∧ p.components = q.components ++ [c] := by
  have hslash := p.slash_notMem_of_mem_pieces
  have hcomponents : trimPieces (p.pieces) ≠ [[]] → p.components = _ :=
    fun htop => (ofPieces_trimPieces (p.pieces_ne_nil) htop).symm
  obtain ⟨first, rest, hsplit⟩ := List.exists_cons_of_ne_nil (p.pieces_ne_nil)
  rw [hsplit] at hslash hcomponents
  obtain ⟨kept, idle, rfl, -, htrim, hlast⟩ := exists_trimPieces_cons first rest
  rw [htrim] at hcomponents
  rcases kept.eq_nil_or_concat' with rfl | ⟨before, last, rfl⟩
  · -- a single piece has the empty path for its parent
    rw [parent?, hsplit, htrim] at h
    cases first with
    | nil => cases h
    | cons c piece =>
      cases h
      obtain ⟨step, hroot, hstep⟩ := @exists_ofPieces_singleton (c :: piece) (by simp)
      exact ⟨step, hroot, (hcomponents (by simp)).trans hstep⟩
  · rw [parent?_of_trimPieces (by simp) (hsplit ▸ htrim), ← List.cons_append,
      List.dropLast_concat] at h
    obtain ⟨c, hc, hroot⟩ := exists_ofPiece?_of_not_isIdle (hlast before last rfl)
    have hbefore : ∀ piece ∈ first :: before, slash ∉ piece := fun piece hpiece =>
      hslash piece (List.mem_append_left idle (List.mem_append_left [last] hpiece))
    refine ⟨c, hroot, ?_⟩
    rw [hcomponents (by simp), ← List.cons_append, ofPieces_concat (by simp) hbefore,
      List.filterMap_cons_some hc, Option.some.inj h]
    rfl

/-- Only the top and the empty path have no parent. -/
theorem components_of_parent?_eq_none (h : p.parent? = none) :
    p.components = [] ∨ p.components = [root] := by
  obtain ⟨first, rest, hsplit⟩ := List.exists_cons_of_ne_nil (p.pieces_ne_nil)
  obtain ⟨kept, idle, rfl, hidle, htrim, -⟩ := exists_trimPieces_cons first rest
  rcases eq_or_ne kept [] with rfl | hkept
  · rw [parent?, hsplit, htrim] at h
    cases first with
    | cons c piece => cases h
    | nil =>
      rw [components, hsplit]
      rcases eq_or_ne idle [] with rfl | hne
      · exact .inl rfl
      · right
        rw [List.nil_append, ofPieces_nil_cons hne, List.filterMap_eq_nil_iff.2 fun piece hpiece =>
          ofPiece?_of_isIdle (hidle piece hpiece)]
  · rw [parent?_of_trimPieces hkept (hsplit ▸ htrim)] at h
    cases h

/-! ## At or above -/

/-- Whether a path starts at the top shows in its components. -/
theorem isAbsolute_iff : p.isAbsolute ↔ p.components.head? = some root := by
  constructor
  · exact head?_components_of_isAbsolute
  · intro h
    rw [components] at h
    obtain ⟨first, rest, hsplit⟩ := List.exists_cons_of_ne_nil p.pieces_ne_nil
    rcases eq_or_ne first [] with rfl | hempty
    · -- only a slash leaves an empty first piece in front of others
      cases rest with
      | nil =>
        rw [hsplit] at h
        cases h
      | cons next more =>
        rw [isAbsolute, ← p.intercalate_pieces, hsplit, List.intercalate_cons_cons]
        rfl
    have hslash := p.slash_notMem_of_mem_pieces
    rw [hsplit] at h hslash
    rcases eq_or_ne first [dot] with rfl | hdot
    · cases h
    · rw [ofPieces_cons_of_ne rest hempty hdot] at h
      exact absurd (isInner_of_mem_filterMap hslash root (List.mem_of_mem_head? h)) id

/-- The directories at or above a path: their components come first in those of the path, and they
start at the top if the path does. -/
structure IsAtOrAbove (dir p : FilePath) : Prop where
  initial : dir.components <+: p.components
  isAbsolute_eq : dir.isAbsolute = p.isAbsolute

theorem isAbsolute_congr (h : p.components = q.components) : p.isAbsolute = q.isAbsolute := by
  rw [Bool.eq_iff_iff, isAbsolute_iff, isAbsolute_iff, h]

theorem isAtOrAbove_of_components (h : dir.components = p.components) : dir.IsAtOrAbove p :=
  ⟨h ▸ List.prefix_rfl, isAbsolute_congr h⟩

/-- Nothing is above a path without a parent. -/
theorem IsAtOrAbove.components_eq (h : dir.IsAtOrAbove p) (hp : p.parent? = none) :
    dir.components = p.components := by
  obtain ⟨hinitial, habs⟩ := h
  rcases components_of_parent?_eq_none hp with hnil | hroot
  · rw [hnil] at hinitial ⊢
    exact List.prefix_nil.1 hinitial
  · have hdir : dir.isAbsolute := by
      rw [habs, isAbsolute_iff, hroot]
      rfl
    obtain ⟨inner, -, hcomponents⟩ := components_of_isAbsolute hdir
    rw [hroot, hcomponents] at hinitial ⊢
    rw [List.prefix_nil.1 (List.cons_prefix_cons.1 hinitial).2]

/-- **What is at or above a path** is the path itself or at or above its parent. -/
theorem isAtOrAbove_iff_of_parent? (h : p.parent? = some q) :
    dir.IsAtOrAbove p ↔ dir.components = p.components ∨ dir.IsAtOrAbove q := by
  obtain ⟨c, hc, hp⟩ := exists_components_of_parent? h
  have habs : q.isAbsolute = p.isAbsolute := by
    rw [Bool.eq_iff_iff, isAbsolute_iff, isAbsolute_iff, hp]
    cases q.components with
    | nil => simpa using hc
    | cons first rest => rfl
  constructor
  · rintro ⟨hinitial, hdir⟩
    rw [hp, List.prefix_concat_iff] at hinitial
    rcases hinitial with hsame | hinitial
    · exact .inl (hsame.trans hp.symm)
    · exact .inr ⟨hinitial, hdir.trans habs.symm⟩
  · rintro (hsame | ⟨hinitial, hdir⟩)
    · exact isAtOrAbove_of_components hsame
    · exact ⟨hp ▸ hinitial.trans (List.prefix_append _ _), hdir.trans habs⟩

end RemoteImports.FilePath
