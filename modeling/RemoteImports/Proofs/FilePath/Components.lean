import Mathlib.Data.List.Basic
import Mathlib.Tactic.SplitIfs
import RemoteImports.FilePath
import RemoteImports.Proofs.OsString

/-!
# Components of a path

A path starts at the top, with a dot, or with neither; everything after that is a step to the parent
or an entry name (`components_shape`). A list of such steps is read back from the path it
is written as (`components_ofComponents`), so paths can be reasoned about as lists of components.
-/

namespace RemoteImports.FilePath

open Component
open OsString (slash dot)

/-- Bytes that an entry of a directory can be named by. -/
structure IsEntryName (s : OsString) : Prop where
  ne_empty : s.bytes ≠ []
  ne_dot : s.bytes ≠ [dot]
  ne_dots : s.bytes ≠ [dot, dot]
  slash_notMem : slash ∉ s.bytes

instance (s : OsString) : Decidable (IsEntryName s) :=
  decidable_of_iff (s.bytes ≠ [] ∧ s.bytes ≠ [dot] ∧ s.bytes ≠ [dot, dot] ∧ slash ∉ s.bytes)
    ⟨fun ⟨hempty, hdot, hdots, hslash⟩ => ⟨hempty, hdot, hdots, hslash⟩,
      fun h => ⟨h.ne_empty, h.ne_dot, h.ne_dots, h.slash_notMem⟩⟩

/-- A step that can stand anywhere in a path: to the parent, or to a named entry. -/
def Component.IsInner : Component → Prop
  | up => True
  | name s => IsEntryName s
  | _ => False

theorem isInner_up : IsInner up := trivial

/-! ## Pieces and components -/

theorem pieces_ne_nil (p : FilePath) : p.pieces ≠ [] := List.splitOn_ne_nil slash p.bytes

theorem slash_notMem_of_mem_pieces {p : FilePath} : ∀ piece ∈ p.pieces, slash ∉ piece :=
  fun _ => Text.not_mem_of_mem_splitOn

theorem intercalate_pieces (p : FilePath) : [slash].intercalate p.pieces = p.bytes :=
  List.intercalate_splitOn slash

theorem isInner_of_ofPiece? {piece : List UInt8} {c : Component} (hslash : slash ∉ piece)
    (h : ofPiece? piece = some c) : IsInner c := by
  unfold ofPiece? at h
  split_ifs at h with hidle hdots
  · obtain rfl : up = c := by simpa using h
    exact isInner_up
  · obtain rfl : name ⟨piece⟩ = c := by simpa using h
    obtain ⟨hempty, hdot⟩ := not_or.1 hidle
    exact ⟨hempty, hdot, hdots, hslash⟩

theorem bytes_written_ne_nil {c : Component} (h : IsInner c) : c.written.bytes ≠ [] := by
  match c, h with
  | up, _ => decide
  | name s, h => exact h.ne_empty

theorem bytes_written_ne_dot {c : Component} (h : IsInner c) : c.written.bytes ≠ [dot] := by
  match c, h with
  | up, _ => decide
  | name s, h => exact h.ne_dot

/-- A step is written as the piece that stands for the step. -/
theorem ofPiece?_written {c : Component} (h : IsInner c) : ofPiece? c.written.bytes = some c := by
  rw [ofPiece?, if_neg (not_or.2 ⟨bytes_written_ne_nil h, bytes_written_ne_dot h⟩)]
  match c, h with
  | up, _ => rfl
  | name s, h => exact if_neg h.ne_dots

theorem slash_notMem_written {c : Component} (h : IsInner c) : slash ∉ c.written.bytes := by
  match c, h with
  | up, _ => decide
  | name s, h => exact h.slash_notMem

theorem splitOn_join_written {steps : List Component} (hne : steps ≠ [])
    (h : ∀ c ∈ steps, IsInner c) :
    (OsString.join (steps.map written)).bytes.splitOn slash = steps.map (·.written.bytes) := by
  rw [OsString.splitOn_bytes_join (by simpa using hne), List.map_map]
  · rfl
  · intro s hs
    obtain ⟨c, hc, rfl⟩ := List.mem_map.1 hs
    exact slash_notMem_written (h c hc)

theorem filterMap_ofPiece?_written {steps : List Component} (h : ∀ c ∈ steps, IsInner c) :
    (steps.map (·.written.bytes)).filterMap ofPiece? = steps := by
  induction steps with
  | nil => rfl
  | cons c rest ih =>
    rw [List.map_cons, List.filterMap_cons_some (ofPiece?_written (h c (by simp))),
      ih fun d hd => h d (by simp [hd])]

/-! ## The shape of a list of components -/

theorem isInner_of_mem_filterMap {pieces : List (List UInt8)}
    (h : ∀ piece ∈ pieces, slash ∉ piece) :
    ∀ c ∈ pieces.filterMap ofPiece?, IsInner c := by
  intro c hc
  obtain ⟨piece, hpiece, hof⟩ := List.mem_filterMap.1 hc
  exact isInner_of_ofPiece? (h piece hpiece) hof

/-- What comes first in a list of components. -/
def IsStart (start : List Component) : Prop := start = [root] ∨ start = [here] ∨ start = []

/-- **The shape of a path**: after its start there are only steps to a parent and named entries. -/
theorem components_shape (p : FilePath) :
    ∃ start inner, IsStart start ∧ (∀ c ∈ inner, IsInner c) ∧ p.components = start ++ inner := by
  have hslash := p.slash_notMem_of_mem_pieces
  unfold components
  generalize p.pieces = pieces at hslash
  unfold ofPieces
  split
  · rename_i rest
    exact ⟨[root], _, .inl rfl, isInner_of_mem_filterMap fun piece h => hslash piece (by simp_all),
      rfl⟩
  · rename_i rest
    exact ⟨[here], _, .inr (.inl rfl),
      isInner_of_mem_filterMap fun piece h => hslash piece (by simp_all), rfl⟩
  · exact ⟨[], _, .inr (.inr rfl), isInner_of_mem_filterMap hslash, rfl⟩

theorem components_of_isAbsolute {p : FilePath} (h : p.isAbsolute) :
    ∃ inner, (∀ c ∈ inner, IsInner c) ∧ p.components = root :: inner := by
  obtain ⟨rest, hrest⟩ : ∃ rest, p.bytes = slash :: rest := by
    simpa [isAbsolute, List.head?_eq_some_iff] using h
  obtain ⟨piece, pieces, hpieces⟩ := List.exists_cons_of_ne_nil (List.splitOn_ne_nil slash rest)
  refine ⟨(rest.splitOn slash).filterMap ofPiece?,
    isInner_of_mem_filterMap fun _ => Text.not_mem_of_mem_splitOn, ?_⟩
  rw [components, FilePath.pieces, hrest, Text.splitOn_cons_self, hpieces]
  rfl

theorem head?_components_of_isAbsolute {p : FilePath} (h : p.isAbsolute) :
    p.components.head? = some root := by
  obtain ⟨inner, -, hp⟩ := components_of_isAbsolute h
  rw [hp]
  rfl

/-! ## Reading components back -/

/-- The components of an absolute path made of steps are these steps. -/
theorem components_ofComponents_root {steps : List Component} (h : ∀ c ∈ steps, IsInner c) :
    (ofComponents (root :: steps)).components = root :: steps := by
  have hpieces : (ofComponents (root :: steps)).pieces =
      [] :: (OsString.join (steps.map written)).bytes.splitOn slash :=
    Text.splitOn_cons_self slash _
  rw [components, hpieces]
  rcases eq_or_ne steps [] with rfl | hne
  · rfl
  · rw [splitOn_join_written hne h]
    obtain ⟨c, rest, rfl⟩ := List.exists_cons_of_ne_nil hne
    exact congrArg (root :: ·) (filterMap_ofPiece?_written h)

theorem ofComponents_of_inner {steps : List Component} (h : ∀ c ∈ steps, IsInner c) :
    ofComponents steps = ⟨OsString.join (steps.map written)⟩ := by
  unfold ofComponents
  split
  · exact absurd (h root (by simp)) id
  · rfl

/-- The components of a relative path made of steps are these steps. -/
theorem components_ofComponents {steps : List Component} (h : ∀ c ∈ steps, IsInner c) :
    (ofComponents steps).components = steps := by
  rcases steps with _ | ⟨c, rest⟩
  · rfl
  · have hc : IsInner c := h c (by simp)
    rw [components, pieces, ofComponents_of_inner h, splitOn_join_written (by simp) h, ofPieces,
      filterMap_ofPiece?_written h]
    · intro piece pieces he
      exact bytes_written_ne_nil hc (List.cons.inj he).1
    · intro pieces he
      exact bytes_written_ne_dot hc (List.cons.inj he).1

end RemoteImports.FilePath
