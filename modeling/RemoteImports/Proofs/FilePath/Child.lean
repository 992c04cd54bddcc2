import RemoteImports.Proofs.FilePath.Components

/-!
# Paths of entries

However the path of a directory is written, empty, with a slash at its end, or without one, the path
of an entry has one more piece between its slashes (`exists_pieces_child`). So an entry has the
components of its directory and its own name after them (`components_child`).
-/

namespace RemoteImports.FilePath

open Component
open OsString (slash dot)

/-! ## Pieces at the end -/

theorem ofPieces_nil_cons {rest : List (List UInt8)} (h : rest ≠ []) :
    ofPieces ([] :: rest) = root :: rest.filterMap ofPiece? := by
  obtain ⟨next, more, rfl⟩ := List.exists_cons_of_ne_nil h
  rfl

theorem ofPieces_dot_cons (rest : List (List UInt8)) :
    ofPieces ([dot] :: rest) = here :: rest.filterMap ofPiece? := rfl

theorem ofPieces_cons_of_ne {first : List UInt8} (rest : List (List UInt8)) (hempty : first ≠ [])
    (hdot : first ≠ [dot]) : ofPieces (first :: rest) = (first :: rest).filterMap ofPiece? := by
  rw [ofPieces]
  · intro next more he
    exact hempty (List.cons.inj he).1
  · intro more he
    exact hdot (List.cons.inj he).1

/-- More pieces at the end of a path are read on their own. Only the empty path becomes another one
by a slash at its end. -/
theorem exists_ofPieces_append {pieces : List (List UInt8)} (h : pieces ≠ []) :
    ∃ start, (∀ more, more ≠ [] → ofPieces (pieces ++ more) = start ++ more.filterMap ofPiece?) ∧
      (pieces ≠ [[]] → ofPieces pieces = start) := by
  obtain ⟨first, rest, rfl⟩ := List.exists_cons_of_ne_nil h
  rcases eq_or_ne first [] with rfl | hempty
  · refine ⟨root :: rest.filterMap ofPiece?, fun more hmore => ?_, fun hne => ?_⟩
    · rw [List.cons_append, ofPieces_nil_cons (by simp [hmore]), List.filterMap_append,
        List.cons_append]
    · exact ofPieces_nil_cons (by simpa using hne)
  rcases eq_or_ne first [dot] with rfl | hdot
  · refine ⟨here :: rest.filterMap ofPiece?, fun more _ => ?_, fun _ => rfl⟩
    rw [List.cons_append, ofPieces_dot_cons, List.filterMap_append, List.cons_append]
  · refine ⟨(first :: rest).filterMap ofPiece?, fun more _ => ?_, fun _ => ?_⟩
    · rw [List.cons_append, ofPieces_cons_of_ne _ hempty hdot, ← List.cons_append,
        List.filterMap_append]
    · exact ofPieces_cons_of_ne rest hempty hdot

/-! ## Entries -/

/-- The path of an entry is that of its directory and its own name, with a slash between them where
one is needed. -/
theorem exists_bytes_child (dir : FilePath) {s : OsString} (hs : IsEntryName s) :
    ∃ before, (dir.child s).bytes = before ++ s.bytes ∧
      (before = dir.bytes ∧ (before = [] ∨ before.getLast? = some slash) ∨
        dir.bytes ≠ [] ∧ before = dir.bytes ++ [slash]) := by
  have hrelative : isAbsolute ⟨s⟩ = false := by
    rw [← Bool.not_eq_true, isAbsolute, decide_eq_true_eq]
    intro hhead
    exact hs.slash_notMem (List.mem_of_mem_head? hhead)
  rw [child, join, hrelative, if_neg Bool.false_ne_true]
  by_cases hend : dir.bytes = [] ∨ dir.bytes.getLast? = some slash
  · rw [if_pos hend]
    exact ⟨dir.bytes, rfl, .inl ⟨rfl, hend⟩⟩
  · rw [if_neg hend]
    exact ⟨dir.bytes ++ [slash], rfl, .inr ⟨(not_or.1 hend).1, rfl⟩⟩

/-- The pieces of an entry are those of its directory and its own name. An empty piece at the end of
the directory makes way for it. -/
theorem exists_pieces_child (dir : FilePath) {s : OsString} (hs : IsEntryName s) :
    ∃ before, (dir.child s).pieces = before ++ [s.bytes] ∧
      (dir.pieces = before ∧ before ≠ [[]] ∨ dir.pieces = before ++ [[]]) := by
  have hsplit : s.bytes.splitOn slash = [s.bytes] := List.splitOn_eq_singleton hs.slash_notMem
  obtain ⟨before, hchild, ⟨hdir, hnil | hslash⟩ | ⟨hne, hbefore⟩⟩ := exists_bytes_child dir hs
  · refine ⟨[], ?_, .inr ?_⟩
    · rw [pieces, hchild, hnil, List.nil_append, hsplit, List.nil_append]
    · rw [pieces, ← hdir, hnil]
      rfl
  · obtain ⟨start, hstart⟩ := List.getLast?_eq_some_iff.1 hslash
    refine ⟨start.splitOn slash, ?_, .inr ?_⟩
    · rw [pieces, hchild, hstart, List.append_assoc, List.singleton_append,
        List.splitOn_append_cons_self, hsplit]
    · rw [pieces, ← hdir, hstart, List.splitOn_append_cons_self]
      rfl
  · refine ⟨dir.pieces, ?_, .inl ⟨rfl, fun he => hne ?_⟩⟩
    · rw [pieces, hchild, hbefore, List.append_assoc, List.singleton_append,
        List.splitOn_append_cons_self, hsplit, pieces]
    · rw [← dir.intercalate_pieces, he]
      rfl

/-- **The components of an entry** of a directory. -/
theorem components_child (dir : FilePath) {s : OsString} (hs : IsEntryName s) :
    (dir.child s).components = dir.components ++ [name s] := by
  have hpiece : ofPiece? s.bytes = some (name s) := ofPiece?_written (c := name s) hs
  obtain ⟨before, hchild, ⟨hdir, hne⟩ | hdir⟩ := exists_pieces_child dir hs
  · have hbefore : before ≠ [] := hdir ▸ dir.pieces_ne_nil
    obtain ⟨start, hstart, hself⟩ := exists_ofPieces_append hbefore
    rw [components, hchild, hstart _ (by simp), List.filterMap_cons_some hpiece, components, hdir,
      hself hne]
    rfl
  rcases eq_or_ne before [] with rfl | hbefore
  · -- the directory is the empty path
    rw [components, hchild, components, hdir, List.nil_append,
      ofPieces_cons_of_ne [] hs.ne_empty hs.ne_dot,
      List.filterMap_cons_some hpiece]
    rfl
  · obtain ⟨start, hstart, -⟩ := exists_ofPieces_append hbefore
    rw [components, hchild, hstart _ (by simp), List.filterMap_cons_some hpiece, components, hdir,
      hstart _ (by simp)]
    simp [ofPiece?]

end RemoteImports.FilePath
