import RemoteImports.Text.Split

/-!
# Pieces of a text

What cutting a list at a separator says about its members, beside the facts of the list library, and
how cutting undoes the joining of texts (`splitOn_toList_intercalate`).
-/

namespace RemoteImports.Text

/-! ## Lists -/

section Lists

variable {α : Type} {sep : α}

theorem mem_intercalate {pieces : List (List α)} {a : α} (h : a ∈ [sep].intercalate pieces) :
    a = sep ∨ ∃ piece ∈ pieces, a ∈ piece := by
  induction pieces with
  | nil => exact absurd h List.not_mem_nil
  | cons piece pieces ih =>
    cases pieces with
    | nil => exact .inr ⟨piece, List.mem_singleton_self piece, by simpa using h⟩
    | cons next pieces =>
      rw [List.intercalate_cons_cons, List.mem_append, List.mem_append, List.mem_singleton] at h
      rcases h with (h | rfl) | h
      · exact .inr ⟨piece, List.mem_cons_self, h⟩
      · exact .inl rfl
      · rcases ih h with rfl | ⟨other, hother, ha⟩
        · exact .inl rfl
        · exact .inr ⟨other, List.mem_cons_of_mem _ hother, ha⟩

theorem mem_intercalate_of_mem {pieces : List (List α)} {piece : List α} {a : α}
    (h : piece ∈ pieces) (ha : a ∈ piece) : a ∈ [sep].intercalate pieces := by
  induction pieces with
  | nil => cases h
  | cons first pieces ih =>
    cases pieces with
    | nil =>
      obtain rfl := List.mem_singleton.1 h
      simpa using ha
    | cons next pieces =>
      rw [List.intercalate_cons_cons, List.mem_append]
      rcases List.mem_cons.1 h with rfl | h
      · exact .inl (List.mem_append_left _ ha)
      · exact .inr (ih h)

variable [DecidableEq α]

/-- Cutting takes nothing out of a list but the separator. -/
theorem exists_mem_splitOn_iff {list : List α} {a : α} (ha : a ≠ sep) :
    (∃ piece ∈ list.splitOn sep, a ∈ piece) ↔ a ∈ list := by
  constructor
  · rintro ⟨piece, hpiece, hmem⟩
    rw [← @List.intercalate_splitOn α list]
    exact mem_intercalate_of_mem hpiece hmem
  · intro h
    rw [← @List.intercalate_splitOn α list] at h
    exact (mem_intercalate h).resolve_left ha

theorem splitOn_cons_self (sep : α) (rest : List α) :
    (sep :: rest).splitOn sep = [] :: rest.splitOn sep :=
  List.splitOn_append_cons_self [] rest

theorem not_mem_of_mem_splitOn {list piece : List α} (h : piece ∈ list.splitOn sep) :
    sep ∉ piece := by
  induction list generalizing piece with
  | nil =>
    obtain rfl : piece = [] := by simpa using h
    exact List.not_mem_nil
  | cons a rest ih =>
    rw [List.splitOn_cons_eq_if_modifyHead] at h
    split at h
    · rcases List.mem_cons.1 h with rfl | h
      · exact List.not_mem_nil
      · exact ih h
    case isFalse ha =>
      obtain ⟨first, pieces, hrest⟩ := List.exists_cons_of_ne_nil (List.splitOn_ne_nil sep rest)
      simp only [hrest, List.modifyHead_cons, List.mem_cons] at h ih
      rcases h with rfl | h
      · rw [List.mem_cons]
        rintro (rfl | hsep)
        · exact ha (beq_self_eq_true _)
        · exact ih (.inl rfl) hsep
      · exact ih (.inr h)

end Lists

/-! ## Texts -/

/-- Cutting a joined text at its separator gives back texts without it. -/
theorem splitOn_toList_intercalate {sep : String} {c : Char} (hsep : sep.toList = [c])
    {texts : List String} (hne : texts ≠ []) (h : ∀ text ∈ texts, c ∉ text.toList) :
    (sep.intercalate texts).toList.splitOn c = texts.map String.toList := by
  rw [String.toList_intercalate, hsep]
  refine List.splitOn_intercalate c (fun piece hpiece => ?_) (by simpa using hne)
  obtain ⟨text, ht, rfl⟩ := List.mem_map.1 hpiece
  exact h text ht

end RemoteImports.Text
