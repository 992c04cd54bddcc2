import Mathlib.Data.List.DropRight
import RemoteImports.Text.Split

/-!
# Trimmed texts

A text is trimmed if it has no blank at its ends. Trimming takes nothing but blanks away
(`exists_eq_append_trimChars`), what it leaves is trimmed (`isTrimmed_trimChars`), and exactly the
trimmed texts stay as they are (`trimChars_eq_self_iff`).
-/

namespace RemoteImports.Text

/-- No blank is at an end of a text. -/
structure IsTrimmed (text : List Char) : Prop where
  head : ∀ c ∈ text.head?, ¬ isBlank c
  last : ∀ c ∈ text.getLast?, ¬ isBlank c

variable {text rest : List Char} {c : Char}

/-! ## Ends of lists -/

theorem rdropWhile_append_of_exists {α : Type} {p : α → Bool} (xs : List α) {ys : List α}
    (h : ∃ y ∈ ys, ¬ p y) : (xs ++ ys).rdropWhile p = xs ++ ys.rdropWhile p := by
  obtain ⟨y, hy, hp⟩ := h
  have hkept : ¬ (ys.reverse.dropWhile p).isEmpty := by
    rw [List.isEmpty_iff, List.dropWhile_eq_nil_iff]
    exact fun hall => hp (hall y (List.mem_reverse.2 hy))
  rw [List.rdropWhile, List.reverse_append, List.dropWhile_append, if_neg hkept,
    List.reverse_append, List.reverse_reverse, List.rdropWhile]

theorem not_isBlank_of_head?_dropWhile (h : c ∈ (text.dropWhile isBlank).head?) :
    ¬ isBlank c := by
  have hhead := List.head?_dropWhile_not isBlank text
  rw [Option.mem_def.1 h] at hhead
  simp [hhead]

/-- A text that starts with a blank and does not end in one goes on after the blank. -/
theorem exists_not_isBlank_of_getLast? (h : ∀ d ∈ (c :: rest).getLast?, ¬ isBlank d)
    (hc : isBlank c) : ∃ d ∈ rest, ¬ isBlank d := by
  cases hlast : rest.getLast? with
  | none =>
    rw [List.getLast?_eq_none_iff] at hlast
    subst hlast
    exact absurd hc (h c rfl)
  | some d =>
    refine ⟨d, List.mem_of_getLast? hlast, h d ?_⟩
    rw [List.getLast?_cons, hlast]
    rfl

/-! ## Trimming -/

theorem trimChars_eq (text : List Char) :
    trimChars text = (text.dropWhile isBlank).rdropWhile isBlank := rfl

/-- Trimming takes nothing but blanks away. -/
theorem exists_eq_append_trimChars (text : List Char) :
    ∃ before after, text = before ++ (trimChars text ++ after) ∧
      (∀ c ∈ before, isBlank c) ∧ ∀ c ∈ after, isBlank c := by
  refine ⟨text.takeWhile isBlank, (text.dropWhile isBlank).rtakeWhile isBlank, ?_,
    fun _ => List.mem_takeWhile_imp, fun _ => List.mem_rtakeWhile_imp⟩
  rw [trimChars_eq, List.rdropWhile_append_rtakeWhile, List.takeWhile_append_dropWhile]

theorem trimChars_sublist (text : List Char) : (trimChars text).Sublist text :=
  (List.rdropWhile_prefix isBlank _).sublist.trans (List.dropWhile_sublist isBlank)

theorem isTrimmed_trimChars (text : List Char) : IsTrimmed (trimChars text) := by
  constructor
  · intro c hc
    -- trimming at the end leaves the first character where it is
    obtain ⟨after, hafter⟩ := List.rdropWhile_prefix isBlank (text.dropWhile isBlank)
    rw [trimChars_eq, Option.mem_def] at hc
    have hhead : c ∈ (text.dropWhile isBlank).head? := by
      rw [← hafter, List.head?_append, hc, Option.some_or, Option.mem_some]
    exact not_isBlank_of_head?_dropWhile hhead
  · intro c hc
    rw [trimChars, List.getLast?_reverse] at hc
    exact not_isBlank_of_head?_dropWhile hc

/-- Exactly the trimmed texts stay as they are. -/
theorem trimChars_eq_self_iff : trimChars text = text ↔ IsTrimmed text := by
  constructor
  · intro h
    exact h ▸ isTrimmed_trimChars text
  · intro h
    cases text with
    | nil => rfl
    | cons c rest =>
      rw [trimChars_eq, List.dropWhile_cons_of_neg (h.head c rfl), List.rdropWhile_eq_self_iff]
      exact fun hne => h.last _ (List.getLast?_eq_getLast_of_ne_nil hne)

theorem trimChars_trimChars (text : List Char) : trimChars (trimChars text) = trimChars text :=
  trimChars_eq_self_iff.2 (isTrimmed_trimChars text)

end RemoteImports.Text
