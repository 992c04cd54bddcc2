import Mathlib.Data.List.Infix
import RemoteImports.Module.Exposure

/-!
# Where the tag stands

A comment is searched for the tag at every place (`carriesTag_iff`), and only what follows the tag
is looked at. So a comment marks a function if the tag stands in it as a word of its own, and also
if the tag ends a longer word, like the address `admin@expose.io`
(`marks_iff_standsAlone_or_endsWord`).
-/

namespace RemoteImports.Exposure

variable {text : List Char} {fits : List Char → List Char → Prop}

/-- The tag occurs in a text, at a place where what is before it and what is after it fit. -/
def Occurs (fits : List Char → List Char → Prop) (text : List Char) : Prop :=
  ∃ before after, text = before ++ tag ++ after ∧ fits before after

/-- A text ends in a word. -/
def EndsInWord (before : List Char) : Prop := before.getLast?.any isWordChar

/-- A text starts in a word. -/
def StartsInWord (after : List Char) : Prop := after.head?.any isWordChar

/-- The tag stands in a comment as a word of its own. -/
def StandsAlone (comment : String) : Prop :=
  Occurs (fun before after => ¬ EndsInWord before ∧ ¬ StartsInWord after) comment.toList

/-- The tag stands in a comment at the end of a longer word. -/
def EndsWord (comment : String) : Prop :=
  Occurs (fun before after => EndsInWord before ∧ ¬ StartsInWord after) comment.toList

/-! ## Occurrences -/

/-- An occurrence is at the start of a text or after its first character. -/
theorem occurs_cons_iff {c : Char} :
    Occurs fits (c :: text) ↔
      (∃ after, c :: text = tag ++ after ∧ fits [] after) ∨
        Occurs (fun before => fits (c :: before)) text := by
  constructor
  · rintro ⟨before, after, htext, hfits⟩
    cases before with
    | nil => exact .inl ⟨after, htext, hfits⟩
    | cons d before =>
      obtain ⟨rfl, rfl⟩ := List.cons.inj htext
      exact .inr ⟨before, after, rfl, hfits⟩
  · rintro (⟨after, htext, hfits⟩ | ⟨before, after, rfl, hfits⟩)
    · exact ⟨[], after, htext, hfits⟩
    · exact ⟨c :: before, after, rfl, hfits⟩

theorem not_occurs_nil : ¬ Occurs fits [] := by
  rintro ⟨before, after, htext, -⟩
  have hstart : before ++ tag = [] := (List.append_eq_nil_iff.1 htext.symm).1
  exact absurd (List.append_eq_nil_iff.1 hstart).2 (by decide)

instance decidableOccurs [∀ before after, Decidable (fits before after)] (text : List Char) :
    Decidable (Occurs fits text) :=
  decidable_of_iff (∃ i ∈ List.range (text.length + 1), tag <+: text.drop i ∧
    fits (text.take i) (text.drop (i + tag.length))) <| by
  constructor
  · rintro ⟨i, -, ⟨after, hafter⟩, hfits⟩
    refine ⟨text.take i, after, ?_, ?_⟩
    · rw [List.append_assoc, hafter, List.take_append_drop]
    · rwa [← List.drop_drop, ← hafter, List.drop_left] at hfits
  · rintro ⟨before, after, rfl, hfits⟩
    refine ⟨before.length, List.mem_range.2 ?_, ?_, ?_⟩
    · simp only [List.length_append]
      omega
    · simp
    · simpa [← List.drop_drop] using hfits

instance (before : List Char) : Decidable (EndsInWord before) :=
  inferInstanceAs (Decidable (_ = true))

instance (after : List Char) : Decidable (StartsInWord after) :=
  inferInstanceAs (Decidable (_ = true))

instance (comment : String) : Decidable (StandsAlone comment) :=
  inferInstanceAs (Decidable (Occurs _ _))

/-! ## The search -/

theorem afterTag?_eq_some_iff {after : List Char} :
    afterTag? text = some after ↔ text = tag ++ after := by
  unfold afterTag?
  split
  · rename_i hprefix
    obtain ⟨rest, rfl⟩ := List.isPrefixOf_iff_prefix.1 hprefix
    rw [List.drop_left, Option.some.injEq, List.append_cancel_left_eq]
  · rename_i hprefix
    refine iff_of_false (by simp) ?_
    rintro rfl
    exact hprefix (List.isPrefixOf_iff_prefix.2 (List.prefix_append tag after))

theorem startsWithTag_iff :
    startsWithTag text ↔ ∃ after, text = tag ++ after ∧ ¬ StartsInWord after := by
  simp only [← afterTag?_eq_some_iff]
  unfold startsWithTag
  split
  · rename_i hnone
    simp [hnone]
  · rename_i rest hsome
    simp [hsome, StartsInWord]

/-- **Every place of a comment is looked at**, and what follows the tag decides. -/
theorem carriesTag_iff :
    carriesTag text ↔ Occurs (fun _ after => ¬ StartsInWord after) text := by
  induction text with
  | nil => simp [carriesTag, not_occurs_nil]
  | cons c rest ih => rw [carriesTag, Bool.or_eq_true, occurs_cons_iff, ih, startsWithTag_iff]

/-! ## Marks -/

/-- **A comment marks a function** exactly if the tag stands in it as a word of its own or at the
end of a longer word. -/
theorem marks_iff_standsAlone_or_endsWord (comment : String) :
    marks comment ↔ StandsAlone comment ∨ EndsWord comment := by
  rw [marks, carriesTag_iff]
  constructor
  · rintro ⟨before, after, htext, hafter⟩
    by_cases hbefore : EndsInWord before
    · exact .inr ⟨before, after, htext, hbefore, hafter⟩
    · exact .inl ⟨before, after, htext, hbefore, hafter⟩
  · rintro (⟨before, after, htext, -, hafter⟩ | ⟨before, after, htext, -, hafter⟩)
    · exact ⟨before, after, htext, hafter⟩
    · exact ⟨before, after, htext, hafter⟩

/-- An address that ends in the tag marks a function, although the tag is no word of its own
there. -/
theorem address_marks :
    marks "// write to admin@expose.io" ∧ ¬ StandsAlone "// write to admin@expose.io" := by
  decide +kernel

end RemoteImports.Exposure
