import Mathlib.Data.List.Induction
import Mathlib.Data.List.Nodup
import Mathlib.Data.List.Perm.Subperm
import Mathlib.Data.List.TakeWhile
import Mathlib.Data.String.Basic
import RemoteImports.Proofs.Config.Layers

/-!
# Sections of the tracked settings

However sources are set, the keys are in strict order and each has its latest source
(`mem_ofSets_iff`). The sections are read off the keys in this order, and only neighbours are
joined. That is right as long as the sections inherit the order of the keys, which they do unless a
character below the dot is involved: a key such as `project-local.root` is before `project.root`,
but its section is after (`overtakes_iff`). So the sections are in strict order exactly if no key
overtakes another one, and they are listed once, with each entry in one of them, exactly if no key
overtakes another one whose section is a key, too (`sections_exact`).
-/

namespace RemoteImports

namespace Provenance

/-- The sources after some of them are set in a row. -/
def ofSets (steps : List (String × Source)) : Provenance :=
  steps.foldl (fun p step => p.set step.1 step.2) empty

/-- The tracked keys. -/
def keys (p : Provenance) : List String := p.entries.map Prod.fst

/-- The entries are in the strict order of their keys. -/
def IsOrdered (entries : List (String × Source)) : Prop := entries.Pairwise fun a b => a.1 < b.1

variable {key other : String} {source : Source} {entries : List (String × Source)}
  {entry : String × Source} {p : Provenance}

/-! ## Setting sources -/

theorem mem_setEntry (h : entry ∈ setEntry key source entries) :
    entry = (key, source) ∨ entry ∈ entries := by
  induction entries with
  | nil => exact .inl (List.mem_singleton.1 h)
  | cons first rest ih =>
    obtain ⟨other, s⟩ := first
    rw [setEntry] at h
    split at h
    · exact List.mem_cons.1 h
    split at h
    · exact (List.mem_cons.1 h).imp_right (List.mem_cons_of_mem _)
    · rcases List.mem_cons.1 h with h | h
      · exact .inr (h ▸ List.mem_cons_self)
      · exact (ih h).imp_right (List.mem_cons_of_mem _)

/-- Setting a source keeps the order of the keys. -/
theorem IsOrdered.setEntry (h : IsOrdered entries) (key : String) (source : Source) :
    IsOrdered (setEntry key source entries) := by
  induction entries with
  | nil => exact List.pairwise_singleton _ _
  | cons first rest ih =>
    obtain ⟨other, s⟩ := first
    obtain ⟨hfirst, hrest⟩ := List.pairwise_cons.1 h
    rw [Provenance.setEntry]
    split
    · rename_i hlt
      refine List.pairwise_cons.2 ⟨fun e he => ?_, h⟩
      rcases List.mem_cons.1 he with rfl | he
      · exact hlt
      · exact lt_trans hlt (hfirst e he)
    split
    · rename_i heq
      exact List.pairwise_cons.2 ⟨fun e he => heq ▸ hfirst e he, hrest⟩
    · rename_i hnot hne
      refine List.pairwise_cons.2 ⟨fun e he => ?_, ih hrest⟩
      rcases mem_setEntry he with rfl | he
      · exact lt_of_le_of_ne (not_lt.1 hnot) (Ne.symm hne)
      · exact hfirst e he

theorem ofSets_concat (steps : List (String × Source)) (step : String × Source) :
    ofSets (steps ++ [step]) = (ofSets steps).set step.1 step.2 := by
  rw [ofSets, List.foldl_append]
  rfl

/-- **The keys are in strict order**, whatever is set. -/
theorem isOrdered_ofSets (steps : List (String × Source)) : IsOrdered (ofSets steps).entries := by
  induction steps using List.reverseRecOn with
  | nil => exact List.Pairwise.nil
  | append_singleton steps step ih =>
    rw [ofSets_concat]
    exact ih.setEntry step.1 step.2

/-- The latest source of a key counts. -/
theorem get?_ofSets (steps : List (String × Source)) (key : String) :
    (ofSets steps).get? key = steps.reverse.lookup key := by
  induction steps using List.reverseRecOn with
  | nil => rfl
  | append_singleton steps step ih =>
    obtain ⟨other, source⟩ := step
    rw [ofSets_concat, List.reverse_append, List.reverse_singleton, List.singleton_append,
      List.lookup_cons]
    by_cases h : key = other
    · rw [h, get?_set_self, beq_self_eq_true]
    · rw [get?_set_of_ne _ h, ih, beq_eq_false_iff_ne.2 h]

theorem IsOrdered.nodup (h : IsOrdered entries) : entries.Nodup :=
  h.imp fun hlt heq => absurd (heq ▸ hlt) (lt_irrefl _)

/-- In ordered entries the source of a key is that of its only entry. -/
theorem IsOrdered.mem_iff (h : IsOrdered entries) :
    (key, source) ∈ entries ↔ entries.lookup key = some source := by
  induction entries with
  | nil => simp
  | cons first rest ih =>
    obtain ⟨other, s⟩ := first
    obtain ⟨hfirst, hrest⟩ := List.pairwise_cons.1 h
    rw [List.mem_cons, ih hrest, List.lookup_cons]
    by_cases heq : key = other
    · subst heq
      have hnone : rest.lookup key ≠ some source := fun hlookup =>
        absurd (hfirst _ ((ih hrest).2 hlookup)) (lt_irrefl _)
      simp [hnone, eq_comm]
    · simp [heq, beq_eq_false_iff_ne.2 heq]

/-- **Each key has its latest source**, and no other one. -/
theorem mem_ofSets_iff (steps : List (String × Source)) :
    (key, source) ∈ (ofSets steps).entries ↔ steps.reverse.lookup key = some source := by
  rw [(isOrdered_ofSets steps).mem_iff, ← get?_ofSets]
  rfl

/-! ## Joining neighbours -/

theorem mem_withoutRuns {names : List String} {s : String} :
    s ∈ withoutRuns names ↔ s ∈ names := by
  fun_induction withoutRuns names with
  | case1 a rest ih => rw [ih]; simp
  | case2 a b rest hne ih => rw [List.mem_cons, ih, ← List.mem_cons]
  | case3 => rfl

/-- Without runs, a list in order is in strict order. -/
theorem pairwise_lt_withoutRuns_iff {names : List String} :
    (withoutRuns names).Pairwise (· < ·) ↔ names.Pairwise (· ≤ ·) := by
  fun_induction withoutRuns names with
  | case1 a rest ih =>
    rw [ih, List.pairwise_cons (a := a) (l := a :: rest)]
    refine ⟨fun h => ⟨fun s hs => ?_, h⟩, And.right⟩
    rcases List.mem_cons.1 hs with rfl | hs
    · exact le_refl _
    · exact (List.pairwise_cons.1 h).1 s hs
  | case2 a b rest hne ih =>
    rw [List.pairwise_cons, List.pairwise_cons, ih]
    refine and_congr_left fun hrest => ⟨fun h s hs => (h s (mem_withoutRuns.2 hs)).le,
      fun h s hs => ?_⟩
    have hab : a < b := lt_of_le_of_ne (h b List.mem_cons_self) hne
    rcases List.mem_cons.1 (mem_withoutRuns.1 hs) with rfl | hs
    · exact hab
    · exact lt_of_lt_of_le hab ((List.pairwise_cons.1 hrest).1 s hs)
  | case3 names hshort =>
    cases names with
    | nil => simp
    | cons a rest =>
      cases rest with
      | nil => simp
      | cons b rest => exact absurd rfl (hshort a b rest)

variable {α : Type} {f : α → String}

/-- A name in front joins the run that is there, or it starts a new one. -/
theorem nodup_withoutRuns_cons_iff {a b : α} {members : List α} :
    (withoutRuns ((a :: b :: members).map f)).Nodup ↔
      (f a = f b ∨ ∀ c ∈ b :: members, f c ≠ f a) ∧
        (withoutRuns ((b :: members).map f)).Nodup := by
  rw [List.map_cons, List.map_cons, withoutRuns, ← List.map_cons]
  split
  · rename_i heq
    simp only [heq, true_or, true_and]
  · rename_i hne
    simp only [List.nodup_cons, mem_withoutRuns, List.mem_map, not_exists, not_and, hne, false_or]

theorem exists_withoutRuns_cons (s : String) (names : List String) :
    ∃ more, withoutRuns (s :: names) = s :: more := by
  induction names generalizing s with
  | nil => exact ⟨[], rfl⟩
  | cons t names ih =>
    rw [withoutRuns]
    split
    · rename_i h
      exact h ▸ ih t
    · exact ⟨_, rfl⟩

/-- **Runs that are not taken up again** are the members with their name, in a row. -/
theorem flatMap_filter_of_nodup {members : List α} (h : (withoutRuns (members.map f)).Nodup) :
    ((withoutRuns (members.map f)).flatMap fun s => members.filter fun a => f a = s) =
      members := by
  induction members with
  | nil => rfl
  | cons a members ih =>
    cases members with
    | nil => simp [withoutRuns]
    | cons b members =>
      obtain ⟨hhead, hrest⟩ := nodup_withoutRuns_cons_iff.1 h
      -- the names of the other runs do not meet the new member
      have hother {names : List String} (hnames : f a ∉ names) :
          (names.flatMap fun s => (a :: b :: members).filter fun c => f c = s) =
            names.flatMap fun s => (b :: members).filter fun c => f c = s :=
        List.flatMap_congr fun s hs =>
          List.filter_cons_of_neg (by simpa using fun he : f a = s => hnames (he ▸ hs))
      have hself : (a :: b :: members).filter (fun c => f c = f a) =
          a :: (b :: members).filter fun c => f c = f a :=
        List.filter_cons_of_pos (by simp)
      by_cases hab : f a = f b
      · obtain ⟨more, hmore⟩ := exists_withoutRuns_cons (f a) (members.map f)
        have hnames : withoutRuns ((a :: b :: members).map f) = f a :: more := by
          rw [List.map_cons, List.map_cons, withoutRuns, if_pos hab, ← hab, hmore]
        have htail : withoutRuns ((b :: members).map f) = f a :: more := by
          rw [List.map_cons, ← hab, hmore]
        rw [hnames] at h
        rw [htail] at ih hrest
        rw [hnames, List.flatMap_cons, hother (List.nodup_cons.1 h).1, hself]
        exact congrArg (a :: ·) (ih hrest)
      · have hnone : ∀ c ∈ b :: members, f c ≠ f a := hhead.resolve_left hab
        have hnames : withoutRuns ((a :: b :: members).map f) =
            f a :: withoutRuns ((b :: members).map f) := by
          rw [List.map_cons, List.map_cons, withoutRuns, if_neg hab]
        rw [hnames] at h
        rw [hnames, List.flatMap_cons, hother (List.nodup_cons.1 h).1, hself, ih hrest,
          List.filter_eq_nil_iff.2 (by simpa using hnone)]
        rfl

/-- **No run is taken up again** exactly if every member between two of one name has that name. -/
theorem nodup_withoutRuns_iff {names : List String} {f : String → String}
    (h : names.Pairwise (· < ·)) :
    (withoutRuns (names.map f)).Nodup ↔
      ∀ a ∈ names, ∀ b ∈ names, ∀ c ∈ names, a < b → b < c → f a = f c → f b = f a := by
  induction names with
  | nil => simp [withoutRuns]
  | cons a names ih =>
    cases names with
    | nil => simp [withoutRuns]
    | cons b names =>
      obtain ⟨hfirst, hrest⟩ := List.pairwise_cons.1 h
      have hnext : ∀ c ∈ names, b < c := (List.pairwise_cons.1 hrest).1
      have hnot {c : String} (hc : c ∈ a :: b :: names) : ¬ c < a := fun hlt =>
        (List.mem_cons.1 hc).elim (fun he => lt_irrefl a (he ▸ hlt))
          fun hc => lt_asymm hlt (hfirst c hc)
      rw [nodup_withoutRuns_cons_iff, ih hrest]
      constructor
      · rintro ⟨hhead, htail⟩ x hx y hy z hz hxy hyz heq
        have hytail : y ∈ b :: names :=
          (List.mem_cons.1 hy).resolve_left fun he => hnot hx (he ▸ hxy)
        have hztail : z ∈ b :: names :=
          (List.mem_cons.1 hz).resolve_left fun he => hnot hy (he ▸ hyz)
        rcases List.mem_cons.1 hx with rfl | hxtail
        · -- the first member has the name of the next one, or no other member has its name
          have hxb : f x = f b := hhead.resolve_right fun hnone => hnone z hztail heq.symm
          rcases List.mem_cons.1 hytail with hyb | hynames
          · rw [hxb, hyb]
          · rw [hxb]
            exact htail b List.mem_cons_self y hytail z hztail (hnext y hynames) hyz (hxb ▸ heq)
        · exact htail x hxtail y hytail z hztail hxy hyz heq
      · intro hbetween
        refine ⟨or_iff_not_imp_left.2 fun hab c hc heq => ?_, fun x hx y hy z hz =>
          hbetween x (List.mem_cons_of_mem a hx) y (List.mem_cons_of_mem a hy) z
            (List.mem_cons_of_mem a hz)⟩
        rcases List.mem_cons.1 hc with rfl | hmem
        · exact hab heq.symm
        · exact hab (hbetween a List.mem_cons_self b (by simp) c (List.mem_cons_of_mem a hc)
            (hfirst b List.mem_cons_self) (hnext c hmem) heq.symm).symm

/-! ## Sections and the order of keys -/

/-- A key whose section goes on, after the section of another key, with a character below the dot
that follows there. -/
def Overtakes (key other : String) : Prop :=
  '.' ∈ other.toList ∧ ∃ c rest, c < '.' ∧
    (sectionOf key).toList = (sectionOf other).toList ++ c :: rest

/-- **A key overtakes another one** if it is before that one and its section is after. -/
theorem overtakes_iff : Overtakes key other ↔ key < other ∧ sectionOf other < sectionOf key := by
  simp only [Overtakes, sectionOf, String.lt_iff_toList_lt, String.toList_ofList]
  generalize key.toList = l
  generalize other.toList = m
  induction l generalizing m with
  | nil => simp
  | cons a l ih =>
    cases m with
    | nil => simp
    | cons b m =>
      by_cases ha : a = '.'
      · simp [ha]
      by_cases hb : b = '.'
      · simp [ha, hb, List.cons_lt_cons_iff]
      -- both sections go on with the first character
      by_cases hab : a = b
      · subst hab
        simpa [ha, Ne.symm ha, List.cons_lt_cons_iff] using ih m
      · have hnot : a < b → ¬ b < a := lt_asymm
        simpa [ha, hb, hab, Ne.symm hab, List.cons_lt_cons_iff] using hnot

theorem dot_notMem_sectionOf (key : String) : '.' ∉ (sectionOf key).toList := by
  intro h
  rw [sectionOf, String.toList_ofList] at h
  simpa using List.mem_takeWhile_imp h

theorem sectionOf_eq_self (h : '.' ∉ key.toList) : sectionOf key = key := by
  rw [sectionOf, List.takeWhile_eq_self_iff.2, String.ofList_toList]
  intro c hc
  simpa using fun he : c = '.' => h (he ▸ hc)

/-- **Where a section is left and taken up again**: its name is a key, and the key in between
overtakes the key after it. -/
theorem between_iff {a b c : String} :
    (a < b ∧ b < c ∧ sectionOf a = sectionOf c ∧ sectionOf b ≠ sectionOf a) ↔
      a = sectionOf c ∧ Overtakes b c := by
  constructor
  · rintro ⟨hab, hbc, hac, hne⟩
    rcases lt_or_gt_of_ne hne with hlt | hlt
    · obtain ⟨hdot, hgoes⟩ := overtakes_iff.2 ⟨hab, hlt⟩
      have hcb : Overtakes c b := ⟨hdot, hac ▸ hgoes⟩
      exact absurd (overtakes_iff.1 hcb).1 (lt_asymm hbc)
    · have hovertakes : Overtakes b c := overtakes_iff.2 ⟨hbc, hac ▸ hlt⟩
      have hdot : '.' ∉ a.toList := fun hdot =>
        absurd (overtakes_iff.1 (⟨hdot, hac ▸ hovertakes.2⟩ : Overtakes b a)).1 (lt_asymm hab)
      exact ⟨by rw [← hac, sectionOf_eq_self hdot], hovertakes⟩
  · rintro ⟨rfl, hovertakes⟩
    obtain ⟨hbc, hlt⟩ := overtakes_iff.1 hovertakes
    have hself : sectionOf (sectionOf c) = sectionOf c :=
      sectionOf_eq_self (dot_notMem_sectionOf c)
    have hlt' : sectionOf (sectionOf c) < sectionOf b := by rwa [hself]
    refine ⟨lt_of_not_ge fun hle => ?_, hbc, hself, hlt'.ne'⟩
    rcases lt_or_eq_of_le hle with hbefore | heq
    · exact dot_notMem_sectionOf c (overtakes_iff.2 ⟨hbefore, hlt'⟩).1
    · rw [heq] at hlt'
      exact lt_irrefl _ hlt'

/-! ## Sections of ordered entries -/

theorem sections_eq (p : Provenance) : p.sections = withoutRuns (p.keys.map sectionOf) := by
  rw [keys, List.map_map]
  rfl

theorem IsOrdered.keys (h : IsOrdered p.entries) : p.keys.Pairwise (· < ·) := List.pairwise_map.2 h

/-- A relation holds along keys in order if it holds of all keys in their order. -/
theorem pairwise_iff_forall_lt {names : List String} (h : names.Pairwise (· < ·))
    {R : String → String → Prop} :
    names.Pairwise R ↔ ∀ a ∈ names, ∀ b ∈ names, a < b → R a b := by
  induction names with
  | nil => simp
  | cons a names ih =>
    obtain ⟨hfirst, hrest⟩ := List.pairwise_cons.1 h
    rw [List.pairwise_cons, ih hrest]
    constructor
    · rintro ⟨hhead, htail⟩ b hb c hc hbc
      rcases List.mem_cons.1 hc with rfl | hctail
      · refine absurd hbc ?_
        rcases List.mem_cons.1 hb with rfl | hbtail
        · exact lt_irrefl _
        · exact lt_asymm (hfirst b hbtail)
      · rcases List.mem_cons.1 hb with rfl | hbtail
        · exact hhead c hctail
        · exact htail b hbtail c hctail hbc
    · exact fun hall => ⟨fun b hb => hall a List.mem_cons_self b (List.mem_cons_of_mem a hb)
        (hfirst b hb), fun b hb c hc => hall b (List.mem_cons_of_mem a hb) c
          (List.mem_cons_of_mem a hc)⟩

/-- **The sections are in strict order** exactly if no key overtakes another one. -/
theorem pairwise_sections_iff (h : IsOrdered p.entries) :
    p.sections.Pairwise (· < ·) ↔ ∀ key ∈ p.keys, ∀ other ∈ p.keys, ¬ Overtakes key other := by
  rw [sections_eq, pairwise_lt_withoutRuns_iff, List.pairwise_map, pairwise_iff_forall_lt h.keys]
  simp only [overtakes_iff, not_and, not_lt]

/-- **Each section is listed once** exactly if no key overtakes another one whose section is a
key. -/
theorem nodup_sections_iff (h : IsOrdered p.entries) :
    p.sections.Nodup ↔
      ∀ key ∈ p.keys, ∀ other ∈ p.keys, Overtakes key other → sectionOf other ∉ p.keys := by
  rw [sections_eq, nodup_withoutRuns_iff h.keys]
  constructor
  · intro hbetween key hkey other hother hovertakes hsection
    obtain ⟨hlt, hlt', heq, hne⟩ := between_iff.2 ⟨rfl, hovertakes⟩
    exact hne (hbetween _ hsection key hkey other hother hlt hlt' heq)
  · intro hnone a ha b hb c hc hab hbc hac
    by_contra hne
    obtain ⟨rfl, hovertakes⟩ := between_iff.1 ⟨hab, hbc, hac, hne⟩
    exact hnone b hb c hc hovertakes ha

/-! ## Entries by section -/

theorem mem_sections_iff {s : String} : s ∈ p.sections ↔ p.sectionEntries s ≠ [] := by
  simp [sections, mem_withoutRuns, sectionEntries]

theorem flatMap_sectionEntries (h : p.sections.Nodup) :
    p.sections.flatMap p.sectionEntries = p.entries :=
  flatMap_filter_of_nodup h

/-- A section that is listed twice has its entries listed twice. -/
theorem nodup_sections_of_nodup (h : (p.sections.flatMap p.sectionEntries).Nodup) :
    p.sections.Nodup := by
  refine (List.nodup_flatMap.1 h).2.imp_of_mem fun {s _} hs _ hdisjoint heq => ?_
  obtain ⟨entry, hentry⟩ := List.exists_mem_of_ne_nil _ (mem_sections_iff.1 hs)
  exact hdisjoint hentry (heq ▸ hentry)

theorem mem_flatMap_sectionEntries (h : entry ∈ p.entries) :
    entry ∈ p.sections.flatMap p.sectionEntries := by
  have hsection : entry ∈ p.sectionEntries (sectionOf entry.1) :=
    List.mem_filter.2 ⟨h, by simp⟩
  exact List.mem_flatMap.2 ⟨_, mem_sections_iff.2 (List.ne_nil_of_mem hsection), hsection⟩

/-- No entry is missed, so there are more of them than there should be where one is repeated. -/
theorem nodup_sections_of_length_le (h : IsOrdered p.entries)
    (hlength : (p.sections.flatMap p.sectionEntries).length ≤ p.entries.length) :
    p.sections.Nodup := by
  have hsubperm : p.entries.Subperm (p.sections.flatMap p.sectionEntries) :=
    h.nodup.subperm fun _ => mem_flatMap_sectionEntries
  exact nodup_sections_of_nodup ((hsubperm.perm_of_length_le hlength).nodup_iff.1 h.nodup)

/-- **Each entry is in one of the sections** exactly if each section is listed once. -/
theorem flatMap_sectionEntries_eq_iff (h : IsOrdered p.entries) :
    p.sections.flatMap p.sectionEntries = p.entries ↔ p.sections.Nodup :=
  ⟨fun heq => nodup_sections_of_length_le h (heq ▸ le_refl _), flatMap_sectionEntries⟩

end Provenance

namespace Config

open Provenance

variable {config : Config} {changedOnly : Bool} {name : String}

/-- The line for the name of a section. -/
def headingLine (name : String) : String := "  [" ++ name ++ "]"

theorem sectionLines_eq (h : config.shownEntries changedOnly name ≠ []) :
    config.sectionLines changedOnly name =
      headingLine name :: (config.shownEntries changedOnly name).map config.settingLine := by
  unfold sectionLines
  split
  · rename_i hnil
    exact absurd hnil h
  · rfl

theorem shownEntries_false (config : Config) (name : String) :
    config.shownEntries false name = config.provenance.sectionEntries name :=
  List.filter_eq_self.2 fun _ _ => rfl

/-- The lines for some sections: one for each of them, and one for each of their entries. -/
theorem perm_flatMap_sectionLines {names : List String}
    (h : ∀ name ∈ names, config.provenance.sectionEntries name ≠ []) :
    (names.flatMap (config.sectionLines false)).Perm
      (names.map headingLine ++
        (names.flatMap config.provenance.sectionEntries).map config.settingLine) := by
  induction names with
  | nil => exact List.Perm.refl _
  | cons name names ih =>
    have hname : config.shownEntries false name ≠ [] :=
      shownEntries_false config name ▸ h name List.mem_cons_self
    rw [List.flatMap_cons, sectionLines_eq hname, shownEntries_false, List.flatMap_cons,
      List.map_append, List.map_cons, List.cons_append, List.cons_append]
    have hrest := ih fun other hother => h other (List.mem_cons_of_mem name hother)
    exact ((hrest.append_left _).trans (List.perm_append_comm_assoc _ _ _)).cons _

/-- **Each setting is shown once**, with one heading for each section, exactly if each section is
listed once. -/
theorem perm_sectionLines_iff (h : IsOrdered config.provenance.entries) :
    (config.provenance.sections.flatMap (config.sectionLines false)).Perm
        (config.provenance.sections.map headingLine ++
          config.provenance.entries.map config.settingLine) ↔
      config.provenance.sections.Nodup := by
  have hlines := config.perm_flatMap_sectionLines fun _ => mem_sections_iff.1
  constructor
  · intro hperm
    have hlength := (hlines.symm.trans hperm).length_eq
    refine nodup_sections_of_length_le h ?_
    simp only [List.length_append, List.length_map] at hlength
    omega
  · intro hnodup
    rwa [flatMap_sectionEntries hnodup] at hlines

end Config

namespace Provenance

/-- **The sections of the tracked settings**, after any sources are set in a row. The keys are in
strict order, each with its latest source. The sections are in strict order exactly if no key
overtakes another one, and each is listed once exactly if none overtakes a key whose section is a
key itself; this is when the sections hold every entry once and every setting is shown once. -/
theorem sections_exact (steps : List (String × Source)) :
    (ofSets steps).keys.Pairwise (· < ·) ∧
    (∀ key source,
      (key, source) ∈ (ofSets steps).entries ↔ steps.reverse.lookup key = some source) ∧
    ((ofSets steps).sections.Pairwise (· < ·) ↔
      ∀ key ∈ (ofSets steps).keys, ∀ other ∈ (ofSets steps).keys, ¬ Overtakes key other) ∧
    ((ofSets steps).sections.Nodup ↔
      ∀ key ∈ (ofSets steps).keys, ∀ other ∈ (ofSets steps).keys, Overtakes key other →
        sectionOf other ∉ (ofSets steps).keys) ∧
    ((ofSets steps).sections.flatMap (ofSets steps).sectionEntries = (ofSets steps).entries ↔
      (ofSets steps).sections.Nodup) ∧
    ∀ config : Config, config.provenance = ofSets steps →
      ((config.provenance.sections.flatMap (config.sectionLines false)).Perm
          (config.provenance.sections.map Config.headingLine ++
            config.provenance.entries.map config.settingLine) ↔
        (ofSets steps).sections.Nodup) := by
  have hordered := isOrdered_ofSets steps
  refine ⟨hordered.keys, fun _ _ => mem_ofSets_iff steps, pairwise_sections_iff hordered,
    nodup_sections_iff hordered, flatMap_sectionEntries_eq_iff hordered, fun config hconfig => ?_⟩
  rw [← hconfig] at hordered ⊢
  exact Config.perm_sectionLines_iff hordered

/-- Two dotted keys whose sections are not in order, and three keys with a section that is listed
twice. -/
theorem sections_unsorted :
    let two := ofSets [("project.root", .builtIn), ("project-local.root", .builtIn)]
    let three := two.set "project" (.flag "--project")
    two.sections = ["project-local", "project"] ∧ ¬ two.sections.Pairwise (· < ·) ∧
      three.sections = ["project", "project-local", "project"] ∧
      (three.sections.flatMap three.sectionEntries).map Prod.fst =
        ["project", "project.root", "project-local.root", "project", "project.root"] := by
  decide +kernel

end Provenance

end RemoteImports
