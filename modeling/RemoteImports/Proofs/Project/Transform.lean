import RemoteImports.Proofs.Module.Source
import RemoteImports.Proofs.Project.Plan

/-!
# Transforming a source text

A transformed text is the source with the texts of some statements replaced, and everything else
kept as it was, layout included (`transform_preserves`). The generated statements of one import
share its layout and are separated by line feeds (`sourceOf_rewrittenAt`), so an import only ever
changes its own text.
-/

namespace RemoteImports

/-- The text that takes the place of an import: the import of its types if there are any, then the
proxy. -/
def Rewrite.text (r : Rewrite) : String :=
  (if r.site.typeBindings = [] then ""
    else (typeImport r.site.specifier r.site.typeBindings).text ++ "\n") ++ r.proxy.text

namespace Module

/-- The text in the place of a statement after some rewrites. The first one brings the import of the
runtime. -/
def textAfter (rewrites : List Rewrite) (i : Nat) (s : Statement) : String :=
  match rewrites.find? (·.site.position = i) with
  | none => s.text
  | some r =>
    (if rewrites.head?.map (·.site.position) = some i then runtimeImport.text ++ "\n" else "") ++
      r.text

/-- A module with the texts of its statements replaced, whose layout stays. -/
def withTexts (f : Nat → Statement → String) (m : Module) : Module :=
  { m with statements := m.statements.mapIdx fun i s => { s with text := f i s } }

/-- A statement followed by others, each in a line of its own. -/
theorem text_append_sourceOf_lines (line : Nat) (first : Statement) (rest : List Statement) :
    first.text ++ sourceOf (rest.map fun new => { new with leading := "\n", line }) =
      "\n".intercalate ((first :: rest).map (·.text)) := by
  induction rest generalizing first with
  | nil => simp [sourceOf]
  | cons next rest ih =>
    rw [List.map_cons, sourceOf, String.append_assoc, ih next]
    simp only [List.map_cons, String.intercalate_cons_cons, String.append_assoc]

theorem sourceOf_placed (s : Statement) {new : List Statement} (h : new ≠ []) :
    sourceOf (s.placed new) = s.leading ++ "\n".intercalate (new.map (·.text)) := by
  obtain ⟨first, rest, rfl⟩ := List.exists_cons_of_ne_nil h
  rw [Statement.placed, sourceOf, String.append_assoc, text_append_sourceOf_lines]
  rfl

theorem intercalate_text_statements (r : Rewrite) :
    "\n".intercalate (r.statements.map (·.text)) = r.text := by
  unfold Rewrite.statements Rewrite.text
  split
  · rw [String.empty_append]
    rfl
  · rfl

/-- **The generated statements fill the place of the old one**, with the layout that it had. -/
theorem sourceOf_rewrittenAt (rewrites : List Rewrite) (i : Nat) (s : Statement) :
    sourceOf (rewrittenAt rewrites i s) = s.leading ++ textAfter rewrites i s := by
  unfold rewrittenAt textAfter
  cases rewrites.find? (·.site.position = i) with
  | none => simp [sourceOf]
  | some r =>
    have hne : r.statements.map (·.text) ≠ [] := by simp [Rewrite.statements]
    dsimp only
    rw [sourceOf_placed _ (by simp [Rewrite.statements]), List.map_append]
    split
    · -- the import of the runtime stands in a line before
      rw [List.map_singleton, String.intercalate_append_of_ne_nil (by simp) hne,
        intercalate_text_statements]
      rfl
    · rw [List.map_nil, List.nil_append, intercalate_text_statements, String.empty_append]

theorem sourceOf_replaceEach (rewrites : List Rewrite) (n : Nat) (statements : List Statement) :
    sourceOf (replaceEach (rewrittenAt rewrites) n statements) =
      sourceOf ((statements.zipIdx n).map fun p =>
        { p.1 with text := textAfter rewrites p.2 p.1 }) := by
  induction statements generalizing n with
  | nil => rfl
  | cons s rest ih =>
    rw [replaceEach_cons, sourceOf_append, sourceOf_rewrittenAt, ih, List.zipIdx_cons,
      List.map_cons, sourceOf]

/-- **Rewriting changes texts only**, as far as the source of the module goes. -/
theorem source_rewrite? {m m' : Module} {rewrites : List Rewrite}
    (h : InOrder 0 m.statements.length rewrites) (hm : m.rewrite? rewrites = some m') :
    m'.source = (m.withTexts (textAfter rewrites)).source := by
  obtain rfl := Option.some.inj ((rewrite?_eq h).symm.trans hm)
  rw [withTexts, List.mapIdx_eq_zipIdx_map]
  exact congrArg (· ++ m.trailing) (sourceOf_replaceEach rewrites 0 m.statements)

end Module

namespace Project

variable {project : Project} {tree : FileTree} {p : FilePath} {source : String} {out : Transformed}
  {m m' : Module} {rewrites : List Rewrite}

/-- Rewriting in place does nothing but what is planned. -/
theorem apply_eq (project : Project) (tree : FileTree) (m : Module) :
    project.apply tree m =
      (project.plan tree m).map fun rewrites => ((m.rewrite? rewrites).getD m, rewrites) := by
  rw [apply, run_rewriteInPlace]
  cases project.plan tree m <;> rfl

theorem apply_eq_ok (h : project.apply tree m = .ok (m', rewrites)) :
    project.plan tree m = .ok rewrites ∧ m.rewrite? rewrites = some m' := by
  rw [apply, run_rewriteInPlace] at h
  cases hplan : project.plan tree m with
  | error failure =>
    rw [hplan] at h
    cases h
  | ok planned =>
    rw [hplan] at h
    have hrewrite := Module.rewrite?_eq (inOrder_of_plan hplan)
    simp only [hrewrite, Option.getD_some] at h
    cases h
    exact ⟨rfl, hrewrite⟩

/-- What a successful transformation has done. -/
theorem transform_eq_ok (h : project.transform tree p source = .ok out) :
    ∃ m m', Module.parse p source = .ok m ∧ project.plan tree m = .ok out.rewrites ∧
      m.rewrite? out.rewrites = some m' ∧
      out.code = if out.rewrites = [] then source else m'.source := by
  obtain ⟨m, hm, h⟩ := bind_eq_ok_iff.1 h
  obtain ⟨⟨m', rewrites⟩, happly, h⟩ := bind_eq_ok_iff.1 h
  obtain ⟨hplan, hrewrite⟩ := apply_eq_ok happly
  cases h
  exact ⟨m, m', hm, hplan, hrewrite, rfl⟩

/-- The transformation of a source text that is a module: its plan, carried out. -/
theorem transform_of_parse (hm : Module.parse p source = .ok m) :
    project.transform tree p source =
      (project.plan tree m).map fun rewrites =>
        ⟨(m.withTexts (Module.textAfter rewrites)).source, rewrites⟩ := by
  rw [transform, hm]
  change (project.apply tree m >>= _) = _
  rw [apply_eq]
  cases hplan : project.plan tree m with
  | error failure => rfl
  | ok rewrites =>
    have hinOrder := inOrder_of_plan hplan
    have hrewrite := Module.rewrite?_eq hinOrder
    have hcode : (if rewrites = [] then source else ((m.rewrite? rewrites).getD m).source) =
        (m.withTexts (Module.textAfter rewrites)).source := by
      rw [← Module.source_rewrite? hinOrder hrewrite, hrewrite]
      split
      · rename_i hnone
        subst hnone
        rw [← Option.some.inj hrewrite, Module.source_of_parse hm]
      · rfl
    exact congrArg (fun code => Except.ok (Transformed.mk code rewrites)) hcode

/-- **Byte preservation.** The source is the texts of its statements with the layout around them,
and the transformed text is the same with the texts of the rewritten imports replaced. -/
theorem transform_preserves (h : project.transform tree p source = .ok out) :
    ∃ m, Module.parse p source = .ok m ∧ project.plan tree m = .ok out.rewrites ∧
      (out.rewrites.map (·.site.position)).Pairwise (· < ·) ∧
      (∀ r ∈ out.rewrites, r.site.position < m.statements.length) ∧
      m.source = source ∧
      out.code = (m.withTexts (Module.textAfter out.rewrites)).source ∧
      (out.rewrites = [] → out.code = source) := by
  obtain ⟨m, m', hm, hplan, hrewrite, hcode⟩ := transform_eq_ok h
  have hinOrder := inOrder_of_plan hplan
  have hsource := Module.source_of_parse hm
  refine ⟨m, hm, hplan, hinOrder.pairwise, hinOrder.lt_stop, hsource, ?_, fun hnone => ?_⟩
  · rw [hcode, ← Module.source_rewrite? hinOrder hrewrite]
    split
    · -- without rewrites the module is the one that was read
      rename_i hnone
      rw [hnone] at hrewrite
      obtain rfl : m = m' := Option.some.inj hrewrite
      exact hsource.symm
    · rfl
  · rw [hcode, if_pos hnone]

/-- The source text that calls the clock, transformed. -/
def clockCode : String :=
  "// Time\nimport \x7b createRuntime \x7d from \"@reshuffle/fetch-runtime\";\n" ++
  "import type \x7b Zone \x7d from \"../backend/clock\";\n" ++
  "const \x7b now, now: time \x7d = createRuntime([\"now\"], \x7b filename: \"clock\" \x7d);\n\n" ++
  "time(now());\n"

theorem transform_clockSource :
    clockProject.transform clockTree ⟨"src/main.ts"⟩ clockSource =
      .ok ⟨clockCode, [clockRewrite]⟩ := by
  decide +kernel

theorem clockCode_eq :
    ∃ m, Module.parse ⟨"src/main.ts"⟩ clockSource = .ok m ∧ m.source = clockSource ∧
      clockCode = (m.withTexts (Module.textAfter [clockRewrite])).source := by
  obtain ⟨m, hm, -, -, -, hsource, hcode, -⟩ := transform_preserves transform_clockSource
  exact ⟨m, hm, hsource, hcode⟩

end Project

end RemoteImports
