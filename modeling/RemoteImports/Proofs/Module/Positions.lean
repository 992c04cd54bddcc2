import Mathlib.Data.List.Nodup
import RemoteImports.Proofs.Module.Rewriting

/-!
# Rewriting against a reference

The rewriting of a module, which edits the list that it counts positions in, agrees with a reference
that looks at each position on its own (`rewriteAll?_by_position`): a statement that no rewrite is
about stays as it is, and any other one makes way for a group of generated statements. A group keeps
the line and the layout of the statement it takes the place of (`TakesPlaceOf`).
-/

namespace RemoteImports

/-- A group of statements with the texts and kinds of some generated ones, put in the place of a
statement: all stand in its line, the first has its layout, and each of the others starts a line. -/
structure TakesPlaceOf (s : Statement) (generated group : List Statement) : Prop where
  text_eq : group.map (·.text) = generated.map (·.text)
  kind_eq : group.map (·.kind) = generated.map (·.kind)
  line_eq : ∀ new ∈ group, new.line = s.line
  leading_eq : group.map (·.leading) = s.leading :: List.replicate (generated.length - 1) "\n"

theorem Statement.takesPlaceOf_placed (s : Statement) {generated : List Statement}
    (h : generated ≠ []) : TakesPlaceOf s generated (s.placed generated) := by
  obtain ⟨first, rest, rfl⟩ := List.exists_cons_of_ne_nil h
  constructor
  case text_eq => simp [Statement.placed]
  case kind_eq => simp [Statement.placed]
  case line_eq =>
    intro new hnew
    rcases List.mem_cons.1 hnew with rfl | hnew
    · rfl
    · obtain ⟨old, -, rfl⟩ := List.mem_map.1 hnew
      rfl
  case leading_eq => simp [Statement.placed, Function.comp_def]

namespace Module

variable {m : Module} {rewrites : List Rewrite}

/-- The groups that the statements become, one for each position. -/
def groups (rewrites : List Rewrite) (statements : List Statement) : List (List Statement) :=
  statements.zipIdx.map fun p => rewrittenAt rewrites p.2 p.1

theorem flatten_groups (rewrites : List Rewrite) (statements : List Statement) :
    (groups rewrites statements).flatten = replaceEach (rewrittenAt rewrites) 0 statements :=
  (List.flatMap_def ..).symm

theorem getElem?_groups {statements : List Statement} {i : Nat} {group : List Statement}
    (h : (groups rewrites statements)[i]? = some group) :
    ∃ s, statements[i]? = some s ∧ group = rewrittenAt rewrites i s := by
  rw [groups, List.getElem?_map, List.getElem?_zipIdx, Option.map_map, Option.map_eq_some_iff] at h
  obtain ⟨s, hs, rfl⟩ := h
  exact ⟨s, hs, by simp⟩

/-- **Every rewrite has a statement of its own**: as many statements make way as there are
rewrites. -/
theorem length_rewritten_positions (h : InOrder 0 m.statements.length rewrites) :
    ((List.range m.statements.length).filter (· ∈ rewrites.map (·.site.position))).length =
      rewrites.length := by
  have hrewrites : (rewrites.map (·.site.position)).Nodup := h.pairwise.imp Nat.ne_of_lt
  have hrange := (List.nodup_range (n := m.statements.length)).filter
    (· ∈ rewrites.map (·.site.position))
  rw [← List.length_map (fun r : Rewrite => r.site.position)]
  refine ((List.perm_ext_iff_of_nodup hrange hrewrites).2 fun i => ?_).length_eq
  rw [List.mem_filter, List.mem_range, decide_eq_true_eq]
  refine and_iff_right_of_imp fun hi => ?_
  obtain ⟨r, hr, rfl⟩ := List.mem_map.1 hi
  exact h.lt_stop r hr

/-- **A rewriting equals its reference**, position by position: every position has its group of
statements, one after the other, and as many statements make way as there are rewrites. -/
theorem rewriteAll?_by_position
    (hpairwise : (rewrites.map (·.site.position)).Pairwise (· < ·))
    (hinside : ∀ r ∈ rewrites, r.site.position < m.statements.length) :
    ∃ groups : List (List Statement),
      m.rewriteAll? rewrites = some ({ m with statements := groups.flatten }, rewrites.length) ∧
      ((List.range m.statements.length).filter (· ∈ rewrites.map (·.site.position))).length =
        rewrites.length ∧
      groups.length = m.statements.length ∧
      (∀ i s group, m.statements[i]? = some s → groups[i]? = some group →
        ((∀ r ∈ rewrites, r.site.position ≠ i) → group = [s]) ∧
        ∀ r ∈ rewrites, r.site.position = i →
          TakesPlaceOf s
            ((if rewrites.head? = some r then [runtimeImport] else []) ++
              (if r.site.typeBindings = [] then []
                else [typeImport r.site.specifier r.site.typeBindings]) ++
              [r.proxy.statement]) group) ∧
      (rewrites = [] → m.rewriteAll? rewrites = some (m, 0)) := by
  have h : InOrder 0 m.statements.length rewrites :=
    ⟨hpairwise, fun _ _ => Nat.zero_le _, hinside⟩
  refine ⟨groups rewrites m.statements, ?_, length_rewritten_positions h, by simp [groups],
    fun i s group hs hgroup => ⟨fun hnone => ?_, fun r hr hposition => ?_⟩, ?_⟩
  · rw [rewriteAll?, rewrite?_eq h, flatten_groups, Option.map_some]
  · obtain ⟨s', hs', rfl⟩ := getElem?_groups hgroup
    obtain rfl := Option.some.inj (hs.symm.trans hs')
    exact rewrittenAt_of_notMem s hnone
  · obtain ⟨s', hs', rfl⟩ := getElem?_groups hgroup
    obtain rfl := Option.some.inj (hs.symm.trans hs')
    subst hposition
    rw [rewrittenAt, h.find?_position hr, List.append_assoc, ← Rewrite.statements]
    simp only [h.head?_position_iff hr]
    exact s.takesPlaceOf_placed (by simp [Rewrite.statements])
  · rintro rfl
    rfl

/-- Three statements, the last two of which are imports on one line. -/
def scheduleModule : Module where
  path := ⟨"main.ts"⟩
  dialect := .typeScript
  statements :=
    [⟨"", "start();", 1, .other⟩,
    ⟨"\n// Time\n", "import { now, type Zone } from './clock';", 3,
      .importing ⟨"./clock", false, [.named ⟨"now", "now"⟩ false, .named ⟨"Zone", "Zone"⟩ true]⟩⟩,
    ⟨" ", "import { run } from './jobs';", 3,
      .importing ⟨"./jobs", false, [.named ⟨"run", "run"⟩ false]⟩⟩]
  trailing := "\n"

/-- The rewrites of its two imports. -/
def scheduleRewrites : List Rewrite :=
  [⟨⟨1, 3, "./clock", [⟨"now", "now"⟩], [⟨"Zone", "Zone"⟩], ⟨"/clock"⟩, "clock"⟩,
      ⟨[⟨"now", "now"⟩], ["now"], "clock"⟩⟩,
    ⟨⟨2, 3, "./jobs", [⟨"run", "run"⟩], [], ⟨"/jobs"⟩, "jobs"⟩,
      ⟨[⟨"run", "run"⟩], ["run"], "jobs"⟩⟩]

/-- The imports make way for four statements, the first of which keeps the comment. -/
theorem rewriteAll?_scheduleModule :
    ∃ m', scheduleModule.rewriteAll? scheduleRewrites = some (m', 2) ∧
      m'.statements.map (·.leading) = ["", "\n// Time\n", "\n", "\n", " "] ∧
      m'.statements.map (·.text) =
        ["start();", "import \x7b createRuntime \x7d from \"@reshuffle/fetch-runtime\";",
          "import type \x7b Zone \x7d from \"./clock\";",
          "const \x7b now \x7d = createRuntime([\"now\"], \x7b filename: \"clock\" \x7d);",
          "const \x7b run \x7d = createRuntime([\"run\"], \x7b filename: \"jobs\" \x7d);"] := by
  obtain ⟨groups, hrun, -, hlength, hgroups, -⟩ :=
    @rewriteAll?_by_position scheduleModule scheduleRewrites (by decide) (by decide)
  obtain ⟨first, second, third, rfl⟩ := List.length_eq_three.1 hlength
  obtain rfl : first = [_] := (hgroups 0 _ _ rfl rfl).1 (by decide)
  have hclock := (hgroups 1 _ _ rfl rfl).2 _ List.mem_cons_self rfl
  have hjobs := (hgroups 2 _ _ rfl rfl).2 _ (List.mem_cons_of_mem _ List.mem_cons_self) rfl
  refine ⟨_, hrun, ?_, ?_⟩
  · simp only [List.flatten_cons, List.map_append, hclock.leading_eq, hjobs.leading_eq]
    rfl
  · simp only [List.flatten_cons, List.map_append, hclock.text_eq, hjobs.text_eq]
    decide +kernel

end Module

end RemoteImports
