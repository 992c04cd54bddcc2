import RemoteImports.Command.Run
import RemoteImports.Proofs.FileTree.Write

/-!
# What commands write

Only a transformation with an output file changes the tree, and only when it succeeds
(`writes_only_output`). It gives the file the text that the same command without an output file
prints, whatever that file was before: the source itself, a file that it imports, or nothing.
-/

namespace RemoteImports.Command

variable {tree : FileTree} {env : Environment} {file out : FilePath} {flags : Overrides}
  {output : Option FilePath} {failure : Failure}

/-! ## One transformation -/

/-- Without an output file the result is printed. -/
theorem outcome_transform_none (tree : FileTree) (env : Environment) (file : FilePath)
    (flags : Overrides) :
    (transform file flags none).outcome tree env =
      match transformedCode tree env file flags with
      | .ok code => ⟨code, none, tree⟩
      | .error failure => ⟨"", some failure, tree⟩ := by
  rw [outcome, runTransform]
  cases transformedCode tree env file flags <;> rfl

/-- With an output file the same result is written. -/
theorem outcome_transform_some (tree : FileTree) (env : Environment) (file : FilePath)
    (flags : Overrides) (out : FilePath) :
    (transform file flags (some out)).outcome tree env =
      match transformedCode tree env file flags with
      | .error failure => ⟨"", some failure, tree⟩
      | .ok code =>
        match tree.write out code with
        | .error fault => ⟨"", some (.access fault), tree⟩
        | .ok tree' => ⟨"", none, tree'⟩ := by
  rw [outcome, runTransform]
  cases transformedCode tree env file flags with
  | error failure => rfl
  | ok code =>
    simp only [bind, Except.bind]
    cases tree.write out code <;> rfl

/-- A transformation that fails prints nothing and leaves the tree alone. -/
theorem outcome_of_failure
    (h : ((transform file flags output).outcome tree env).failure = some failure) :
    (transform file flags output).outcome tree env = ⟨"", some failure, tree⟩ := by
  rw [outcome] at h ⊢
  split at h
  · cases h
  · rw [← h]

/-- With an output file a transformation fails as without one, or for the file. -/
theorem failure_transform_some_iff :
    ((transform file flags (some out)).outcome tree env).failure = some failure ↔
      ((transform file flags none).outcome tree env).failure = some failure ∨
        ∃ code fault, (transform file flags none).outcome tree env = ⟨code, none, tree⟩ ∧
          tree.write out code = .error fault ∧ failure = .access fault := by
  rw [outcome_transform_some, outcome_transform_none]
  cases transformedCode tree env file flags with
  | error failure => simp
  | ok code =>
    cases hwrite : tree.write out code with
    | error fault => simp [hwrite, eq_comm]
    | ok tree' => simp [hwrite]

/-- A transformation that succeeds has written what it would have printed. -/
theorem exists_write_of_success
    (h : ((transform file flags (some out)).outcome tree env).failure = none) :
    ∃ code tree', (transform file flags none).outcome tree env = ⟨code, none, tree⟩ ∧
      (transform file flags (some out)).outcome tree env = ⟨"", none, tree'⟩ ∧
      tree.write out code = .ok tree' := by
  rw [outcome_transform_some] at h ⊢
  rw [outcome_transform_none]
  cases hcode : transformedCode tree env file flags with
  | error failure => simp [hcode] at h
  | ok code =>
    cases hwrite : tree.write out code with
    | error fault => simp [hcode, hwrite] at h
    | ok tree' => exact ⟨code, tree', rfl, by simp only [hwrite], hwrite⟩

/-! ## All commands -/

/-- **A command writes its output file and nothing else.** A transformation with an output file
fails as it does without one, or because the file cannot be written; otherwise it prints nothing and
changes the place that the path of the file refers to. -/
theorem writes_only_output (tree : FileTree) (env : Environment) (command : Command) :
    ((∀ file flags out, command = transform file flags (some out) →
        (command.outcome tree env).failure.isSome) →
      (command.outcome tree env).tree = tree) ∧
    ∀ file flags output, command = transform file flags output →
      (∀ failure, (command.outcome tree env).failure = some failure →
        command.outcome tree env = ⟨"", some failure, tree⟩) ∧
      ∀ out, output = some out →
        (∀ failure, (command.outcome tree env).failure = some failure ↔
          ((transform file flags none).outcome tree env).failure = some failure ∨
            ∃ code fault, (transform file flags none).outcome tree env = ⟨code, none, tree⟩ ∧
              tree.write out code = .error fault ∧ failure = .access fault) ∧
        ((command.outcome tree env).failure = none →
          ∃ code tree' r, (transform file flags none).outcome tree env = ⟨code, none, tree⟩ ∧
            command.outcome tree env = ⟨"", none, tree'⟩ ∧
            tree.reach out = .ok r ∧ tree'.reach out = .ok (.present r.place) ∧
            tree'.at? r.place = some (.file (.text code)) ∧ tree'.read out = .ok code ∧
            tree.SameApart tree' r.place) := by
  refine ⟨fun h => ?_, fun file flags output hcommand => ?_⟩
  · cases command with
    | transform file flags output =>
      cases output with
      | none =>
        rw [outcome_transform_none]
        cases transformedCode tree env file flags <;> rfl
      | some out =>
        obtain ⟨failure, hfailure⟩ := Option.isSome_iff_exists.1 (h file flags out rfl)
        rw [outcome_of_failure hfailure]
    | check target flags =>
      rw [outcome]
      split <;> rfl
    | exposed file flags =>
      rw [outcome]
      cases runExposed tree env file flags <;> rfl
    | showConfig directory changedOnly =>
      rw [outcome]
      cases runShowConfig tree env directory changedOnly <;> rfl
  · subst hcommand
    refine ⟨fun failure hfailure => outcome_of_failure hfailure, ?_⟩
    rintro out rfl
    refine ⟨fun failure => failure_transform_some_iff, fun hsuccess => ?_⟩
    obtain ⟨code, tree', hprinted, houtcome, hwrite⟩ := exists_write_of_success hsuccess
    obtain ⟨r, hreach, hfree, hnew, hsame⟩ := FileTree.write_eq_ok hwrite
    exact ⟨code, tree', r, hprinted, houtcome, hreach, hsame.reach hfree hnew hreach, hnew,
      FileTree.read_write hwrite, hsame⟩

end RemoteImports.Command
