import RemoteImports.Command.Run
import RemoteImports.Proofs.Module.Listing
import RemoteImports.Proofs.Project.Exposure

/-!
# The listing of a backend file

What `exposed` prints for a file is what importers of the file may ask for: an import that leads to
the file passes exactly if all names that it asks for are in the listing, and otherwise fails with
those that are not (`listing_decides`). The listing is made from all functions of the file, the
verdict on an import from those that it names.
-/

namespace RemoteImports

variable {tree : FileTree}

namespace Project

variable {project : Project} {site : BackendImport} {m : Module} {listed : List String}

/-- An import whose target can be listed passes exactly if the target lists what it asks for. -/
theorem passes_iff_of_targets (htarget : project.Targets tree site m)
    (hlisted : m.exposed none = .ok listed) :
    project.Passes tree site ↔ ∀ name ∈ site.requested, name ∈ listed := by
  obtain ⟨file, source, hfile, hread, hm⟩ := htarget
  obtain ⟨exposed, hexposed, hsame⟩ := Module.exposed_some_of_exposed_none hlisted site.requested
  have hresolve : project.resolve tree site = .ok exposed :=
    exposedAt_eq_ok_iff.2 ⟨file, source, m, hfile, hread, hm, hexposed⟩
  constructor
  · rintro ⟨exposed', hresolve', r, hr⟩ name hname
    cases hresolve.symm.trans hresolve'
    exact (hsame name hname).1 ((BackendImport.rewrite_eq_ok_iff.1 hr).1 name hname)
  · intro hall
    refine ⟨exposed, hresolve, _, BackendImport.rewrite_eq_ok_iff.2 ⟨fun name hname => ?_, rfl⟩⟩
    exact (hsame name hname).2 (hall name hname)

end Project

namespace Command

variable {env : Environment} {file : FilePath} {flags : Overrides} {printed : Written}

/-- A listing in a format. -/
def printListing (format : OutputFormat) (report : ExposedReport) : Written :=
  match format with
  | .json => report.toJson.written
  | .text => report.toText

theorem runExposed_eq_ok_iff :
    runExposed tree env file flags = .ok printed ↔
      ∃ working config listed, startingPath tree here = .ok working ∧
        configFor tree env working flags = .ok config ∧
        Project.exposedAt tree (working.join file) file.text none config.extensions =
          .ok listed ∧
        printed = printListing config.format ⟨file, listed⟩ := by
  constructor
  · intro h
    obtain ⟨working, hworking, h⟩ := bind_eq_ok_iff.1 h
    obtain ⟨config, hconfig, h⟩ := bind_eq_ok_iff.1 h
    obtain ⟨listed, hlisted, h⟩ := bind_eq_ok_iff.1 h
    refine ⟨working, config, listed, hworking, hconfig, hlisted, ?_⟩
    cases hformat : config.format <;> simp_all [printListing]
  · rintro ⟨working, config, listed, hworking, hconfig, hlisted, rfl⟩
    refine bind_eq_ok_iff.2 ⟨working, hworking, bind_eq_ok_iff.2 ⟨config, hconfig, ?_⟩⟩
    refine bind_eq_ok_iff.2 ⟨listed, hlisted, ?_⟩
    cases hformat : config.format <;> simp [printListing]

/-- **The listing decides on every request.** A module that can be listed passes an import that asks
for listed names only; one that cannot be listed fails everyone who asks for the function at fault.
So what is printed for a file is what imports that lead there may ask for. -/
theorem listing_decides (m : Module) (site : BackendImport) :
    (∀ listed, m.exposed none = .ok listed →
      ∃ exposed, m.exposed (some site.requested) = .ok exposed ∧
        ((∃ r, site.rewrite exposed = .ok r) ↔ ∀ name ∈ site.requested, name ∈ listed) ∧
        ∀ failure, site.rewrite exposed = .error failure ↔
          (∃ name ∈ site.requested, name ∉ listed) ∧
            failure = .missingExposure site.specifier (site.requested.filter (· ∉ listed))) ∧
    (∀ failure, m.exposed none = .error failure →
      ∃ function, failure = .exposedNotExported function m.path ∧
        ∀ names, function ∈ names → m.exposed (some names) = .error failure) ∧
    ∀ tree env file flags printed, runExposed tree env file flags = .ok printed →
      ∃ working config listed, startingPath tree here = .ok working ∧
        configFor tree env working flags = .ok config ∧
        printed = printListing config.format ⟨file, listed⟩ ∧
        ∀ other : BackendImport, tree.moduleFile? other.target config.extensions =
            tree.moduleFile? (working.join file) config.extensions →
          (config.project.Passes tree other ↔ ∀ name ∈ other.requested, name ∈ listed) := by
  refine ⟨fun listed hlisted => ?_, fun failure => Module.exposed_some_of_listing_fails,
    fun tree env file flags printed hprinted => ?_⟩
  · obtain ⟨exposed, hexposed, hsame⟩ :=
      Module.exposed_some_of_exposed_none hlisted site.requested
    refine ⟨exposed, hexposed, ?_, fun failure => ?_⟩
    · rw [BackendImport.rewrite_congr hsame]
      simp [BackendImport.rewrite_eq_ok_iff]
    · rw [BackendImport.rewrite_congr hsame, BackendImport.rewrite_eq_error_iff]
  · obtain ⟨working, config, listed, hworking, hconfig, hlisted, hprinted⟩ :=
      runExposed_eq_ok_iff.1 hprinted
    refine ⟨working, config, listed, hworking, hconfig, hprinted, fun other hother => ?_⟩
    obtain ⟨found, source, m', hfound, hread, hm', hexposed⟩ :=
      Project.exposedAt_eq_ok_iff.1 hlisted
    exact Project.passes_iff_of_targets ⟨found, source, hother.trans hfound, hread, hm'⟩ hexposed

end Command

end RemoteImports
