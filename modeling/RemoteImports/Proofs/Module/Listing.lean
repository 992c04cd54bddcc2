import RemoteImports.Proofs.Module.Exposed

/-!
# Listing and asking

The exposed functions of a module can be listed, or asked for by name. A listing looks at every
function, a request only at those that it names; nevertheless a name that is asked for is exposed
exactly if it is listed (`exposed_some_of_exposed_none`), and a request that names the function at
which the listing fails does so as well (`exposed_some_of_listing_fails`).
-/

namespace RemoteImports.Module

variable {m : Module} {surface listed names : List String} {name : String} {s : Statement}
  {failure : Failure}

theorem isRequested_some : isRequested (some names) name ↔ name ∈ names := by
  simp [isRequested]

/-- A statement to which a listing is not owed anything is none to which a request is. -/
theorem IsSurfaced.request (h : IsSurfaced surface none s) (requested : Option (List String)) :
    IsSurfaced surface requested s :=
  fun name hkind _ => h name hkind rfl

theorem LacksSurface.request (h : LacksSurface surface none s name) (hname : name ∈ names) :
    LacksSurface surface (some names) s name :=
  ⟨h.kind_eq, isRequested_some.2 hname, h.notMem⟩

/-- A name that is asked for is added by the same statements as in a listing. -/
theorem exposedName?_some_eq_some_iff (hname : name ∈ names) :
    s.exposedName? (some names) = some name ↔ s.exposedName? none = some name := by
  unfold Statement.exposedName?
  split
  · rename_i other hkind
    by_cases hother : other = name
    · subst hother
      simp [isRequested, hname]
    · -- neither the request nor the listing adds this name here
      split <;> simp [isRequested, hother]
  · exact Iff.rfl
  · exact Iff.rfl

/-- **Whatever is listed may be asked for**, and nothing else. -/
theorem exposed_some_of_exposed_none (h : m.exposed none = .ok listed) (names : List String) :
    ∃ exposed, m.exposed (some names) = .ok exposed ∧
      ∀ name ∈ names, name ∈ exposed ↔ name ∈ listed := by
  obtain ⟨hsurface, rfl⟩ := exposedAmong_eq_ok_iff.1 h
  refine ⟨_, exposedAmong_eq_ok_iff.2 ⟨fun s hs => (hsurface s hs).request _, rfl⟩,
    fun name hname => ?_⟩
  rw [List.mem_filterMap, List.mem_filterMap]
  exact exists_congr fun s => and_congr_right fun _ => exposedName?_some_eq_some_iff hname

/-- **A module that cannot be listed** fails alike for everyone who asks for the function at which
the listing fails. -/
theorem exposed_some_of_listing_fails (h : m.exposed none = .error failure) :
    ∃ function, failure = .exposedNotExported function m.path ∧
      ∀ names : List String, function ∈ names → m.exposed (some names) = .error failure := by
  obtain ⟨before, s, after, function, hstatements, hbefore, hs, rfl⟩ :=
    exposedAmong_eq_error_iff.1 h
  refine ⟨function, rfl, fun names hfunction => exposedAmong_eq_error_iff.2 ?_⟩
  exact ⟨before, s, after, function, hstatements, fun earlier he => (hbefore earlier he).request _,
    hs.request hfunction, rfl⟩

end RemoteImports.Module
