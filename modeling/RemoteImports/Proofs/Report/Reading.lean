import RemoteImports.Proofs.Text.Json
import RemoteImports.Report.Check

/-!
# Reading check reports back

A check report whose paths are texts can be read from its document
(`CheckReport.document_readable`): each part of it is looked up by its name, a file without rewrites
is one whose rewrites are not named, and likewise for the error. What is looked up does not depend
on the order in which the fields of an object stand, since no object names a field twice
(`CheckReport.distinctKeys_toJson`). The document of any other report breaks off
(`CheckReport.complete_written_iff`).
-/

namespace RemoteImports

/-! ## Parts of a value -/

namespace JsonValue

variable {α : Type}

/-- The field of an object with a name. -/
def lookup? (name : String) : JsonValue → Option JsonValue
  | object fields => fields.lookup name
  | _ => none

/-- The number that a value is. -/
def nat? : JsonValue → Option Nat
  | nat n => some n
  | _ => none

/-- The text that a value is. -/
def text? : JsonValue → Option String
  | text s => some s
  | _ => none

/-- The items of an array, all of which are read alike. -/
def list? (item? : JsonValue → Option α) : JsonValue → Option (List α)
  | array items => items.mapM item?
  | _ => none

/-- A field that may be left out. -/
def optional? (name : String) (absent : α) (read? : JsonValue → Option α) (value : JsonValue) :
    Option α :=
  match value.lookup? name with
  | none => some absent
  | some field => read? field

theorem list?_map (write : α → JsonValue) {item? : JsonValue → Option α} {as : List α}
    (h : ∀ a ∈ as, item? (write a) = some a) : list? item? (.array (as.map write)) = some as := by
  rw [list?, List.mapM_map]
  induction as with
  | nil => rfl
  | cons a as ih =>
    obtain ⟨ha, has⟩ := List.forall_mem_cons.1 h
    rw [List.mapM_cons, Function.comp_apply, ha, ih has]
    rfl

theorem text?_ofOsString (s : OsString) : (ofOsString s).text? = s.text? := by
  rw [ofOsString]
  cases s.text? <;> rfl

theorem DistinctKeys.ofOsString (s : OsString) : DistinctKeys (ofOsString s) := by
  rw [JsonValue.ofOsString]
  cases s.text? with
  | none => exact .unwritable
  | some t => exact .text t

theorem IsWritable.texts (items : List String) : IsWritable (texts items) := by
  refine .array fun item hitem => ?_
  obtain ⟨s, -, rfl⟩ := List.mem_map.1 hitem
  exact .text s

theorem DistinctKeys.texts (items : List String) : DistinctKeys (texts items) := by
  refine .array fun item hitem => ?_
  obtain ⟨s, -, rfl⟩ := List.mem_map.1 hitem
  exact .text s

theorem list?_texts (items : List String) : list? text? (texts items) = some items :=
  list?_map text fun _ _ => rfl

end JsonValue

open JsonValue

/-! ## Parts of a report -/

theorem FilePath.exists_mk_eq {p : FilePath} (h : p.IsUnicode) :
    ∃ text, p.text? = some text ∧ mk text = p := by
  obtain ⟨text, htext⟩ := h
  exact ⟨text, OsString.text?_eq_some_iff.2 htext, congrArg ofOsString htext.symm⟩

/-- The status with a name. -/
def FileStatus.ofLabel? (label : String) : Option FileStatus :=
  [unchanged, rewritten, failed].find? (·.label = label)

theorem FileStatus.ofLabel?_label (status : FileStatus) : ofLabel? status.label = some status := by
  cases status <;> decide

namespace RewriteSummary

/-- The rewrite that a value stands for. -/
def ofJson? (value : JsonValue) : Option RewriteSummary := do
  let line ← (value.lookup? "line").bind nat?
  let specifier ← (value.lookup? "specifier").bind text?
  let filename ← (value.lookup? "filename").bind text?
  let methods ← (value.lookup? "methods").bind (list? text?)
  return ⟨line, specifier, filename, methods⟩

theorem ofJson?_toJson (r : RewriteSummary) : ofJson? r.toJson = some r := by
  change ((list? text? (texts r.methods)).bind fun methods => some { r with methods }) = some r
  rw [list?_texts, Option.bind_some]

theorem distinctKeys_toJson (r : RewriteSummary) : DistinctKeys r.toJson := by
  refine .object (by simp) ?_
  simp only [List.forall_mem_cons]
  exact ⟨.nat r.line, .text r.specifier, .text r.filename, .texts r.methods,
    List.forall_mem_nil _⟩

theorem isWritable_toJson (r : RewriteSummary) : IsWritable r.toJson := by
  refine .object ?_
  simp only [List.forall_mem_cons]
  exact ⟨.nat r.line, .text r.specifier, .text r.filename, .texts r.methods,
    List.forall_mem_nil _⟩

end RewriteSummary

namespace FileResult

/-- The result for a file that a value stands for. -/
def ofJson? (value : JsonValue) : Option FileResult := do
  let path ← (value.lookup? "path").bind text?
  let status ← ((value.lookup? "status").bind text?).bind FileStatus.ofLabel?
  let rewrites ← value.optional? "rewrites" [] (list? RewriteSummary.ofJson?)
  let error ← value.optional? "error" none fun message => message.text?.map some
  return ⟨.mk path, status, rewrites, error⟩

/-- Rewrites that are left out are none. -/
theorem optional?_rewrites (file : FileResult) :
    file.toJson.optional? "rewrites" [] (list? RewriteSummary.ofJson?) = some file.rewrites := by
  obtain ⟨path, status, rewrites, error⟩ := file
  cases rewrites with
  | nil => cases error <;> rfl
  | cons r rest =>
    exact list?_map RewriteSummary.toJson fun r _ => r.ofJson?_toJson

/-- An error that is left out is none. -/
theorem optional?_error (file : FileResult) :
    (file.toJson.optional? "error" none fun message => message.text?.map some) =
      some file.error := by
  obtain ⟨path, status, rewrites, error⟩ := file
  cases rewrites <;> cases error <;> rfl

theorem ofJson?_toJson {file : FileResult} (h : file.path.IsUnicode) :
    ofJson? file.toJson = some file := by
  obtain ⟨path, hpath, hmk⟩ := FilePath.exists_mk_eq h
  change ((ofOsString file.path.toOsString).text?.bind fun path =>
    (FileStatus.ofLabel? file.status.label).bind fun status =>
      (file.toJson.optional? "rewrites" [] (list? RewriteSummary.ofJson?)).bind fun rewrites =>
        (file.toJson.optional? "error" none fun message => message.text?.map some).bind fun error =>
          some ⟨.mk path, status, rewrites, error⟩) = some file
  rw [text?_ofOsString, hpath, FileStatus.ofLabel?_label, optional?_rewrites, optional?_error]
  simp only [Option.bind_some, hmk]

/-- The values in a result: its path, its rewrites, and texts. -/
theorem forall_mem_fields {file : FileResult} {fields : List (String × JsonValue)}
    (h : file.toJson = .object fields) {P : JsonValue → Prop}
    (hpath : P (.ofOsString file.path.toOsString))
    (hrewrites : P (.array (file.rewrites.map RewriteSummary.toJson)))
    (htext : ∀ s, P (.text s)) : ∀ field ∈ fields, P field.2 := by
  cases h
  intro field hfield
  simp only [List.mem_append, List.mem_cons, List.not_mem_nil, or_false, List.mem_map] at hfield
  rcases hfield with ((rfl | rfl) | hfield) | ⟨message, -, rfl⟩
  · exact hpath
  · exact htext file.status.label
  · split at hfield
    · cases hfield
    · obtain rfl := List.mem_singleton.1 hfield
      exact hrewrites
  · exact htext message

theorem distinctKeys_toJson (file : FileResult) : DistinctKeys file.toJson := by
  refine .object ?_ <| forall_mem_fields rfl (.ofOsString file.path.toOsString)
    (.array (List.forall_mem_map.2 fun r _ => r.distinctKeys_toJson)) .text
  obtain ⟨path, status, rewrites, error⟩ := file
  by_cases hnil : rewrites = [] <;> cases error <;> simp [hnil]

/-- Only the path of a file may be no text. -/
theorem isWritable_toJson_iff {file : FileResult} :
    IsWritable file.toJson ↔ file.path.IsUnicode := by
  rw [toJson, isWritable_object_iff]
  constructor
  · exact fun h => isWritable_ofOsString_iff.1 (h _ List.mem_cons_self)
  · exact fun h => forall_mem_fields rfl (isWritable_ofOsString_iff.2 h)
      (.array (List.forall_mem_map.2 fun r _ => r.isWritable_toJson)) .text

end FileResult

namespace CheckReport

/-- All paths of a report encode texts. -/
structure HasUnicodePaths (report : CheckReport) : Prop where
  root : report.root.IsUnicode
  backendRoot : report.backendRoot.IsUnicode
  files : ∀ file ∈ report.files, file.path.IsUnicode

theorem hasUnicodePaths_iff (report : CheckReport) :
    report.HasUnicodePaths ↔ report.root.IsUnicode ∧ report.backendRoot.IsUnicode ∧
      ∀ file ∈ report.files, file.path.IsUnicode :=
  ⟨fun h => ⟨h.root, h.backendRoot, h.files⟩, fun h => ⟨h.1, h.2.1, h.2.2⟩⟩

instance (report : CheckReport) : Decidable report.HasUnicodePaths :=
  decidable_of_iff' _ report.hasUnicodePaths_iff

/-- The report that a value stands for. -/
def ofJson? (value : JsonValue) : Option CheckReport := do
  let metadata ← value.lookup? "metadata"
  let root ← (metadata.lookup? "root").bind text?
  let backendRoot ← (metadata.lookup? "backend_root").bind text?
  let filesChecked ← (metadata.lookup? "files_checked").bind nat?
  let filesRewritten ← (metadata.lookup? "files_rewritten").bind nat?
  let filesFailed ← (metadata.lookup? "files_failed").bind nat?
  let filesSkipped ← (metadata.lookup? "files_skipped").bind nat?
  let importsRewritten ← (metadata.lookup? "imports_rewritten").bind nat?
  let elapsedMs ← (metadata.lookup? "elapsed_ms").bind nat?
  let files ← (value.lookup? "files").bind (list? FileResult.ofJson?)
  return ⟨.mk root, .mk backendRoot, filesChecked, filesRewritten, filesFailed, filesSkipped,
    importsRewritten, elapsedMs, files⟩

variable {report : CheckReport}

theorem ofJson?_toJson (h : report.HasUnicodePaths) : ofJson? report.toJson = some report := by
  obtain ⟨root, hroot, hmkRoot⟩ := FilePath.exists_mk_eq h.root
  obtain ⟨backendRoot, hbackend, hmkBackend⟩ := FilePath.exists_mk_eq h.backendRoot
  have hfiles := list?_map FileResult.toJson fun file hfile =>
    FileResult.ofJson?_toJson (h.files file hfile)
  change ((ofOsString report.root.toOsString).text?.bind fun root =>
    (ofOsString report.backendRoot.toOsString).text?.bind fun backendRoot =>
      (list? FileResult.ofJson? (.array (report.files.map FileResult.toJson))).bind fun files =>
        some { report with root := .mk root, backendRoot := .mk backendRoot, files }) = some report
  rw [text?_ofOsString, text?_ofOsString, hroot, hbackend, hfiles]
  simp only [Option.bind_some, hmkRoot, hmkBackend]

theorem distinctKeys_toJson (report : CheckReport) : DistinctKeys report.toJson := by
  have hfiles : DistinctKeys (.array (report.files.map FileResult.toJson)) :=
    .array (List.forall_mem_map.2 fun file _ => file.distinctKeys_toJson)
  refine .object (by simp) ?_
  simp only [List.forall_mem_cons]
  refine ⟨.object (by simp) ?_, hfiles, List.forall_mem_nil _⟩
  simp only [List.forall_mem_cons]
  exact ⟨.ofOsString report.root.toOsString, .ofOsString report.backendRoot.toOsString, .nat _,
    .nat _, .nat _, .nat _, .nat _, .nat _, List.forall_mem_nil _⟩

/-- The report that a document stands for. -/
def read? (document : String) : Option CheckReport := (JsonValue.read? document).bind ofJson?

theorem isWritable_toJson_iff : IsWritable report.toJson ↔ report.HasUnicodePaths := by
  rw [toJson, isWritable_object_iff]
  simp only [List.forall_mem_cons, isWritable_object_iff, isWritable_array_iff, List.forall_mem_map,
    isWritable_ofOsString_iff, FileResult.isWritable_toJson_iff]
  rw [hasUnicodePaths_iff]
  constructor
  · rintro ⟨⟨hroot, hbackend, -⟩, hfiles, -⟩
    exact ⟨hroot, hbackend, hfiles⟩
  · rintro ⟨hroot, hbackend, hfiles⟩
    refine ⟨⟨hroot, hbackend, ?_⟩, hfiles, List.forall_mem_nil _⟩
    exact ⟨.nat _, .nat _, .nat _, .nat _, .nat _, .nat _, List.forall_mem_nil _⟩

/-- **The document of a report is complete** if all its paths encode texts, and only then. -/
theorem complete_written_iff : report.toJson.written.complete ↔ report.HasUnicodePaths := by
  rw [written, complete_append, complete_render_iff, isWritable_toJson_iff]
  exact and_iff_left rfl

theorem document_eq (h : report.HasUnicodePaths) :
    report.toJson.document = (render 0 report.toJson).text ++ "\n" :=
  text_append ((complete_render_iff 0 report.toJson).2 (isWritable_toJson_iff.2 h))

theorem read?_document (h : report.HasUnicodePaths) :
    read? report.toJson.document = some report := by
  have hread := read?_of_isText (isText_render 0 report.toJson (isWritable_toJson_iff.2 h))
  rw [String.ofList_append, String.ofList_toList] at hread
  rw [read?, document_eq h, hread, Option.bind_some, ofJson?_toJson h]

/-- **A check report can be read back** from its document, if its paths encode texts: the document
is a text of one value and a line feed. Whatever value the text is taken for, it stands for the
report, so no other report is written alike. -/
theorem document_readable (h : report.HasUnicodePaths) :
    report.toJson.written.complete ∧
    (∃ text, report.toJson.document.toList = text ++ ['\n'] ∧ IsText report.toJson text ∧
      ∀ value, IsText value text → ofJson? value = some report) ∧
    DistinctKeys report.toJson ∧
    read? report.toJson.document = some report ∧
    ∀ other : CheckReport, other.HasUnicodePaths →
      other.toJson.document = report.toJson.document → other = report := by
  have htext := isText_render 0 report.toJson (isWritable_toJson_iff.2 h)
  refine ⟨complete_written_iff.2 h, ⟨(render 0 report.toJson).text.toList, ?_, htext,
    fun value hvalue => ?_⟩, report.distinctKeys_toJson, read?_document h,
    fun other hpaths hother => ?_⟩
  · rw [document_eq h, String.toList_append]
    rfl
  · rw [hvalue.unique htext, ofJson?_toJson h]
  · have hread := read?_document hpaths
    rw [hother, read?_document h] at hread
    exact (Option.some.inj hread).symm

theorem read?_small :
    read? (toJson ⟨⟨"/app"⟩, ⟨"/app/backend"⟩, 1, 0, 1, 0, 0, 7,
        [⟨⟨"main.js"⟩, .failed, [], some "no \"now\"\n"⟩]⟩).document =
      some ⟨⟨"/app"⟩, ⟨"/app/backend"⟩, 1, 0, 1, 0, 0, 7,
        [⟨⟨"main.js"⟩, .failed, [], some "no \"now\"\n"⟩]⟩ :=
  (document_readable ⟨⟨"/app", rfl⟩, ⟨"/app/backend", rfl⟩,
    List.forall_mem_singleton.2 ⟨"main.js", rfl⟩⟩).2.2.2.1

end CheckReport

end RemoteImports
