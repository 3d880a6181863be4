import MagicLaw.Lib.TextLines
import MagicLaw.Push.Csv
import MagicLaw.Push.Jobs
import MagicLaw.Push.Records

/-!
# The import files

`import_bindings_jsonl` and `import_bindings_csv` of `application/binding.rs`,
and `parse_pushes_jsonl` and `parse_pushes_csv` of `application/push.rs`.  A
file is what `fs::read_to_string` yields for its path, and `serde_json` on a
line is a parameter.

* `parsePushesCsv_pushesCsv`: which push records come back from the file
  they are written to.
* `importBindingsCsv_accounts`: what the import of any file does, and what its
  summary says, whatever fails.
* `bindings_formats_agree`: the two formats of the same records are imported by
  the same calls.
-/

namespace MagicLaw.Push

open Lib Lib.Program
open Lib.Text (trim isBlank isWhitespace split trim_trim trim_eq_self)
open Lib.TextLines

/-! ## Lines with numbers -/

structure PushImportRecord where
  projectKey : String
  mode : String
  messageText : String
  targetTargets : List DeliveryTarget
  deriving DecidableEq

/-- `serde_json::from_str` on a line. -/
structure LineSerde where
  push : String → Except String PushImportRecord
  binding : String → Except String BindingImportRecord

/-- The lines that are not blank, numbered from a number on. -/
def numbered (first : Nat) (ls : List String) : List (String × Nat) :=
  (ls.zipIdx first).filter fun line => !isBlank line.1

/-- An error with the number of its line. -/
def atLine {α : Type} (n : Nat) (result : Except String α) : Except String α :=
  result.mapError fun e => s!"line {n}: {e}"

def orParseError {α : Type} (result : Except String α) : Except String α :=
  result.mapError fun e => s!"parse error: {e}"

/-- `fs::read_to_string` -/
def readFile (path : String) (file : Except String String) : Except String String :=
  file.mapError fun e => s!"read {path} failed: {e}"

/-- The lines of a JSONL file. -/
def jsonlRows (content : String) : List (String × Nat) := numbered 1 (lines content)

/-- The lines of a CSV file after its header. -/
def csvRows (content : String) : List (String × Nat) := numbered 2 (lines content).tail

/-! ## Push records -/

/-- The loop over the lines, which ends at the first error. -/
def parseRows {α : Type} (parse : String → Except String α) (rows : List (String × Nat)) :
    Except String (List α) :=
  rows.mapM fun (line, n) => atLine n (parse line)

theorem parseRows_cons_ok {α : Type} {parse : String → Except String α} {line : String} {a : α}
    (h : parse line = .ok a) (n : Nat) (rows : List (String × Nat)) :
    parseRows parse ((line, n) :: rows) = (parseRows parse rows).map (a :: ·) := by
  unfold parseRows
  rw [List.mapM_cons]
  show (atLine n (parse line) >>= _) = _
  rw [h]
  show (_ >>= _) = _
  cases List.mapM (fun row : String × Nat => atLine row.2 (parse row.1)) rows <;> rfl

theorem parseRows_cons_error {α : Type} {parse : String → Except String α} {line e : String}
    (h : parse line = .error e) (n : Nat) (rows : List (String × Nat)) :
    parseRows parse ((line, n) :: rows) = .error s!"line {n}: {e}" := by
  unfold parseRows
  rw [List.mapM_cons]
  show (atLine n (parse line) >>= _) = _
  rw [h]
  rfl

def parsePushesJsonl (serde : LineSerde) (path : String) (file : Except String String) :
    Except String (List PushImportRecord) := do
  let content ← readFile path file
  parseRows (fun line => orParseError (serde.push (trim line))) (jsonlRows content)

/-- A row of the CSV file. -/
def pushRow (line : String) : Except String PushImportRecord :=
  match parseCsvLine line with
  | projectKey :: mode :: targets :: messageText :: _ =>
    (parseTargetSegments targets).map fun targetTargets =>
      ⟨projectKey, mode, messageText, targetTargets⟩
  | fields => .error s!"expected 4 columns, got {fields.length}"

def parsePushesCsv (path : String) (file : Except String String) :
    Except String (List PushImportRecord) := do
  let content ← readFile path file
  parseRows pushRow (csvRows content)

/-! ## Bindings -/

structure ImportSummary where
  total : Nat
  success : Nat
  failed : Nat
  errors : List String
  deriving DecidableEq

def ImportSummary.default : ImportSummary := ⟨0, 0, 0, []⟩

/-- The summary after one more record. -/
def ImportSummary.add (summary : ImportSummary) : Except String Unit → ImportSummary
  | .ok () => { summary with
      total := summary.total + 1
      success := summary.success + 1 }
  | .error e => { summary with
      total := summary.total + 1
      failed := summary.failed + 1
      errors := summary.errors ++ [e] }

/-- A row of the CSV file. -/
def bindingRow (line : String) : Except String BindingImportRecord :=
  match parseCsvLine line with
  | projectKey :: channel :: peerId :: conversationId :: conversationType :: rest =>
    .ok
      { projectKey := projectKey
        channel := channel
        peerId := peerId
        conversationId := conversationId
        conversationType := conversationType
        bindSource := (rest.head?.filter fun s => trim s ≠ "").getD "import"
        projectName := none
        accountScope := none }
  | fields => .error s!"expected >=5 columns, got {fields.length}"

/-- The loop over the lines.  A line that fails does not stop it. -/
def importRows (parse : String → Except String BindingImportRecord) :
    List (String × Nat) → ImportSummary → Work ImportSummary
  | [], summary => pure summary
  | (line, n) :: rows, summary =>
    match parse line with
    | .error e => importRows parse rows (summary.add (atLine n (.error e)))
    | .ok record => do
      let r ← applyBindingRecord record
      importRows parse rows (summary.add (atLine n r))

def importBindingsJsonl (serde : LineSerde) (path : String) (file : Except String String) :
    Work (Except String ImportSummary) := do
  match readFile path file with
  | .error e => return .error e
  | .ok content =>
    let summary ← importRows (fun line => orParseError (serde.binding (trim line)))
      (jsonlRows content) .default
    return .ok summary

def importBindingsCsv (path : String) (file : Except String String) :
    Work (Except String ImportSummary) := do
  match readFile path file with
  | .error e => return .error e
  | .ok content =>
    let summary ← importRows bindingRow (csvRows content) .default
    return .ok summary

/-- The import of a file that can be read. -/
theorem importBindingsCsv_ok (path content : String) :
    importBindingsCsv path (.ok content) =
      importRows bindingRow (csvRows content) .default >>= fun summary => pure (.ok summary) := rfl

theorem importBindingsJsonl_ok (serde : LineSerde) (path content : String) :
    importBindingsJsonl serde path (.ok content) =
      importRows (fun line => orParseError (serde.binding (trim line))) (jsonlRows content) .default
        >>= fun summary => pure (.ok summary) := rfl

/-! ## What a file is imported as -/

section Rows

variable {parse : String → Except String BindingImportRecord}

/-- The records of the lines that can be read. -/
def rowRecords (parse : String → Except String BindingImportRecord) (rows : List (String × Nat)) :
    List BindingImportRecord :=
  rows.filterMap fun row => (parse row.1).toOption

/-- What became of each line, when `results` is what became of the records of
those that can be read. -/
def rowResults (parse : String → Except String BindingImportRecord) :
    List (String × Nat) → List (Except String Unit) → List (Except String Unit)
  | [], _ => []
  | (line, n) :: rows, results =>
    match parse line with
    | .error e => atLine n (.error e) :: rowResults parse rows results
    | .ok _ => atLine n (results.headD (.ok ())) :: rowResults parse rows results.tail

/-- The loop applies the records and counts what became of the lines. -/
theorem importRows_eq (rows : List (String × Nat)) (summary : ImportSummary) :
    importRows parse rows summary = do
      let results ← applyRecords (rowRecords parse rows)
      return (rowResults parse rows results).foldl ImportSummary.add summary := by
  induction rows generalizing summary with
  | nil => rfl
  | cons row rows ih =>
    obtain ⟨line, n⟩ := row
    unfold importRows rowRecords rowResults
    rw [List.filterMap_cons]
    cases hparse : parse line with
    | error e => exact ih _
    | ok record =>
      show (applyBindingRecord record >>= fun r => importRows parse rows (summary.add (atLine n r))) = _
      simp only [ih]
      show _ = (applyBindingRecord record >>= fun r =>
        applyRecords (rowRecords parse rows) >>= fun rs => pure (r :: rs)) >>= _
      simp only [bind_assoc, pure_bind]
      rfl

/-- One result for each record. -/
theorem length_applyRecords (records : List BindingImportRecord) (fs : Nat → Outcome)
    (db : Database) :
    ((applyRecords records).play handle fs db).1.length = records.length := by
  have hwp : ∀ s, wp handle anyOutcome (fun rs _ => rs.length = records.length)
      (applyRecords records) s := by
    induction records with
    | nil => exact fun s => rfl
    | cons record records ih =>
      intro s
      unfold applyRecords
      rw [wp_bind]
      refine wp_mono (fun r t _ => ?_) (wp_anyOutcome_true _ s)
      rw [wp_bind]
      exact wp_mono (fun rs _ hrs => congrArg (· + 1) hrs) (ih t)
  exact play_of_wp (hwp db) fs

/-- The error of a line that failed. -/
def error? : Except String Unit → Option String
  | .ok () => none
  | .error e => some e

/-- The errors of the lines that failed. -/
def errorsOf (results : List (Except String Unit)) : List String := results.filterMap error?

@[simp] theorem errorsOf_ok (results : List (Except String Unit)) :
    errorsOf (.ok () :: results) = errorsOf results := rfl

@[simp] theorem errorsOf_error (e : String) (results : List (Except String Unit)) :
    errorsOf (.error e :: results) = e :: errorsOf results := rfl

theorem foldl_add (results : List (Except String Unit)) (summary : ImportSummary) :
    results.foldl ImportSummary.add summary =
      { total := summary.total + results.length
        success := summary.success + results.countP fun r => r = .ok ()
        failed := summary.failed + (errorsOf results).length
        errors := summary.errors ++ errorsOf results } := by
  induction results generalizing summary with
  | nil => simp [errorsOf]
  | cons r results ih =>
    rw [List.foldl_cons, ih, List.countP_cons, List.length_cons]
    cases r with
    | ok u =>
      rw [errorsOf_ok]
      simp only [ImportSummary.add, decide_true, if_true, ImportSummary.mk.injEq, and_true]
      omega
    | error e =>
      rw [errorsOf_error]
      simp only [ImportSummary.add, reduceCtorEq, decide_false, Bool.false_eq_true, if_false,
        ImportSummary.mk.injEq, List.append_assoc, List.singleton_append, List.length_cons, and_true]
      omega

theorem length_rowResults (rows : List (String × Nat)) (results : List (Except String Unit)) :
    (rowResults parse rows results).length = rows.length := by
  induction rows generalizing results with
  | nil => rfl
  | cons row rows ih =>
    unfold rowResults
    cases parse row.1 with
    | error e => exact congrArg (· + 1) (ih _)
    | ok record => exact congrArg (· + 1) (ih _)

theorem ok_or_error (results : List (Except String Unit)) :
    (results.countP fun r => r = .ok ()) + (errorsOf results).length = results.length := by
  induction results with
  | nil => rfl
  | cons r results ih =>
    rw [List.countP_cons, List.length_cons]
    cases r with
    | ok u =>
      rw [errorsOf_ok, if_pos (by simp), ← ih]
      omega
    | error e =>
      rw [errorsOf_error, if_neg (by simp), List.length_cons, ← ih]
      omega

theorem atLine_eq_ok_iff {n : Nat} {r : Except String Unit} : atLine n r = .ok () ↔ r = .ok () := by
  cases r <;> simp [atLine, Except.mapError]

/-- The lines that succeed are those whose records do. -/
theorem countP_rowResults {rows : List (String × Nat)} {results : List (Except String Unit)}
    (hlength : results.length = (rowRecords parse rows).length) :
    ((rowResults parse rows results).countP fun r => r = .ok ()) =
      results.countP fun r => r = .ok () := by
  induction rows generalizing results with
  | nil =>
    rw [List.length_eq_zero_iff.mp hlength]
    rfl
  | cons row rows ih =>
    unfold rowRecords at hlength
    unfold rowResults
    rw [List.filterMap_cons] at hlength
    cases hparse : parse row.1 with
    | error e =>
      rw [hparse] at hlength
      dsimp only
      rw [List.countP_cons_of_neg (by simp [atLine, Except.mapError]), ih hlength]
    | ok record =>
      rw [hparse] at hlength
      obtain ⟨r, results, rfl⟩ := List.exists_cons_of_length_eq_add_one hlength
      dsimp only [List.headD_cons, List.tail_cons]
      rw [List.countP_cons, List.countP_cons, ih (Nat.succ.inj hlength)]
      simp only [atLine_eq_ok_iff]

/-- What became of each line, when `results` is what became of the records of
those that can be read: its own error, or what became of its own record. -/
inductive LineOutcomes (parse : String → Except String BindingImportRecord) :
    List (String × Nat) → List (Except String Unit) → List (Except String Unit) → Prop where
  | nil : LineOutcomes parse [] [] []
  | unread {row : String × Nat} {rows : List (String × Nat)}
      {results outcomes : List (Except String Unit)} {e : String} (h : parse row.1 = .error e)
      (hrest : LineOutcomes parse rows results outcomes) :
      LineOutcomes parse (row :: rows) results (.error e :: outcomes)
  | read {row : String × Nat} {rows : List (String × Nat)} {r : Except String Unit}
      {results outcomes : List (Except String Unit)} {record : BindingImportRecord}
      (h : parse row.1 = .ok record) (hrest : LineOutcomes parse rows results outcomes) :
      LineOutcomes parse (row :: rows) (r :: results) (r :: outcomes)

/-- Each line is reported with its number and its own outcome. -/
theorem exists_lineOutcomes {rows : List (String × Nat)} {results : List (Except String Unit)}
    (hlength : results.length = (rowRecords parse rows).length) :
    ∃ outcomes, LineOutcomes parse rows results outcomes ∧
      rowResults parse rows results =
        List.zipWith (fun row outcome => atLine row.2 outcome) rows outcomes := by
  induction rows generalizing results with
  | nil =>
    rw [List.length_eq_zero_iff.mp hlength]
    exact ⟨[], .nil, rfl⟩
  | cons row rows ih =>
    unfold rowRecords at hlength
    unfold rowResults
    rw [List.filterMap_cons] at hlength
    cases hparse : parse row.1 with
    | error e =>
      rw [hparse] at hlength
      obtain ⟨outcomes, houtcomes, hresults⟩ := ih hlength
      exact ⟨.error e :: outcomes, .unread hparse houtcomes, congrArg (_ :: ·) hresults⟩
    | ok record =>
      rw [hparse] at hlength
      obtain ⟨r, results, rfl⟩ := List.exists_cons_of_length_eq_add_one hlength
      obtain ⟨outcomes, houtcomes, hresults⟩ := ih (Nat.succ.inj hlength)
      exact ⟨r :: outcomes, .read hparse houtcomes, congrArg (_ :: ·) hresults⟩

/-- What a summary says of the lines of a file, when `results` is what became
of the records of those that can be read. -/
structure Accounts (parse : String → Except String BindingImportRecord) (rows : List (String × Nat))
    (results : List (Except String Unit)) (summary : ImportSummary) : Prop where
  total : summary.total = rows.length
  counts : summary.success + summary.failed = rows.length
  success : summary.success = results.countP fun r => r = .ok ()
  failed : summary.failed = summary.errors.length
  /-- the errors of the lines that failed, in their order, each with the number
  of its line -/
  errors : ∃ outcomes, LineOutcomes parse rows results outcomes ∧
    summary.errors =
      errorsOf (List.zipWith (fun row outcome => atLine row.2 outcome) rows outcomes)

theorem accounts_foldl {rows : List (String × Nat)} {results : List (Except String Unit)}
    (hlength : results.length = (rowRecords parse rows).length) :
    Accounts parse rows results
      ((rowResults parse rows results).foldl ImportSummary.add .default) := by
  rw [foldl_add]
  constructor
  · simp [ImportSummary.default, length_rowResults]
  · have hall := ok_or_error (rowResults parse rows results)
    rw [length_rowResults] at hall
    simpa [ImportSummary.default] using hall
  · simp [ImportSummary.default, countP_rowResults hlength]
  · simp [ImportSummary.default]
  · obtain ⟨outcomes, houtcomes, hresults⟩ := exists_lineOutcomes hlength
    exact ⟨outcomes, houtcomes, congrArg errorsOf hresults⟩

variable (parse) in
/-- The import of the rows applies their records, whatever fails. -/
theorem play_importRows (rows : List (String × Nat)) (fs : Nat → Outcome) (db : Database) :
    let applied := (applyRecords (rowRecords parse rows)).play handle fs db
    ∃ summary, (importRows parse rows .default).play handle fs db = (summary, applied.2) ∧
      Accounts parse rows applied.1 summary := by
  rw [importRows_eq]
  exact ⟨_, play_bind_pure _ _ _ _, accounts_foldl (length_applyRecords _ fs db)⟩

end Rows

/-- No line is numbered twice. -/
theorem numbered_pairwise (first : Nat) (ls : List String) :
    (numbered first ls).Pairwise fun a b => a.2 < b.2 := by
  have hnumbers : ((ls.zipIdx first).map Prod.snd).Pairwise (· < ·) := by
    rw [List.zipIdx_map_snd]
    exact List.pairwise_lt_range'
  exact (List.pairwise_map.mp hnumbers).filter _

/-- Whatever the file holds and whatever fails, the import of a CSV file does
what applying the records of its lines does, one after the other.  Its summary
counts every line that is not blank once, as a success or as a failure, and
each error names the line that it is of. -/
theorem importBindingsCsv_accounts (path content : String) (fs : Nat → Outcome) (db : Database) :
    let applied := (applyRecords (rowRecords bindingRow (csvRows content))).play handle fs db
    ∃ summary,
      (importBindingsCsv path (.ok content)).play handle fs db = (.ok summary, applied.2) ∧
      Accounts bindingRow (csvRows content) applied.1 summary ∧
      (csvRows content).Pairwise fun a b => a.2 < b.2 := by
  obtain ⟨summary, hplay, haccounts⟩ := play_importRows bindingRow (csvRows content) fs db
  refine ⟨summary, ?_, haccounts, numbered_pairwise 2 _⟩
  rw [importBindingsCsv_ok, play_bind_pure, hplay]

/-! ## Files that are written -/

section Written

/-- The text does not end a line. -/
def OneLine (text : String) : Prop := '\n' ∉ text.toList

theorem eq_or_mem_of_mem_intercalate {c sep : Char} {parts : List (List Char)}
    (h : c ∈ [sep].intercalate parts) : c = sep ∨ ∃ part ∈ parts, c ∈ part := by
  induction parts with
  | nil => exact nomatch h
  | cons part parts ih =>
    cases parts with
    | nil =>
      rw [List.intercalate_singleton] at h
      exact .inr ⟨part, List.mem_cons_self, h⟩
    | cons next parts =>
      rw [List.intercalate_cons_cons, List.mem_append, List.mem_append, List.mem_singleton] at h
      rcases h with (hpart | hsep) | hrest
      · exact .inr ⟨part, List.mem_cons_self, hpart⟩
      · exact .inl hsep
      · exact (ih hrest).imp_right fun ⟨other, hother, hc⟩ =>
          ⟨other, List.mem_cons_of_mem _ hother, hc⟩

/-- Doubling the quotes adds nothing but quotes. -/
theorem mem_quoted {c : Char} {field : List Char} (h : c ∈ quoted field) : c = '"' ∨ c ∈ field := by
  simp only [quoted, doubled, List.cons_append, List.mem_cons, List.mem_append, List.mem_flatMap,
    List.not_mem_nil, or_false] at h
  rcases h with rfl | ⟨d, hd, hc⟩ | rfl
  · exact .inl rfl
  · split at hc
    · simp only [List.mem_cons, List.not_mem_nil, or_false, or_self] at hc
      exact .inl hc
    · rw [List.mem_singleton] at hc
      exact .inr (hc ▸ hd)
  · exact .inl rfl

/-- Fields in quotes are one line, and it is not blank. -/
theorem isLine_csvLine {fields : List String} (hne : fields ≠ [])
    (h : ∀ field ∈ fields, OneLine field) :
    IsLine (csvLine fields) ∧ isBlank (csvLine fields) = false := by
  have hquotes : ∀ part ∈ fields.map (fun field => quoted field.toList), part ≠ [] ∧
      (∀ c ∈ part.head?, c = '"') ∧ ∀ c ∈ part.getLast?, c = '"' := by
    intro part hpart
    obtain ⟨field, -, rfl⟩ := List.mem_map.mp hpart
    refine ⟨List.cons_ne_nil _ _, fun c hc => ?_, fun c hc => ?_⟩
    · exact (Option.mem_some.mp hc).symm
    · rw [quoted, List.getLast?_concat] at hc
      exact (Option.mem_some.mp hc).symm
  obtain ⟨hfirst, hlast⟩ := ends_intercalate ',' (by simpa using hne) hquotes
  have hletters : (csvLine fields).toList =
      [','].intercalate (fields.map fun field => quoted field.toList) := String.toList_ofList
  refine ⟨⟨fun hmem => ?_, fun hreturn => ?_⟩, ?_⟩
  · rw [hletters] at hmem
    rcases eq_or_mem_of_mem_intercalate hmem with hsep | ⟨part, hpart, hc⟩
    · exact absurd hsep (by decide)
    · obtain ⟨field, hfield, rfl⟩ := List.mem_map.mp hpart
      rcases mem_quoted hc with hquote | hc
      · exact absurd hquote (by decide)
      · exact h field hfield hc
  · rw [hletters] at hreturn
    exact absurd (hlast _ hreturn) (by decide)
  · have htrim : trim (csvLine fields) = csvLine fields := by
      apply Text.trim_eq_self_of_ends
      · intro c hc
        rw [hfirst c (hletters ▸ hc)]
        decide
      · intro c hc
        rw [hlast c (hletters ▸ hc)]
        decide
    apply decide_eq_false
    rw [htrim]
    intro hempty
    rw [hempty] at hletters
    obtain ⟨field, rest, rfl⟩ := List.exists_cons_of_ne_nil hne
    cases rest with
    | nil => simp [quoted] at hletters
    | cons next rest => simp [quoted, List.intercalate_cons_cons] at hletters

/-- Lines that are not blank are all numbered. -/
theorem numbered_eq {ls : List String} (h : ∀ line ∈ ls, isBlank line = false) (first : Nat) :
    numbered first ls = ls.zipIdx first := by
  unfold numbered
  rw [List.filter_eq_self]
  intro line hline
  have hmem := List.fst_mem_of_mem_zipIdx hline
  simp [h _ hmem]

/-- The columns of a binding record that a CSV file has. -/
def BindingImportRecord.row (record : BindingImportRecord) : String :=
  csvLine [record.projectKey, record.channel, record.peerId, record.conversationId,
    record.conversationType, record.bindSource]

def bindingsHeader : String :=
  "project_key,channel,peer_id,conversation_id,conversation_type,bind_source"

def bindingsCsv (eol : LineEnd) (records : List BindingImportRecord) : String :=
  terminated eol (bindingsHeader :: records.map BindingImportRecord.row)

def bindingsJsonl (eol : LineEnd) (write : BindingImportRecord → String)
    (records : List BindingImportRecord) : String :=
  terminated eol (records.map write)

/-- The record can be written to a CSV file: it has no other columns, and each
is one line. -/
structure BindingImportRecord.Writable (record : BindingImportRecord) : Prop where
  projectKey : OneLine record.projectKey
  channel : OneLine record.channel
  peerId : OneLine record.peerId
  conversationId : OneLine record.conversationId
  conversationType : OneLine record.conversationType
  bindSource : OneLine record.bindSource
  projectName : record.projectName = none
  accountScope : record.accountScope = none

/-- `serde_json` writes the record on one line and reads it back. -/
structure WrittenBy (serde : LineSerde) (write : BindingImportRecord → String)
    (record : BindingImportRecord) : Prop where
  isLine : IsLine (write record)
  notBlank : isBlank (write record) = false
  read : serde.binding (trim (write record)) = .ok record

/-- The record as it comes back from a CSV file. -/
def BindingImportRecord.trimmed (record : BindingImportRecord) : BindingImportRecord where
  projectKey := trim record.projectKey
  channel := trim record.channel
  peerId := trim record.peerId
  conversationId := trim record.conversationId
  conversationType := trim record.conversationType
  bindSource := if trim record.bindSource = "" then "import" else trim record.bindSource
  projectName := none
  accountScope := none

theorem bindingRow_row (record : BindingImportRecord) :
    bindingRow record.row = .ok record.trimmed := by
  unfold bindingRow BindingImportRecord.row
  rw [parseCsvLine_quoted (List.cons_ne_nil _ _)]
  simp only [List.map_cons, List.map_nil, List.head?_cons, Option.filter_some, trim_trim,
    BindingImportRecord.trimmed]
  by_cases hsource : trim record.bindSource = ""
  · simp [hsource]
  · simp [hsource]

/-- The import trims the columns anyway. -/
theorem applyBindingRecord_trimmed {record : BindingImportRecord} (h : record.Writable) :
    applyBindingRecord record.trimmed = applyBindingRecord record := by
  have htarget : record.trimmed.target = record.target := by
    simp [BindingImportRecord.target, BindingImportRecord.trimmed, h.accountScope]
  have hproject : ensureProject (trim record.projectKey) none =
      ensureProject record.projectKey none := by
    unfold ensureProject
    rw [trim_trim]
  have hsource : (if trim record.trimmed.bindSource = "" then "import"
      else trim record.trimmed.bindSource) =
      if trim record.bindSource = "" then "import" else trim record.bindSource := by
    unfold BindingImportRecord.trimmed
    by_cases hblank : trim record.bindSource = ""
    · simp only [if_pos hblank]
      decide
    · simp only [if_neg hblank, trim_trim]
  have hkey : trim record.trimmed.projectKey = trim record.projectKey := trim_trim _
  have hname : record.trimmed.projectName = none := rfl
  have hkey' : record.trimmed.projectKey = trim record.projectKey := rfl
  unfold applyBindingRecord
  rw [htarget, hsource, hkey, hname, h.projectName, hkey', hproject]

/-- The summary of a file whose lines all have records, from a number on. -/
def summaryFrom (first : Nat) (results : List (Except String Unit)) : ImportSummary :=
  ((results.zipIdx first).map fun (r, n) => atLine n r).foldl ImportSummary.add .default

/-- A file of which every line has a record. -/
theorem importRows_records {parse : String → Except String BindingImportRecord}
    (records : List BindingImportRecord) (write : BindingImportRecord → String)
    (read : BindingImportRecord → BindingImportRecord)
    (hread : ∀ record ∈ records, parse (write record) = .ok (read record))
    (happly : ∀ record ∈ records, applyBindingRecord (read record) = applyBindingRecord record)
    (first : Nat) (summary : ImportSummary) :
    importRows parse ((records.map write).zipIdx first) summary = do
      let results ← applyRecords records
      return ((results.zipIdx first).map fun (r, n) => atLine n r).foldl ImportSummary.add
        summary := by
  induction records generalizing first summary with
  | nil => rfl
  | cons record records ih =>
    rw [List.forall_mem_cons] at hread happly
    rw [List.map_cons, List.zipIdx_cons, importRows, hread.1]
    show (applyBindingRecord (read record) >>= fun r =>
      importRows parse ((records.map write).zipIdx (first + 1)) (summary.add (atLine first r))) = _
    rw [happly.1]
    simp only [ih hread.2 happly.2]
    show _ = (applyBindingRecord record >>= fun r =>
      applyRecords records >>= fun rs => pure (r :: rs)) >>= _
    simp only [bind_assoc, pure_bind]
    rfl

/-- The records of a CSV file and those of a JSONL file, with whatever line
ends, are imported by the same calls in the same order, so whatever fails or
runs in between, the two imports leave the same.  Their summaries differ in the
numbers of the lines alone. -/
theorem bindings_formats_agree {serde : LineSerde} {write : BindingImportRecord → String}
    {records : List BindingImportRecord} (hcsv : ∀ record ∈ records, record.Writable)
    (hjsonl : ∀ record ∈ records, WrittenBy serde write record) (eol eol' : LineEnd)
    (path path' : String) :
    importBindingsCsv path (.ok (bindingsCsv eol records)) = (do
        let results ← applyRecords records
        return .ok (summaryFrom 2 results)) ∧
      importBindingsJsonl serde path' (.ok (bindingsJsonl eol' write records)) = (do
        let results ← applyRecords records
        return .ok (summaryFrom 1 results)) := by
  have hrows : ∀ line ∈ records.map BindingImportRecord.row, IsLine line ∧ isBlank line = false := by
    intro line hline
    obtain ⟨record, hrecord, rfl⟩ := List.mem_map.mp hline
    have h := hcsv record hrecord
    refine isLine_csvLine (List.cons_ne_nil _ _) ?_
    simp only [List.mem_cons, List.not_mem_nil, or_false, forall_eq_or_imp, forall_eq]
    exact ⟨h.projectKey, h.channel, h.peerId, h.conversationId, h.conversationType, h.bindSource⟩
  have hheader : IsLine bindingsHeader := ⟨by decide, by decide⟩
  constructor
  · have hlines : lines (bindingsCsv eol records) =
        bindingsHeader :: records.map BindingImportRecord.row := by
      refine lines_terminated eol (List.forall_mem_cons.mpr ⟨hheader, ?_⟩)
      exact fun line hline => (hrows line hline).1
    have hnumbered := numbered_eq (fun line hline => (hrows line hline).2) 2
    rw [importBindingsCsv_ok, csvRows, hlines, List.tail_cons, hnumbered,
      importRows_records records _ _ (fun record _ => bindingRow_row record)
        (fun record hrecord => applyBindingRecord_trimmed (hcsv record hrecord)), bind_assoc]
    rfl
  · have hlines : lines (bindingsJsonl eol' write records) = records.map write := by
      refine lines_terminated eol' fun line hline => ?_
      obtain ⟨record, hrecord, rfl⟩ := List.mem_map.mp hline
      exact (hjsonl record hrecord).isLine
    have hblank : ∀ line ∈ records.map write, isBlank line = false := by
      intro line hline
      obtain ⟨record, hrecord, rfl⟩ := List.mem_map.mp hline
      exact (hjsonl record hrecord).notBlank
    rw [importBindingsJsonl_ok, jsonlRows, hlines, numbered_eq hblank,
      importRows_records records write id (fun record hrecord => ?_) (fun record _ => rfl),
      bind_assoc]
    · rfl
    · rw [(hjsonl record hrecord).read]
      rfl

def aliceRecord : BindingImportRecord :=
  ⟨"proj-a", "wechat", "alice", "c1", "direct", "import", none, none⟩

/-- A record that has no project. -/
def noProject : BindingImportRecord :=
  ⟨"", "wechat", "bob", "c2", "direct", "import", none, none⟩

theorem applyBindingRecord_noProject :
    applyBindingRecord noProject = return .error "project_key is empty" := by
  have hempty : trim noProject.projectKey = "" := by decide +kernel
  rw [applyBindingRecord, if_pos hempty]

/-- The JSON text of a record without the optional fields. -/
def recordText (record : BindingImportRecord) : String :=
  "\x7b\"project_key\":\"" ++ record.projectKey ++ "\",\"channel\":\"" ++ record.channel ++
    "\",\"peer_id\":\"" ++ record.peerId ++ "\",\"conversation_id\":\"" ++
    record.conversationId ++ "\",\"conversation_type\":\"" ++ record.conversationType ++
    "\",\"bind_source\":\"" ++ record.bindSource ++ "\"\x7d"

/-- `serde_json`, which can read the texts of two records. -/
def readsEither (write : BindingImportRecord → String) (record record' : BindingImportRecord) :
    LineSerde where
  push _ := .error "missing field"
  binding raw :=
    if raw = write record then .ok record
    else if raw = write record' then .ok record'
    else .error "expected value"

section Reads

variable {write : BindingImportRecord → String} {record record' : BindingImportRecord}

/-- A text without white space is a line that is read back as it is. -/
theorem WrittenBy.of_dense {serde : LineSerde} (hne : write record ≠ "")
    (hdense : (write record).toList.any isWhitespace = false)
    (hread : serde.binding (write record) = .ok record) : WrittenBy serde write record := by
  have hletters : ∀ c ∈ (write record).toList, isWhitespace c = false :=
    fun c hc => Bool.eq_false_iff.mpr (List.any_eq_false.mp hdense c hc)
  have htrim : trim (write record) = write record := trim_eq_self hletters
  refine ⟨⟨fun hmem => ?_, fun hlast => ?_⟩, ?_, htrim.symm ▸ hread⟩
  · exact absurd (hletters '\n' hmem) (by decide)
  · exact absurd (hletters '\r' (List.mem_of_getLast? hlast)) (by decide)
  · unfold isBlank
    rw [htrim]
    exact decide_eq_false hne

theorem readsEither_left : (readsEither write record record').binding (write record) = .ok record :=
  if_pos rfl

theorem readsEither_right (hne : write record' ≠ write record) :
    (readsEither write record record').binding (write record') = .ok record' :=
  (if_neg hne).trans (if_pos rfl)

end Reads

theorem writable_aliceRecord : aliceRecord.Writable := by
  constructor
  all_goals first | rfl | (unfold OneLine; decide +kernel)

theorem writable_noProject : noProject.Writable := by
  constructor
  all_goals first | rfl | (unfold OneLine; decide +kernel)

theorem written_aliceRecord :
    WrittenBy (readsEither recordText aliceRecord noProject) recordText aliceRecord :=
  .of_dense (by decide +kernel) (by decide +kernel) readsEither_left

theorem written_noProject :
    WrittenBy (readsEither recordText aliceRecord noProject) recordText noProject :=
  .of_dense (by decide +kernel) (by decide +kernel) (readsEither_right (by decide +kernel))

/-- The second record is refused in both formats. -/
theorem oneRefused_agrees :
    applyBindingRecord noProject = (return .error "project_key is empty") ∧
    importBindingsCsv "b.csv" (.ok (bindingsCsv .newline [aliceRecord, noProject])) = (do
        let results ← applyRecords [aliceRecord, noProject]
        return .ok (summaryFrom 2 results)) ∧
      importBindingsJsonl (readsEither recordText aliceRecord noProject) "b.jsonl"
        (.ok (bindingsJsonl .returnNewline recordText [aliceRecord, noProject])) = (do
          let results ← applyRecords [aliceRecord, noProject]
          return .ok (summaryFrom 1 results)) := by
  refine ⟨applyBindingRecord_noProject, bindings_formats_agree ?_ ?_ .newline .returnNewline
    "b.csv" "b.jsonl"⟩
  · exact List.forall_mem_cons.mpr
      ⟨writable_aliceRecord, List.forall_mem_singleton.mpr writable_noProject⟩
  · exact List.forall_mem_cons.mpr
      ⟨written_aliceRecord, List.forall_mem_singleton.mpr written_noProject⟩

/-! ## Push records that are written -/

instance (channel : String) : Decidable (OwnChannel channel) :=
  inferInstanceAs (Decidable (channel ∈ _))

/-- The segment of a target is read back, or it has too many parts. -/
theorem parseSegments_cons {target : DeliveryTarget} (h : Nameable target) (segs : List String)
    (before : List DeliveryTarget) :
    parseSegments (target.segment :: segs) before =
      if OwnChannel target.channel then parseSegments segs (before ++ [target])
      else .error ("invalid target segment '" ++ target.segment ++
        "': expected channel:peer:conv:type") := by
  have hne : target.segment ≠ "" := by simpa using segment_ne_nil target
  rw [parseSegments, h.trim_segment, if_neg hne, h.split_segment]
  by_cases hown : OwnChannel target.channel
  · rw [if_pos hown, split_of_not_mem ((ownChannel_iff h.registered).mp hown)]
    dsimp only [List.singleton_append]
    rw [h.channel.trimmed, h.peerId.trimmed, h.conversationId.trimmed, h.conversationType.trimmed,
      ← h.accountScope]
  · rw [if_neg hown]
    have hcolon : ':' ∈ target.channel.toList :=
      not_not.mp fun hnot => hown ((ownChannel_iff h.registered).mpr hnot)
    have hparts := two_le_length_split hcolon
    split
    · next hfour =>
      have hlength := congrArg List.length hfour
      simp only [List.length_append, List.length_cons, List.length_nil] at hlength
      omega
    · rfl

/-- The targets of a record are read back, or refused. -/
theorem parseTargetSegments_trim {targets : List DeliveryTarget}
    (h : ∀ target ∈ targets, Nameable target) :
    ((∀ target ∈ targets, OwnChannel target.channel) →
        parseTargetSegments (trim (targetSegments targets)) = .ok targets) ∧
      ((∃ target ∈ targets, ¬OwnChannel target.channel) →
        ∃ e, parseTargetSegments (trim (targetSegments targets)) = .error e) := by
  by_cases hnil : targets = []
  · subst hnil
    exact ⟨fun _ => by decide +kernel, by simp⟩
  have hsegments : parseTargetSegments (trim (targetSegments targets)) =
      parseSegments (targets.map DeliveryTarget.segment) [] := by
    unfold parseTargetSegments
    dsimp only
    rw [trim_trim, trim_targetSegments h hnil, if_neg (targetSegments_ne_empty h hnil),
      split_targetSegments h hnil]
  have hread : ∀ before,
      ((∀ target ∈ targets, OwnChannel target.channel) →
        parseSegments (targets.map DeliveryTarget.segment) before = .ok (before ++ targets)) ∧
      ((∃ target ∈ targets, ¬OwnChannel target.channel) →
        ∃ e, parseSegments (targets.map DeliveryTarget.segment) before = .error e) := by
    clear hsegments hnil
    induction targets with
    | nil => exact fun before => ⟨fun _ => by simp [parseSegments], by simp⟩
    | cons target targets ih =>
      intro before
      rw [List.forall_mem_cons] at h
      rw [List.map_cons, parseSegments_cons h.1]
      by_cases hown : OwnChannel target.channel
      · have hrest := ih h.2 (before ++ [target])
        rw [if_pos hown]
        refine ⟨fun hall => ?_, fun hbad => hrest.2 ?_⟩
        · rw [hrest.1 (List.forall_mem_cons.mp hall).2, List.append_assoc, List.singleton_append]
        · simpa [hown] using hbad
      · rw [if_neg hown]
        exact ⟨fun hall => absurd (hall target List.mem_cons_self) hown, fun _ => ⟨_, rfl⟩⟩
  rw [hsegments]
  simpa using hread []

def PushImportRecord.row (record : PushImportRecord) : String :=
  csvLine [record.projectKey, record.mode, targetSegments record.targetTargets, record.messageText]

def pushesHeader : String := "project_key,mode,target_targets,message_text"

def pushesCsv (eol : LineEnd) (records : List PushImportRecord) : String :=
  terminated eol (pushesHeader :: records.map PushImportRecord.row)

/-- Each column is one line, and the targets can be bound. -/
structure PushImportRecord.Writable (record : PushImportRecord) : Prop where
  projectKey : OneLine record.projectKey
  mode : OneLine record.mode
  messageText : OneLine record.messageText
  nameable : ∀ target ∈ record.targetTargets, Nameable target
  segments : OneLine (targetSegments record.targetTargets)

/-- The record as it comes back from a CSV file. -/
def PushImportRecord.trimmed (record : PushImportRecord) : PushImportRecord :=
  ⟨trim record.projectKey, trim record.mode, trim record.messageText, record.targetTargets⟩

/-- No target of the record is on the channel of an extra Feishu account. -/
def PushImportRecord.Own (record : PushImportRecord) : Prop :=
  ∀ target ∈ record.targetTargets, OwnChannel target.channel

theorem pushRow_row {record : PushImportRecord} (h : record.Writable) :
    (record.Own → pushRow record.row = .ok record.trimmed) ∧
      (¬record.Own → ∃ e, pushRow record.row = .error e) := by
  obtain ⟨hread, hrefused⟩ := parseTargetSegments_trim h.nameable
  unfold pushRow PushImportRecord.row
  rw [parseCsvLine_quoted (List.cons_ne_nil _ _)]
  simp only [List.map_cons, List.map_nil]
  constructor
  · intro hown
    rw [hread hown]
    rfl
  · intro hnot
    obtain ⟨e, he⟩ := hrefused (by simpa [PushImportRecord.Own] using hnot)
    rw [he]
    exact ⟨e, rfl⟩

/-- The loop over the rows, which reads all of them or none. -/
theorem parseRows_rows {records : List PushImportRecord} (h : ∀ record ∈ records, record.Writable)
    (first : Nat) :
    ((∀ record ∈ records, record.Own) →
        parseRows pushRow ((records.map PushImportRecord.row).zipIdx first) =
          .ok (records.map PushImportRecord.trimmed)) ∧
      ((∃ record ∈ records, ¬record.Own) →
        ∃ e, parseRows pushRow ((records.map PushImportRecord.row).zipIdx first) = .error e) := by
  induction records generalizing first with
  | nil => exact ⟨fun _ => rfl, by simp⟩
  | cons record records ih =>
    rw [List.forall_mem_cons] at h
    obtain ⟨hread, hrefused⟩ := pushRow_row h.1
    obtain ⟨hrest, hrestRefused⟩ := ih h.2 (first + 1)
    rw [List.map_cons, List.zipIdx_cons]
    by_cases hown : record.Own
    · rw [parseRows_cons_ok (hread hown)]
      constructor
      · intro hall
        rw [hrest (List.forall_mem_cons.mp hall).2]
        rfl
      · intro hbad
        obtain ⟨e, he⟩ := hrestRefused (by simpa [hown] using hbad)
        rw [he]
        exact ⟨e, rfl⟩
    · refine ⟨fun hall => absurd (hall record List.mem_cons_self) hown, fun _ => ?_⟩
      obtain ⟨e, he⟩ := hrefused hown
      exact ⟨_, parseRows_cons_error he first _⟩

theorem parsePushesCsv_ok (path content : String) :
    parsePushesCsv path (.ok content) = parseRows pushRow (csvRows content) := rfl

theorem csvRows_pushesCsv {records : List PushImportRecord}
    (h : ∀ record ∈ records, record.Writable) (eol : LineEnd) :
    csvRows (pushesCsv eol records) = (records.map PushImportRecord.row).zipIdx 2 := by
  have hrows : ∀ line ∈ records.map PushImportRecord.row, IsLine line ∧ isBlank line = false := by
    intro line hline
    obtain ⟨record, hrecord, rfl⟩ := List.mem_map.mp hline
    have h := h record hrecord
    refine isLine_csvLine (List.cons_ne_nil _ _) ?_
    simp only [List.mem_cons, List.not_mem_nil, or_false, forall_eq_or_imp, forall_eq]
    exact ⟨h.projectKey, h.mode, h.segments, h.messageText⟩
  have hheader : IsLine pushesHeader := ⟨by decide, by decide⟩
  have hlines : lines (pushesCsv eol records) = pushesHeader :: records.map PushImportRecord.row := by
    refine lines_terminated eol (List.forall_mem_cons.mpr ⟨hheader, ?_⟩)
    exact fun line hline => (hrows line hline).1
  rw [csvRows, hlines, List.tail_cons, numbered_eq fun line hline => (hrows line hline).2]

/-- Push records that are written to a CSV file, with either line end, come
back with their texts trimmed, if no target is on the channel of an extra Feishu
account.  If one is, the file is refused as a whole. -/
theorem parsePushesCsv_pushesCsv {records : List PushImportRecord}
    (h : ∀ record ∈ records, record.Writable) (eol : LineEnd) (path : String) :
    ((∀ record ∈ records, record.Own) →
        parsePushesCsv path (.ok (pushesCsv eol records)) =
          .ok (records.map PushImportRecord.trimmed)) ∧
      ((∃ record ∈ records, ¬record.Own) →
        ∃ e, parsePushesCsv path (.ok (pushesCsv eol records)) = .error e) := by
  rw [parsePushesCsv_ok, csvRows_pushesCsv h]
  exact parseRows_rows h 2

/-- A message for one target. -/
def greetAlice : PushImportRecord := ⟨"proj-a", "targeted", "hello, alice", [namedAlice]⟩

theorem writable_greetAlice : greetAlice.Writable where
  projectKey := by unfold OneLine; decide +kernel
  mode := by unfold OneLine; decide +kernel
  messageText := by unfold OneLine; decide +kernel
  nameable := List.forall_mem_singleton.mpr nameable_namedAlice
  segments := by unfold OneLine; decide +kernel

theorem greetAlice_read :
    parsePushesCsv "pushes.csv" (.ok (pushesCsv .returnNewline [greetAlice])) =
      .ok [greetAlice.trimmed] :=
  (parsePushesCsv_pushesCsv (List.forall_mem_singleton.mpr writable_greetAlice) .returnNewline
    "pushes.csv").1
      (List.forall_mem_singleton.mpr (List.forall_mem_singleton.mpr (by decide)))

end Written

end MagicLaw.Push
