import CheckWorker.Proofs.Gateway.Independence
import CheckWorker.Proofs.Report.RoundTrip
import CheckWorker.Proofs.Text.Lines

/-!
# Findings in the staged file

An engine names the staged file by the path that it was given, and that path ends in the name that
the check asked for. A finding is read back with that path when the name holds no line feed and no
number stands between colons in it, the colon after it included. Other names that staging accepts
are cut off in the report.
-/

namespace CheckWorker

open Report

/-! ## Reports of one line -/

theorem newline_notMem_of_mem_textLines {text line : String} (h : line ∈ text.textLines) :
    '\n' ∉ line.toList := by
  obtain ⟨found, hfound, rfl⟩ := List.mem_map.mp h
  rw [String.toList_ofList]
  exact Text.feed_notMem_of_mem_splitFrom List.not_mem_nil hfound

/-- One line that is ended is the only line. -/
theorem textLines_line {line : String} (hline : '\n' ∉ line.toList)
    (hreturn : line.toList.getLast? ≠ some '\r') : (line ++ "\n").textLines = [line] := by
  have htext : (line ++ "\n").toList = line.toList ++ '\n' :: [] := by
    simp [String.toList_append]
  rw [String.textLines, Text.lines, htext, Text.splitLines_append_feed hline,
    Text.closeLine_reverse hreturn, Text.splitLines_nil, List.map_singleton, String.ofList_toList]

namespace Report

/-- Without a colon in it the beginning of a text makes no number. -/
theorem hasNumber_append_iff {front text : List Char} (h : ':' ∉ front) :
    HasNumber (front ++ text) ↔ HasNumber text := by
  induction front with
  | nil => rfl
  | cons c front ih =>
      have hc : c ≠ ':' := fun hc => h (hc ▸ List.mem_cons_self)
      have hfront : ':' ∉ front := fun hmem => h (List.mem_cons_of_mem c hmem)
      rw [List.cons_append, hasNumber_cons_iff, ih hfront]
      simp [hc]

end Report

namespace Diagnostic

theorem ofReport_line {line : String} (hline : '\n' ∉ line.toList)
    (hreturn : line.toList.getLast? ≠ some '\r') :
    ofReport (line ++ "\n") = (ofLine? line).toList := by
  rw [ofReport, textLines_line hline hreturn]
  cases h : ofLine? line <;> simp [h]

/-- Whatever a report is, only printable diagnostics are read from it. -/
theorem printable_of_mem_ofReport {text : String} {d : Diagnostic} (h : d ∈ ofReport text) :
    d.Printable := by
  obtain ⟨line, hline, hd⟩ := List.mem_filterMap.mp h
  exact printable_of_ofLine? (newline_notMem_of_mem_textLines hline) hd

/-- A message and a code that can be told from each other and from the rest of their line. -/
structure PlainFinding (message code : String) : Prop where
  message_ne : message ≠ ""
  message_line : '\n' ∉ message.toList
  message_head : ∀ c ∈ message.toList.head?, Text.isBlank c = false
  message_last : ∀ c ∈ message.toList.getLast?, Text.isBlank c = false
  code_ne : code ≠ ""
  code_chars : ∀ c ∈ code.toList, isCodeChar c = true

namespace PlainFinding

variable {d : Diagnostic} (h : PlainFinding d.message d.code)

include h

theorem printable (hfile : d.file ≠ "") (hline : d.line ≠ 0) (hcolumn : d.column ≠ 0)
    (hfeed : '\n' ∉ d.file.toList) (hnumber : ¬HasNumber (d.file.toList ++ [':'])) :
    d.Printable where
  file_ne := hfile
  file_line := hfeed
  file_position := hnumber
  line_ne := hline
  column_ne := hcolumn
  message_line := h.message_line
  message_head := h.message_head
  code_chars := h.code_chars
  message_ne _ := h.message_ne
  message_last _ := h.message_last
  message_whole hcode := absurd hcode h.code_ne

theorem toList_toLineWithoutColumn_eq : ∃ front, d.toLineWithoutColumn.toList = front ++ [']'] ∧
    ('\n' ∉ d.file.toList → '\n' ∉ front) := by
  have hdigits : '\n' ∉ Nat.toDigits 10 d.line.toNat := fun hmem =>
    absurd ((isNumber_toDigits d.line.toNat).isDigit _ hmem) (by decide)
  have hword : '\n' ∉ d.severity.word.toList := by cases d.severity <;> decide
  have hcode : '\n' ∉ d.code.toList := fun hmem => absurd (h.code_chars _ hmem) (by decide)
  have htail : codeTail d.code.toList = ' ' :: ' ' :: '[' :: (d.code.toList ++ [']']) := by
    have hne : d.code.toList.isEmpty = false := by simpa using h.code_ne
    rw [codeTail, hne]
    rfl
  refine ⟨d.file.toList ++ ':' :: (Nat.toDigits 10 d.line.toNat ++ ':' :: ' ' ::
    (d.severity.word.toList ++ ':' :: ' ' :: (d.message.toList ++
      ' ' :: ' ' :: '[' :: d.code.toList))), ?_, fun hfile => ?_⟩
  · rw [toList_toLineWithoutColumn, toList_bodyText, htail]
    simp
  · simp [hfile, hdigits, hword, h.message_line, hcode]

/-- A finding is read back from its line just if its file can be. -/
theorem ofReport_eq_iff (hfile : d.file ≠ "") (hline : d.line ≠ 0) (hcolumn : d.column = 1) :
    ofReport (d.toLineWithoutColumn ++ "\n") = [d] ↔
      '\n' ∉ d.file.toList ∧ ¬HasNumber (d.file.toList ++ [':']) := by
  constructor
  · intro hreport
    have hprintable := printable_of_mem_ofReport (hreport ▸ List.mem_singleton_self d)
    exact ⟨hprintable.file_line, hprintable.file_position⟩
  · rintro ⟨hfeed, hnumber⟩
    have hprintable := h.printable hfile hline (by simp [hcolumn]) hfeed hnumber
    obtain ⟨front, hfront, hclean⟩ := h.toList_toLineWithoutColumn_eq
    have honeLine : '\n' ∉ d.toLineWithoutColumn.toList := by
      rw [hfront]
      simp [hclean hfeed]
    have hlast : d.toLineWithoutColumn.toList.getLast? ≠ some '\r' := by
      rw [hfront]
      simp
    rw [ofReport_line honeLine hlast, hprintable.ofLine?_toLineWithoutColumn, ← hcolumn]
    rfl

end PlainFinding

end Diagnostic

/-! ## The staged file -/

namespace Session

variable {σ : Type} {host : Host σ} {setup : Setup} {check : Check} {started : Aside σ}
  {w w₁ : World σ} {path : FilePath} {output : EngineOutput}

/-- A check that got as far as the engine tells of what the engine gave back. -/
theorem exists_result (hbefore : beforeRun host setup check started.act w = (.ok path, w₁))
    (hrun : (runEngine host (path.text :: check.flags) w₁).1 = .ok output) :
    ∃ result w', runCheck host setup check started.act w = (.ok result, w') ∧
      result.diagnostics = Diagnostic.ofReport output.text := by
  rcases hengine : runEngine host (path.text :: check.flags) w₁ with ⟨end?, w₂⟩
  obtain rfl : end? = .ok output := by rw [← hrun, hengine]
  have hafter : afterStaging host check path w₁ = (.ok
      { diagnostics := Diagnostic.ofReport output.text
        rawText := output.text
        exitStatus := output.status
        durationMs := w₂.clock - w₁.clock }, w₂) := by
    simp only [afterStaging, bind, Act.andThen, Act.look, hengine]
    rfl
  rw [runCheck_eq, Act.bind_ok hbefore]
  exact ⟨_, w₂, hafter, rfl⟩

/-- When all that the engine writes is one finding in the file it was given, the check tells of that
finding in the staged file, just if the name of the file holds no line feed and no number between
colons. -/
theorem diagnostics_of_staged (hcolon : ':' ∉ setup.area.root.text.toList)
    (hfeed : '\n' ∉ setup.area.root.text.toList)
    (hbefore : beforeRun host setup check started.act w = (.ok path, w₁))
    (hrun : (runEngine host (path.text :: check.flags) w₁).1 = .ok output)
    {n : UInt32} (hn : n ≠ 0) {message code : String}
    (hplain : Diagnostic.PlainFinding message code)
    (houtput : output.text = path.text ++ ":" ++ toString n.toNat ++ ": error: " ++ message ++
      "  [" ++ code ++ "]\n") :
    path = setup.area.pathOf check.filename ∧
      ∃ result w', runCheck host setup check started.act w = (.ok result, w') ∧
        (result.diagnostics = [⟨path.text, n, 1, .error, message, code⟩] ↔
          '\n' ∉ check.filename.toList ∧ ¬HasNumber (check.filename.toList ++ [':'])) := by
  obtain ⟨⟨files, hstage⟩, -⟩ := exists_of_beforeRun hbefore
  obtain ⟨hname, -, hpath, -⟩ := StagingArea.exists_of_stage hstage
  obtain ⟨front, htext, hfront⟩ := StagingArea.exists_text_pathOf setup.area hname
  rw [← hpath] at htext
  have hne : path.text ≠ "" := hpath ▸ StagingArea.text_pathOf_ne_empty setup.area hname
  have hfrontColon : ':' ∉ front := fun hmem => (hfront _ hmem).elim (by decide) hcolon
  have hfrontFeed : '\n' ∉ front := fun hmem => (hfront _ hmem).elim (by decide) hfeed
  have hfile : '\n' ∉ path.text.toList ∧ ¬HasNumber (path.text.toList ++ [':']) ↔
      '\n' ∉ check.filename.toList ∧ ¬HasNumber (check.filename.toList ++ [':']) := by
    rw [htext, List.append_assoc, hasNumber_append_iff hfrontColon]
    simp [hfrontFeed]
  have hfinding : output.text =
      (Diagnostic.mk path.text n 1 .error message code).toLineWithoutColumn ++ "\n" := by
    have hcode : code.isEmpty = false := by simpa using hplain.code_ne
    rw [houtput, ← String.toList_inj]
    simp [Diagnostic.toLineWithoutColumn, Diagnostic.bodyText, Diagnostic.codeText, hcode,
      Severity.word, String.toList_append]
  obtain ⟨result, w', hresult, hdiagnostics⟩ := exists_result hbefore hrun
  refine ⟨hpath, result, w', hresult, ?_⟩
  rw [hdiagnostics, hfinding, ← hfile]
  exact Diagnostic.PlainFinding.ofReport_eq_iff (d := ⟨path.text, n, 1, .error, message, code⟩)
    hplain hne hn rfl

/-- An engine that finds one fault in whatever file it is given. -/
def faultFinder : EngineFunction := fun args _ =>
  .ok ⟨args.head?.getD "" ++ ":7: error: bad  [x-1]\n", "", 1⟩

/-- Colons in a name do no harm if no number stands between them. -/
theorem diagnostics_of_drive_letter :
    let host := Host.running faultFinder
    let setup : Setup := ⟨.standard, .standard, ⟨⟨"/app"⟩⟩⟩
    let check : Check := ⟨"C:9x.py", "x\n", ["--strict"], none⟩
    let started := Aside.telling .checking
    let w := (World.start () ⟨[], []⟩ .listened).holding (.ready 0 false)
    let w₁ := (beforeRun host setup check started.act w).2
    beforeRun host setup check started.act w = (.ok ⟨"/app/C:9x.py"⟩, w₁) ∧
      (runEngine host ("/app/C:9x.py" :: check.flags) w₁).1 =
        .ok ⟨"/app/C:9x.py:7: error: bad  [x-1]\n", "", 1⟩ ∧
      ∃ result w', runCheck host setup check started.act w = (.ok result, w') ∧
        result.diagnostics = [⟨"/app/C:9x.py", 7, 1, .error, "bad", "x-1"⟩] := by
  intro host setup check started w w₁
  have hbefore : beforeRun host setup check started.act w = (.ok ⟨"/app/C:9x.py"⟩, w₁) :=
    Prod.ext (by decide +kernel) rfl
  have hrun : (runEngine host ("/app/C:9x.py" :: check.flags) w₁).1 =
      .ok ⟨"/app/C:9x.py:7: error: bad  [x-1]\n", "", 1⟩ := by decide +kernel
  have hplain : Diagnostic.PlainFinding "bad" "x-1" := {
    message_ne := by decide
    message_line := by decide
    message_head := by rintro c ⟨⟩; decide
    message_last := by rintro c ⟨⟩; decide
    code_ne := by decide
    code_chars := List.all_eq_true.mp (by decide) }
  have hread : Diagnostic.ofLine? "C:9x.py:7: bad" = some ⟨"C:9x.py", 7, 1, .error, "bad", ""⟩ := by
    decide +kernel
  have hnumber := (Diagnostic.printable_of_ofLine? (by decide) hread).file_position
  have hline : (7 : UInt32) ≠ 0 := by decide
  obtain ⟨-, result, w', hresult, hiff⟩ := diagnostics_of_staged (by decide) (by decide) hbefore
    hrun hline hplain (by decide)
  exact ⟨hbefore, hrun, result, w', hresult, hiff.mpr ⟨by decide, hnumber⟩⟩

/-- A number between colons cuts the name off, though staging accepts it. -/
theorem diagnostics_of_number_between_colons :
    let host := Host.running faultFinder
    let setup : Setup := ⟨.standard, .standard, ⟨⟨"/app"⟩⟩⟩
    let check : Check := ⟨"a:3:b.py", "x\n", [], none⟩
    let started := Aside.telling .checking
    let w := (World.start () ⟨[], []⟩ .listened).holding (.ready 0 false)
    let w₁ := (beforeRun host setup check started.act w).2
    (beforeRun host setup check started.act w).1 = .ok ⟨"/app/a:3:b.py"⟩ ∧
      (runEngine host ("/app/a:3:b.py" :: check.flags) w₁).1 =
        .ok ⟨"/app/a:3:b.py:7: error: bad  [x-1]\n", "", 1⟩ ∧
      ∃ result, (runCheck host setup check started.act w).1 = .ok result ∧
        result.diagnostics = [⟨"/app/a", 3, 1, .error, "b.py:7: error: bad", "x-1"⟩] ∧
        result.diagnostics ≠ [⟨"/app/a:3:b.py", 7, 1, .error, "bad", "x-1"⟩] := by
  intro host setup check started w w₁
  have hrun : (runCheck host setup check started.act w).1 = .ok
      { diagnostics := [⟨"/app/a", 3, 1, .error, "b.py:7: error: bad", "x-1"⟩]
        rawText := "/app/a:3:b.py:7: error: bad  [x-1]\n"
        exitStatus := 1
        durationMs := 0 } := by decide +kernel
  exact ⟨by decide +kernel, by decide +kernel, _, hrun, rfl, by decide⟩

end Session

end CheckWorker
