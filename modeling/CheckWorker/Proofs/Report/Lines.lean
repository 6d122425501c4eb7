import CheckWorker.Proofs.Gateway.Independence
import CheckWorker.Proofs.Text.Lines

/-!
# Reports line by line

A report is read one line at a time, so it makes no difference how its lines are ended, and reports
that are put together where a line ends are read as if each stood alone. That is what a check tells
of when the first stream of the engine's output ends with a line: the findings of both streams, the
first before the second.
-/

namespace CheckWorker

open Act

/-- The two ways to end a line. -/
inductive LineEnd
  | feed
  | returnFeed
  deriving DecidableEq

def LineEnd.mark : LineEnd → String
  | .feed => "\n"
  | .returnFeed => "\r\n"

/-- A text that is the same line whichever way it is ended. -/
structure ReportLine where
  text : String
  feed_notMem : '\n' ∉ text.toList
  last_ne_return : text.toList.getLast? ≠ some '\r'

/-- A report of some lines, each ended in its own way, and perhaps of one more that is not ended. -/
def reportOf : List (ReportLine × LineEnd) → Option ReportLine → String
  | [], last => (last.map ReportLine.text).getD ""
  | (line, ending) :: lines, last => line.text ++ ending.mark ++ reportOf lines last

/-! ## Lines of reports -/

theorem textLines_append_mark (line : ReportLine) (ending : LineEnd) (rest : String) :
    (line.text ++ ending.mark ++ rest).textLines = line.text :: rest.textLines := by
  cases ending with
  | feed =>
      have htext : (line.text ++ LineEnd.feed.mark ++ rest).toList =
          line.text.toList ++ '\n' :: rest.toList := by
        simp [LineEnd.mark, String.toList_append]
      rw [String.textLines, Text.lines, htext, Text.splitLines_append_feed line.feed_notMem,
        Text.closeLine_reverse line.last_ne_return, List.map_cons, String.ofList_toList]
      rfl
  | returnFeed =>
      have htext : (line.text ++ LineEnd.returnFeed.mark ++ rest).toList =
          (line.text.toList ++ ['\r']) ++ '\n' :: rest.toList := by
        simp [LineEnd.mark, String.toList_append]
      have hfeed : '\n' ∉ line.text.toList ++ ['\r'] := by
        simp [line.feed_notMem]
      rw [String.textLines, Text.lines, htext, Text.splitLines_append_feed hfeed,
        Text.closeLine_return, List.map_cons, String.ofList_toList]
      rfl

namespace Diagnostic

theorem ofReport_append {text : String} (h : text = "" ∨ text.toList.getLast? = some '\n')
    (rest : String) : ofReport (text ++ rest) = ofReport text ++ ofReport rest := by
  have hlast : ∀ c ∈ text.toList.getLast?, c = '\n' := by
    rcases h with rfl | h
    · simp
    · intro c hc
      exact Option.some.inj (hc.symm.trans h)
  rw [ofReport, String.textLines_append hlast, List.filterMap_append]
  rfl

theorem ofReport_last (line : ReportLine) : ofReport line.text = (ofLine? line.text).toList := by
  rw [ofReport, String.textLines, Text.lines, Text.splitLines_of_notMem line.feed_notMem]
  split
  case isTrue hempty =>
    -- a line of nothing is no line, and as a line it would be passed over
    rw [List.isEmpty_iff] at hempty
    have hnone : ofLine? line.text = none := by rw [ofLine?, hempty]; rfl
    rw [hnone]
    rfl
  case isFalse =>
    rw [List.map_singleton, String.ofList_toList]
    cases h : ofLine? line.text <;> simp [h]

theorem ofReport_reportOf (lines : List (ReportLine × LineEnd)) (last : Option ReportLine) :
    ofReport (reportOf lines last) =
      (lines.map Prod.fst ++ last.toList).filterMap fun line => ofLine? line.text := by
  induction lines with
  | nil =>
      cases last with
      | none => rfl
      | some line =>
          refine (ofReport_last line).trans ?_
          cases h : ofLine? line.text <;> simp [h]
  | cons line lines ih =>
      obtain ⟨line, ending⟩ := line
      rw [reportOf, ofReport, textLines_append_mark, List.filterMap_cons, ← ofReport, ih]
      rfl

example : ofReport "a.py:1: error: One [misc]\r\na.py:2: error: Two [misc]\r\n" =
    [⟨"a.py", 1, 1, .error, "One", "misc"⟩, ⟨"a.py", 2, 1, .error, "Two", "misc"⟩] := by
  decide +kernel

end Diagnostic

/-! ## What a check tells -/

namespace Session

variable {σ : Type} {host : Host σ} {setup : Setup} {check : Check}

/-- A check that ends well tells of what the engine gave back last. -/
theorem exists_output {started : Act σ Unit} {w w' : World σ} {result : CheckResult}
    (h : runCheck host setup check started w = (.ok result, w')) :
    ∃ path w₁ output, runEngine host (path :: check.flags) w₁ = (.ok output, w') ∧
      result.diagnostics = Diagnostic.ofReport (output.stdout ++ output.stderr) := by
  rw [runCheck_eq] at h
  obtain ⟨path, w₁, -, h⟩ := exists_of_bind_eq_ok h
  obtain ⟨before, w₂, hlook, h⟩ := exists_of_bind_eq_ok h
  obtain ⟨output, w₃, hrun, h⟩ := exists_of_bind_eq_ok h
  cases h
  exact ⟨path.text, w₂, output, hrun, rfl⟩

/-- Reports are read line by line, however the lines are ended, and so is the report of a check,
which is what the engine wrote to its two streams. -/
theorem findings_line_by_line (host : Host σ) (setup : Setup) (check : Check)
    (started : Act σ Unit) :
    (∀ lines last, Diagnostic.ofReport (reportOf lines last) =
      (lines.map Prod.fst ++ last.toList).filterMap fun line => Diagnostic.ofLine? line.text) ∧
    (∀ stdout stderr : String, stdout = "" ∨ stdout.toList.getLast? = some '\n' →
      Diagnostic.ofReport (stdout ++ stderr) =
        Diagnostic.ofReport stdout ++ Diagnostic.ofReport stderr) ∧
    ∀ w w' result, runCheck host setup check started w = (.ok result, w') →
      ∃ path w₁ output, runEngine host (path :: check.flags) w₁ = (.ok output, w') ∧
        result.diagnostics = Diagnostic.ofReport (output.stdout ++ output.stderr) ∧
        (output.stdout = "" ∨ output.stdout.toList.getLast? = some '\n' →
          result.diagnostics =
            Diagnostic.ofReport output.stdout ++ Diagnostic.ofReport output.stderr) := by
  refine ⟨Diagnostic.ofReport_reportOf, fun stdout stderr h => Diagnostic.ofReport_append h stderr,
    ?_⟩
  intro w w' result h
  obtain ⟨path, w₁, output, hrun, hresult⟩ := exists_output h
  refine ⟨path, w₁, output, hrun, hresult, ?_⟩
  intro hstdout
  rw [hresult, Diagnostic.ofReport_append hstdout]

end Session

end CheckWorker
