import LayeredEnv.Proofs.EnvFile.Scan
import LayeredEnv.Proofs.Text.Lines

set_option autoImplicit false

namespace LayeredEnv.EnvFile

namespace Scan

theorem foldl_laid (lines : List (List Char)) (scan : Scan) (raw : scan.entries.Raw)
    (lower : Fields) :
    lines.foldl step ⟨lower.setAll scan.entries, scan.mode⟩ =
      ⟨lower.setAll (lines.foldl step scan).entries, (lines.foldl step scan).mode⟩ := by
  induction lines generalizing scan with
  | nil => rfl
  | cons line rest ih =>
    have framed := step_framed scan.mode line
    rw [List.foldl_cons, List.foldl_cons, framed.laid raw.distinct]
    exact ih _ (framed.raw raw)

theorem finish_laid {scan : Scan} (raw : scan.entries.Raw) (lower : Fields) :
    finish ⟨lower.setAll scan.entries, scan.mode⟩ = lower.setAll scan.finish := by
  obtain ⟨entries, mode⟩ := scan
  cases mode with
  | seeking => rfl
  | continued key parts => exact (Fields.setAll_set raw.distinct lower key _).symm
  | quoted key quote parts => exact (Fields.setAll_set raw.distinct lower key _).symm

-- An open entry is never closed by a blank line.
theorem step_blank {scan : Scan} (closed : (step scan []).mode = .seeking) :
    step scan [] = scan := by
  obtain ⟨entries, mode⟩ := scan
  cases mode with
  | seeking => rfl
  | continued key parts => cases closed
  | quoted key quote parts => cases closed

theorem run_append_feed {first : List Char} (second : List Char)
    (closed : (run first).mode = .seeking) :
    run (first ++ '\n' :: second) = (Text.lines second).foldl step (run first) := by
  rcases Text.lines_seam first second with whole | ⟨before, _, ends, whole⟩
  · rw [run, whole, List.foldl_append, run]
  · -- Then the line feed ends a line of the first text, and its last line is blank.
    rw [run, ends, List.foldl_append, List.foldl_cons, List.foldl_nil] at closed
    rw [run, whole, List.foldl_append, run, ends, List.foldl_append, List.foldl_cons,
      List.foldl_nil, step_blank closed]

end Scan

/-- Reading two texts in one, with a line feed between them, is reading both and laying the entries
of the second over those of the first. -/
theorem read_append_feed (rule : Overlay) (first second : String)
    (closed : (Scan.run first.toList).mode = .seeking) :
    read (first ++ "\n" ++ second) = rule.fields (read first) (read second) := by
  have texts := (read_raw second).texts
  have whole : (first ++ "\n" ++ second).toList = first.toList ++ '\n' :: second.toList := by simp
  have alone : read first = (Scan.run first.toList).entries := by rw [read, Scan.finish, closed]
  have entered : Scan.run first.toList =
      ⟨(read first).setAll Scan.start.entries, Scan.start.mode⟩ := by
    rw [alone, Scan.start, ← closed]
    rfl
  rw [Overlay.fields_of_texts rule _ _ texts, read, whole, Scan.run_append_feed _ closed, entered,
    Scan.foldl_laid _ Scan.start Fields.raw_nil]
  exact Scan.finish_laid (Scan.run_raw second.toList) _

theorem read_append_feed_reopened :
    (Scan.run "A=1\nB='x\ny'\r".toList).mode = .seeking ∧
      read ("A=1\nB='x\ny'\r" ++ "\n" ++ "C=2\nA=3\nB=\"z\n") =
        Overlay.default.fields (read "A=1\nB='x\ny'\r") (read "C=2\nA=3\nB=\"z\n") ∧
      read "C=2\nA=3\nB=\"z\n" = [("C", .str "2"), ("A", .str "3"), ("B", .str "z\n")] := by
  have closed : (Scan.run "A=1\nB='x\ny'\r".toList).mode = .seeking := by decide +kernel
  exact ⟨closed, read_append_feed Overlay.default _ _ closed, by decide +kernel⟩

end LayeredEnv.EnvFile
