import LayeredEnv.Proofs.EnvFile.Opening

set_option autoImplicit false

namespace LayeredEnv.EnvFile

open Text (IsLineEnd Unbroken isBlank)

def Idle (line : List Char) : Prop := ∀ c ∈ line.find? (!isBlank ·), c = '#'

instance (line : List Char) : Decidable (Idle line) :=
  decidable_of_iff ((line.find? (!isBlank ·)).all (· = '#') = true) (by
    simp [Idle, Option.all_eq_true])

def Mode.inQuotes : Mode → Bool
  | .seeking => false
  | .continued _ _ => false
  | .quoted _ _ _ => true

namespace Scan

variable {line : List Char}

theorem isBlankOrComment_of_idle (idle : Idle line) : isBlankOrComment line = true := by
  rw [Idle, ← Text.head?_trim] at idle
  rw [isBlankOrComment]
  cases trimmed : Text.trim line with
  | nil => rfl
  | cons c rest => simpa [trimmed] using idle

theorem step_idle {scan : Scan} (idle : Idle line) (outside : scan.mode.inQuotes = false) :
    step scan line = scan := by
  have passed := isBlankOrComment_of_idle idle
  obtain ⟨entries, mode⟩ := scan
  cases mode with
  | seeking => simp [step, seek, passed]
  | continued key parts => simp [step, continueUnquoted, passed]
  | quoted key quote parts => cases outside

end Scan

/-- Lines with blank lines and comments put in, one after the other, wherever the lines before leave
no quoted value open. -/
inductive Padded (lines : List (List Char)) : List (List Char) → Prop
  | refl : Padded lines lines
  | insert (before after : List (List Char)) (line : List Char) (unbroken : Unbroken line)
    (idle : Idle line) (outside : (before.foldl Scan.step Scan.start).mode.inQuotes = false)
    (padded : Padded lines (before ++ after)) : Padded lines (before ++ line :: after)

namespace Padded

variable {lines padded : List (List Char)}

theorem unbroken (insertion : Padded lines padded) (whole : ∀ line ∈ lines, Unbroken line) :
    ∀ line ∈ padded, Unbroken line := by
  induction insertion with
  | refl => exact whole
  | insert before after line unbroken _ _ _ ih =>
    intro other member
    rcases List.mem_append.mp member with first | later
    · exact ih other (List.mem_append_left _ first)
    · rcases List.mem_cons.mp later with rfl | last
      · exact unbroken
      · exact ih other (List.mem_append_right _ last)

theorem foldl_step (insertion : Padded lines padded) :
    padded.foldl Scan.step Scan.start = lines.foldl Scan.step Scan.start := by
  induction insertion with
  | refl => rfl
  | insert before after line _ idle outside _ ih =>
    rw [List.foldl_append, List.foldl_cons, Scan.step_idle idle outside, ← List.foldl_append, ih]

end Padded

theorem read_of_any_layout {lines padded : List (List Char)}
    (unbroken : ∀ line ∈ lines, Unbroken line) (insertion : Padded lines padded)
    {lineEnd other : List Char} (ends : IsLineEnd lineEnd) (alike : IsLineEnd other) :
    read (String.ofList (lineEnd.intercalate lines)) =
      read (String.ofList (other.intercalate padded)) := by
  rw [read, read, String.toList_ofList, String.toList_ofList, Scan.run_intercalate ends unbroken,
    Scan.run_intercalate alike (insertion.unbroken unbroken), insertion.foldl_step]

-- A value that is continued, one that holds what would be a comment elsewhere, and one that the end
-- of the file leaves open.
def denseLines : List (List Char) :=
  ["LIST=a \\".toList, "b".toList, "Q='x".toList, "#y'".toList, "TAIL=c\\".toList]

def looseLines : List (List Char) :=
  ["LIST=a \\".toList, " # \\".toList, "b".toList, "Q='x".toList, "#y'".toList, "\u2003".toList,
    "TAIL=c\\".toList, "#".toList]

theorem looseLines_padded : Padded denseLines looseLines :=
  .insert (denseLines.take 1) (looseLines.drop 2) " # \\".toList (by decide) (by decide +kernel)
    (by decide +kernel) <|
  .insert (denseLines.take 4) (looseLines.drop 6) "\u2003".toList (by decide) (by decide +kernel)
    (by decide +kernel) <|
  .insert denseLines [] "#".toList (by decide) (by decide +kernel) (by decide +kernel) .refl

theorem loose_lines_read_alike :
    (∀ line ∈ denseLines, Unbroken line) ∧ Padded denseLines looseLines ∧ IsLineEnd ['\r'] ∧
      IsLineEnd ['\r', '\n'] ∧
      read (String.ofList (['\r'].intercalate denseLines)) =
        read (String.ofList (['\r', '\n'].intercalate looseLines)) ∧
      read (String.ofList (['\r', '\n'].intercalate looseLines)) =
        [("LIST", .str "a\nb"), ("Q", .str "x\n#y"), ("TAIL", .str "c")] := by
  have unbroken : ∀ line ∈ denseLines, Unbroken line := by decide
  have lone : IsLineEnd ['\r'] := by decide
  have paired : IsLineEnd ['\r', '\n'] := by decide
  exact ⟨unbroken, looseLines_padded, lone, paired,
    read_of_any_layout unbroken looseLines_padded lone paired, by decide +kernel⟩

end LayeredEnv.EnvFile
