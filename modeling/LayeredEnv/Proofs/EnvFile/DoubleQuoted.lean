import LayeredEnv.Proofs.EnvFile.Escaping
import LayeredEnv.Proofs.EnvFile.Scan

set_option autoImplicit false

namespace LayeredEnv.EnvFile

open Text (Unbroken joinLines)

def quotedLine (entry : String × String) : List Char :=
  entry.1.toList ++ '=' :: Quote.double.mark :: (Quote.escape entry.2.toList ++ ['"'])

def quotedLines (entries : List (String × String)) (ended : Bool) : List (List Char) :=
  entries.map quotedLine ++ if ended then [[]] else []

def quotedText (entries : List (String × String)) (ended : Bool) : String :=
  String.ofList (joinLines (quotedLines entries ended))

namespace Scan

variable {key value : String}

/-- The quote behind a value has not closed it: the value has become longer, from the quote on. -/
inductive Spoiled (key value : String) : Scan → Prop
  | opened (entries : Fields) (parts : List (List Char)) :
    Spoiled key value
      ⟨entries, .quoted key .double ((Quote.escape value.toList ++ ['"']) :: parts)⟩
  | closed (scan : Scan) (tail : List Char) (apart : key ∉ scan.mode.key?)
    (found : scan.entries.get? key =
      some (.str (String.ofList (value.toList ++ '"' :: tail)))) : Spoiled key value scan

theorem decode_spoiled (value : String) (parts : List (List Char)) :
    ∃ tail, Quote.double.decode (joinLines ((Quote.escape value.toList ++ ['"']) :: parts)) =
      value.toList ++ '"' :: tail := by
  obtain ⟨more, joined⟩ : ∃ more,
      joinLines ((Quote.escape value.toList ++ ['"']) :: parts) =
        Quote.escape value.toList ++ '"' :: more := by
    cases parts <;> simp [joinLines]
  -- The quote is kept: no backslash is left to pair it with.
  refine ⟨Quote.unescape more, ?_⟩
  rw [joined, Quote.decode, Quote.unescape_escape_append]
  cases more <;> simp [Quote.unescape]

-- Every other line opens and closes other entries only, if it is not swallowed itself.
theorem Spoiled.step {scan : Scan} (spoiled : Spoiled key value scan) {line : List Char}
    (other : key ∉ headKey? line) : Spoiled key value (scan.step line) := by
  cases spoiled with
  | opened entries parts =>
    rw [Scan.step]
    simp only [continueQuoted]
    split
    next last rest closing =>
      -- The value is completed here, with at least the quote too much.
      obtain ⟨tail, decoded⟩ := decode_spoiled value (parts ++ [last])
      refine .closed _ tail (by simp [record, Mode.key?]) ?_
      simp [record, decoded]
    next => exact .opened entries (parts ++ [line])
  | closed _ tail apart found =>
    have framed := step_framed scan.mode line
    have outside : key ∉ scan.mode.key?.or (headKey? line) := by
      simp only [Option.mem_def, Option.or_eq_some_iff, not_or, not_and]
      exact ⟨apart, fun _ => other⟩
    refine .closed _ tail (fun opened => outside (framed.owned opened)) ?_
    exact (framed.get?_of_not_mem outside scan.entries).trans found

theorem Spoiled.foldl {lines : List (List Char)} {scan : Scan} (spoiled : Spoiled key value scan)
    (others : ∀ line ∈ lines, key ∉ headKey? line) :
    Spoiled key value (lines.foldl Scan.step scan) := by
  induction lines generalizing scan with
  | nil => exact spoiled
  | cons line rest ih =>
    exact ih (spoiled.step (others line (by simp))) fun other member =>
      others other (by simp [member])

theorem Spoiled.finish {scan : Scan} (spoiled : Spoiled key value scan) :
    scan.finish.get? key ≠ some (.str value) := by
  have longer (tail : List Char) :
      some (Json.str (String.ofList (value.toList ++ '"' :: tail))) ≠ some (.str value) := by
    intro same
    have chars := congrArg String.toList (Json.str.inj (Option.some.inj same))
    simp at chars
  cases spoiled with
  | opened entries parts =>
    obtain ⟨tail, decoded⟩ := decode_spoiled value parts
    simpa only [Scan.finish, record, decoded, Fields.get?_set_self] using longer tail
  | closed _ tail apart found =>
    rw [get?_finish apart, found]
    exact longer tail

end Scan

end LayeredEnv.EnvFile
