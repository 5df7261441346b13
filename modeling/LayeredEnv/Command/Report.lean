import LayeredEnv.Text.Line

set_option autoImplicit false

namespace LayeredEnv.Command

structure Report where
  headline : String
  causes : List String
deriving DecidableEq, Repr

namespace Report

def indented (label : String) (margin : Nat) (cause : String) : String :=
  let lines := Text.splitBy '\n' cause.toList
  let continuation := '\n' :: List.replicate margin ' '
  label ++ String.ofList (continuation.intercalate lines)

def causeLines (causes : List String) : List String :=
  match causes with
  | [cause] => [indented "    " 4 cause]
  | causes => causes.zipIdx.map fun (cause, n) => indented ("    " ++ toString n ++ ": ") 7 cause

def text (report : Report) : String :=
  let head := "Error: " ++ report.headline
  if report.causes.isEmpty then head
  else "\n".intercalate (head :: "" :: "Caused by:" :: causeLines report.causes)

end Report
end LayeredEnv.Command
