import LayeredEnv.Proofs.EnvFile.Opening

set_option autoImplicit false

namespace LayeredEnv.EnvFile

open Text (Unbroken isBlank dropTail joinLines)

def Literal (quote : Quote) (text : List Char) : Prop := quote.mark ∉ text ∧ '\\' ∉ text

theorem Literal.closes {quote : Quote} {text : List Char} (literal : Literal quote text) :
    quote.splitClosing? (text ++ [quote.mark]) = some (text, []) := by
  refine Quote.splitClosing?_mark (Quote.splitFrom?_of_not_mem literal.1 false) ?_ []
  exact fun last => literal.2 (List.mem_of_getLast? last)

namespace Scan

variable {quote : Quote} {key : List Char}

end Scan

end LayeredEnv.EnvFile
