import LayeredEnv.Proofs.EnvFile.Opening

set_option autoImplicit false

namespace LayeredEnv.EnvFile

open Text (Unbroken isBlank dropTail joinLines)

namespace Quote

variable {quote : Quote} {text inner after : List Char}

end Quote

namespace Scan

variable {quote : Quote} {key : String} {first inner after : List Char}
  {rest : List (List Char)}

end Scan

end LayeredEnv.EnvFile
