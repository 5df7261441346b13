import LayeredEnv.Json.Writer

set_option autoImplicit false

namespace LayeredEnv.Json

/-- Floating-point numbers in a variable: plain from `0.000001` to twenty-one digits before the
point, whole numbers without a point, no sign on zero, and a half goes up. -/
def variableLayout : Decimal.Layout := ⟨-6, 20, "", "0", "0", .up⟩

def render : Json → String
  | .str text => text
  | .null => ""
  | .bool value => toString value
  | .num (.int value) => toString value
  | .num (.float value) => variableLayout.write value
  | .arr items => write (.arr items)
  | .obj fields => write (.obj fields)

end LayeredEnv.Json
