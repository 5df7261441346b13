import Std.Data.ExtTreeMap

set_option autoImplicit false

namespace LayeredEnv

abbrev Variables := Std.ExtTreeMap String String compare

namespace Variables

def ofList (entries : List (String × String)) : Variables :=
  entries.foldl (fun vars entry => vars.insert entry.1 entry.2) ∅

def eraseAll (vars : Variables) (names : List String) : Variables :=
  names.foldl (fun rest name => rest.erase name) vars

end Variables
end LayeredEnv
