import LayeredEnv.Naming.Pattern

set_option autoImplicit false

namespace LayeredEnv.Naming

inductive Role
  | defaults
  | base
  | localOverride
  | environment
  | environmentLocal
deriving DecidableEq, Repr

namespace Role

def label : Role → String
  | .defaults => "defaults"
  | .base => "base"
  | .localOverride => "local"
  | .environment => "env-specific"
  | .environmentLocal => "env-specific-local"

def priority : Role → Nat
  | .defaults => 0
  | .base => 1
  | .localOverride => 2
  | .environment => 3
  | .environmentLocal => 4

end Role

def defaultsFile : String := ".env.defaults"

def testEnvironment : String := "test"

def candidates (pattern : String) (environment : Option String) : List (Role × String) :=
  let name := givenName environment
  let withLocal := hasLocal pattern
  let withName := name.isSome && hasEnvironment pattern
  (if pattern = defaultPattern then [(.defaults, defaultsFile)] else []) ++
    [(.base, compose pattern false none)] ++
    (if withLocal && name ≠ some testEnvironment then
      [(.localOverride, compose pattern true none)] else []) ++
    (if withName then [(.environment, compose pattern false name)] else []) ++
    (if withName && withLocal then [(.environmentLocal, compose pattern true name)] else [])

end LayeredEnv.Naming
