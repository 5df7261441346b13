import LayeredEnv.Settings.Basic
import LayeredEnv.Text.Blank
import LayeredEnv.Variables

set_option autoImplicit false

namespace LayeredEnv

open Disk (FilePath)

structure Layer where
  environment : Option String := none
  fallbackEnvironment : Option String := none
  directory : Option FilePath := none
  pattern : Option String := none
  files : Option (List FilePath) := none
  encoding : Option String := none
  purge : Option Bool := none
  debug : Option Bool := none
  silent : Option Bool := none
deriving DecidableEq, Repr

namespace Layer

def empty : Layer := {}

def or (upper lower : Layer) : Layer where
  environment := upper.environment.or lower.environment
  fallbackEnvironment := upper.fallbackEnvironment.or lower.fallbackEnvironment
  directory := upper.directory.or lower.directory
  pattern := upper.pattern.or lower.pattern
  files := upper.files.or lower.files
  encoding := upper.encoding.or lower.encoding
  purge := upper.purge.or lower.purge
  debug := upper.debug.or lower.debug
  silent := upper.silent.or lower.silent

def combine (layers : List Layer) : Layer := layers.foldl or empty

def apply (layer : Layer) (settings : Settings) : Settings :=
  { settings with
    environment := layer.environment.or settings.environment
    fallbackEnvironment := layer.fallbackEnvironment.or settings.fallbackEnvironment
    directory := layer.directory.or settings.directory
    pattern := layer.pattern.or settings.pattern
    files := layer.files.or settings.files
    encoding := layer.encoding.or settings.encoding
    purge := layer.purge.getD settings.purge
    silent := layer.silent.getD settings.silent }

def debugEnabled (layer : Layer) : Bool := layer.debug.getD false

def offTexts : List String := ["", "0", "false", "no", "off"]

def isOn (text : String) : Bool :=
  !offTexts.contains (String.ofList (Text.lower (Text.trim text.toList)))

/-- The layer that the variables of the loader describe. An empty text sets nothing, but an empty
flag is switched off. -/
def ofVariables (vars : Variables) : Layer :=
  let text (name : String) := vars[name]?.filter (· ≠ "")
  let flag (name : String) := vars[name]?.map isOn
  { environment := text "APP_ENV"
    fallbackEnvironment := text "DEFAULT_APP_ENV"
    directory := (text "ENVCASCADE_PATH").map FilePath.mk
    pattern := text "ENVCASCADE_PATTERN"
    encoding := text "ENVCASCADE_ENCODING"
    purge := flag "ENVCASCADE_PURGE_DOTENV"
    debug := flag "ENVCASCADE_DEBUG"
    silent := flag "ENVCASCADE_SILENT" }

end Layer
end LayeredEnv
