import Bindle.Component.Basic
import Bindle.Pattern.Basic

/-!
# Configurations that cannot be used

What may be wrong with a configuration that could be read.
-/

namespace Bindle

inductive ConfigError where
  | noEntries
  | emptyFilename
  | invalidPattern (pattern : String) (cause : Pattern.Error)
  | componentNotFound (kind : ComponentKind) (name : String)
  | invalidOptions (kind : ComponentKind) (name message : String)
  deriving DecidableEq, Inhabited

def ConfigError.text : ConfigError → String
  | noEntries => "no entry points configured"
  | emptyFilename => "output filename must not be empty"
  | invalidPattern pattern cause => "invalid rule pattern '" ++ pattern ++ "': " ++ cause.text
  | componentNotFound kind name => kind.name ++ " not found: '" ++ name ++ "'"
  | invalidOptions kind name message =>
    "invalid options for " ++ kind.name ++ " '" ++ name ++ "': " ++ message

end Bindle
