import ActionDocs.Text.Uppercase

/-!
# Settings

The defaults of a run, each of which the environment can override.
-/

namespace ActionDocs

open Text

/-- The defaults of a run. -/
structure Settings where
  /-- The path fragment that module names start after. -/
  sourceRoot : Text := "src/main/resources"
  /-- The ending of the names of source files. -/
  extension : Text := ".js"
  /-- The language of code samples. -/
  language : Text := "javascript"
  /-- The name of the log threshold, in upper case. -/
  logLevel : Text := "INFO"
  deriving DecidableEq, Repr

namespace Settings

/-- The environment variables that hold settings. -/
inductive Variable where
  | sourceRoot
  | extension
  | language
  | logLevel
  deriving DecidableEq, Repr

/-- The name of a variable. -/
def Variable.name : Variable → Text
  | .sourceRoot => "ORCHDOCS_SOURCE_ROOT"
  | .extension => "ORCHDOCS_EXTENSION"
  | .language => "ORCHDOCS_CODE_LANGUAGE"
  | .logLevel => "ORCHDOCS_LOG_LEVEL"

/-- The settings in an environment, which gives the values of the variables that are set. -/
def ofEnvironment (env : Text → Option Text) : Settings :=
  let defaults : Settings := {}
  let value (v : Variable) (default : Text) : Text := (env v.name).getD default
  { sourceRoot := value .sourceRoot defaults.sourceRoot
    extension := value .extension defaults.extension
    language := value .language defaults.language
    logLevel := uppercase (value .logLevel defaults.logLevel) }

end Settings

end ActionDocs
