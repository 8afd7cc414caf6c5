import Branching.Config
import Branching.FileView
import Branching.Yaml.Document

/-!
# Loading a configuration

A configuration comes from an optional YAML file and the environment. Without a
file the defaults hold. A file that is not there is an error naming it; a
document that is not well formed is an error naming the file and the reason,
and one whose values cannot be built fails with that error; a document that
is empty or false-like (null, false, zero, an empty text or collection) means
no settings; any other document must be a mapping, read by
`Config.ofMapping`. Last, a non-empty value of the mode variable replaces the
mode, read the way every mode text is.

The file is read with a YAML loader that the caller keeps from one load to
the next (`Yaml.Loader`).
-/

namespace Branching

/-- The name of the environment variable that replaces the header mode. -/
def modeVariable : String := "LCOND_ERROR_MODE"

namespace Config

/-- The configuration with the mode the environment gives, if it gives one. -/
def withEnvironment (c : Config) (envMode : Option String) : Except Error Config :=
  match envMode with
  | some m => if m.isEmpty then .ok c else c.withOverrides { errorMode := some (.str m) }
  | none => .ok c

/-- Loads the configuration from an optional file and the mode variable's
value, reading the file with `loader`; gives also the loader after that. -/
def load (loader : Yaml.Loader) (files : FileView) (path : Option String) (envMode : Option String) :
    Except Error Config × Yaml.Loader :=
  match path with
  | none => (withEnvironment {} envMode, loader)
  | some arg =>
    let p := normalPath arg
    match files.text p with
    | none => (.error (.config (.fileNotFound p)), loader)
    | some source =>
      let (read, loader) := loader.readMapping source
      let result := match read with
        | .failed (.malformed reason) => .error (.config (.unreadable p reason))
        | .failed (.failed e) => .error e
        | .notMapping => .error (.config (.notMapping p))
        | .entries entries =>
          match ofMapping entries with
          | .error e => .error e
          | .ok c => withEnvironment c envMode
      (result, loader)

end Config

end Branching
