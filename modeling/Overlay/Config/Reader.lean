import Overlay.Config.Basic
import Overlay.Toml.Document

/-!
# Reading a configuration

A configuration is written as a TOML document in which the two settings are strings at the top. A
setting that is left out has its default; other keys mean nothing. `Config.load` chooses the file to
read. Documents are read by `Toml.read` unless another reader is given.
-/

namespace Overlay

namespace Config

/-- Reads the entries of a document, if it is well formed. -/
abbrev DocumentReader := String → Option Toml.Entries

/-- The value of a setting in a document, or `fallback` if it is left out. -/
def settingValue (entries : Toml.Entries) (setting : Setting) (fallback : String) :
    Except Error String :=
  match entries.get? setting.key with
  | none => .ok fallback
  | some (.value (.string text)) => .ok text
  | some _ => .error (.config .malformed)

/-- The configuration that a document gives, whether it is sound or not. -/
def ofDocument (text : String) (toml : DocumentReader := Toml.read) : Except Error Config := do
  match toml text with
  | none => .error (.config .malformed)
  | some entries =>
    let defaults : Config := {}
    let redirectedSchema ← settingValue entries .redirectedSchema defaults.redirectedSchema
    let baseAlias ← settingValue entries .baseAlias defaults.baseAlias
    .ok { redirectedSchema, baseAlias }

/-- The sound configuration that a document gives. -/
def read (text : String) (toml : DocumentReader := Toml.read) : Except Error Config := do
  let config ← ofDocument text toml
  config.check

/-- The configuration in a file, given by what comes of reading the file. -/
def ofFile (file : Except FileFault String) (toml : DocumentReader := Toml.read) :
    Except Error Config :=
  match file with
  | .ok text => read text toml
  | .error fault => .error (.file fault)

/-- Where a configuration comes from. -/
inductive Source where
  /-- A file that was asked for. -/
  | asked (file : Except FileFault String)
  /-- The file at the default place, if there is one. -/
  | standard (file : Option (Except FileFault String))

/-- The configuration from its source. Without any file it is the default one. -/
def load (source : Source) (toml : DocumentReader := Toml.read) : Except Error Config :=
  match source with
  | .asked file => ofFile file toml
  | .standard (some file) => ofFile file toml
  | .standard none => .ok {}

end Config
end Overlay
