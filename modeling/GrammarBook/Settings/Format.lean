import GrammarBook.Files.Path
import GrammarBook.Settings.Json
import GrammarBook.Settings.Toml.Statement
import GrammarBook.Settings.Yaml.Document

namespace GrammarBook
namespace Settings

/-!
# Formats of settings files

The extension of a settings file says how it is written.
-/

/-- The formats. -/
inductive Format where
  | toml
  | yaml
  | json
  deriving DecidableEq, Repr

def Format.name : Format → String
  | toml => "TOML"
  | yaml => "YAML"
  | json => "JSON"

def Format.ofExtension? (extension : String) : Option Format :=
  if extension = "toml" then some .toml
  else if extension = "yaml" ∨ extension = "yml" then some .yaml
  else if extension = "json" then some .json
  else none

def Format.read? : Format → List Char → Option Value
  | toml, text => TomlFormat.read? text
  | yaml, text => YamlFormat.read? text
  | json, text => JsonFormat.read? text

/-- The settings in a file with the given path and content. -/
def read (path content : String) : Except SettingsProblem Settings :=
  match (Path.extension? path).bind Format.ofExtension? with
  | none => .error (.unknownExtension ((Path.fileName? path).getD ""))
  | some format =>
    match (format.read? content.toList).bind ofValue? with
    | none => .error (.malformed format.name)
    | some settings => settings.check.map fun _ => settings

end Settings
end GrammarBook
