import Daq.Config.App
import Daq.Files
import Daq.Json.Printer
import Daq.Json.Reader
import Daq.Toml.Printer
import Daq.Toml.Reader

set_option autoImplicit false

/-!
# Configuration files

A configuration is kept in a file whose format follows from the extension of its path. Fields that
are missing in a file have their defaults.

## Main definitions

* `Daq.Format` — the two formats.
* `Daq.AppConfig.load`, `Daq.AppConfig.save` — reading from and writing to files.
* `Daq.defaultConfigPath` — where the configuration of a user is.
-/

namespace Daq

/-- The format of a configuration file. -/
inductive Format where
  /-- JSON. -/
  | json
  /-- TOML. -/
  | toml
  deriving DecidableEq

namespace Format

/-- The format of a path: JSON for the extension `json` in any case, else TOML. -/
def ofPath (path : String) : Format :=
  match Path.extension? path with
  | some extension => if extension.map Char.toLower = ['j', 's', 'o', 'n'] then json else toml
  | none => toml

/-- The document that a text denotes. -/
def read : Format → String → Option Document
  | json => Json.read
  | toml => Toml.read

/-- What the format admits when a record or choice is read. -/
def convention : Format → Document.Convention
  | json => Json.convention
  | toml => Toml.convention

/-- The text of a document. -/
def render : Format → Document → Option String
  | json => fun d => some (Json.render d)
  | toml => Toml.render

end Format

namespace AppConfig

/-- The configuration that a text denotes. -/
def parse (format : Format) (text : String) : Option AppConfig :=
  (format.read text).bind (decode format.convention)

/-- The text of a configuration. -/
def render (format : Format) (c : AppConfig) : Option String := format.render c.encode

/-- Load a configuration that a worker can run with. -/
def load (files : Files) (path : String) : Except AcqError AppConfig :=
  match files.readText? path with
  | none => .error (.config ("Failed to read config " ++ Path.quoted path))
  | some text =>
    match parse (.ofPath path) text with
    | none => .error (.config ("Failed to parse config " ++ Path.quoted path))
    | some c => c.worker.validate.map fun _ => c

/-- Load a configuration, or take the default one. -/
def loadOrDefault (files : Files) (path : String) : AppConfig :=
  match load files path with
  | .ok c => c
  | .error _ => {}

/-- Save a configuration. -/
def save (files : Files) (path : String) (c : AppConfig) : Except AcqError Files :=
  if !files.hasRoomFor path then .error (.config "Failed to create config directory")
  else
    match c.render (.ofPath path) with
    | none => .error (.serialization "a number is out of range")
    | some text =>
      match files.write? path (Text.Utf8.encode text.toList) with
      | none => .error (.config ("Failed to write config " ++ Path.quoted path))
      | some files => .ok files

end AppConfig

/-- The path of a user's configuration: below the configuration directory if that is absolute, else
below the home directory. -/
def defaultConfigPath (home : String) (configHome : Option String) : String :=
  let directory := match configHome with
    | some path => if Path.isAbsolute path then path else Path.join home ".config"
    | none => Path.join home ".config"
  Path.join (Path.join directory "digitizer-rs") "config.toml"

end Daq
