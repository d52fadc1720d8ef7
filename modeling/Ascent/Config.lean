import Ascent.Save.Written
import Ascent.Toml.Document

/-!
Configurations, and the settings of a world that they hold.

Main exports: `Config`, `Config.read`, `Config.settings`, `ConfigProblem`.
-/

namespace Ascent

/-- The tables of a configuration. An empty one stands for one that is not there. -/
abbrev Config := List (String × Json)

/-- Why a configuration cannot be used. -/
inductive ConfigProblem where
  | unreadable (path : String)
  | engineNotATable
  | invalidEngine (problems : List Problem)
deriving DecidableEq, Repr

/-- What is wrong with a configuration, in words. -/
def ConfigProblem.message : ConfigProblem → String
  | .unreadable path => s!"Could not read config file {path}"
  | .engineNotATable => "[engine] must be a table"
  | .invalidEngine _ => "Invalid [engine] settings"

/-- Why a configuration gives no settings: a problem with it, or a fault that broke off the
reading. -/
inductive ConfigFailure where
  | problem (p : ConfigProblem)
  | fault (f : Fault)
deriving DecidableEq, Repr

namespace Config

/-- The configuration that a file at a path holds. -/
def read (path text : String) : Except ConfigFailure Config :=
  match Toml.parse text with
  | .ok tables => .ok tables
  | .error .malformed => .error (.problem (.unreadable path))
  | .error (.fault f) => .error (.fault f)

/-- The settings of a world in its table. -/
def settingsIn (engine : Json) : Except ConfigFailure Settings :=
  match (Settings.shape.accept engine 1 true).1 with
  | .ok settings => .ok settings
  | .error (.problems ps) => .error (.problem (.invalidEngine ps))
  | .error (.fault f) => .error (.fault f)

/-- The settings of a world that a configuration holds. -/
def settings (config : Config) : Except ConfigFailure Settings :=
  match Pairs.get? config "engine" with
  | none => settingsIn (.object [])
  | some (.object members) => settingsIn (.object members)
  | some _ => .error (.problem .engineNotATable)

end Config
end Ascent
