import MiniPascal.Json.Basic

namespace MiniPascal

/-- Limits of a run. -/
structure Config where
  maxCallDepth : Nat
deriving DecidableEq

/-- Unless told otherwise, a thousand activations may be live at once. -/
def Config.default : Config := ⟨1000⟩

/-- The same limits with another call depth. -/
def Config.withMaxCallDepth (config : Config) (depth : Nat) : Config :=
  { config with maxCallDepth := depth }

/-- Reads limits; a limit that is left out has its default. -/
def Config.ofJson? : Json → Option Config
  | .obj fields =>
    if fields.any (·.1 == "max_call_depth") then
      (Json.field "max_call_depth" fields).nat64?.map default.withMaxCallDepth
    else some default
  | .arr [] => some default
  | .arr [depth] => depth.nat64?.map default.withMaxCallDepth
  | _ => none

/-- Limits as data. -/
def Config.toJson (config : Config) : Json := .obj [("max_call_depth", .int config.maxCallDepth)]

end MiniPascal
