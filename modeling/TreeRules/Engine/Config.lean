import TreeRules.Json.Reader
import TreeRules.Json.Record
import TreeRules.Rule.Fault
import TreeRules.Text.Blank

/-!
# Engine/Config — the settings of an engine

An engine needs a message for failures that nobody has a message for, and room for paths if it is
to keep them.
-/

namespace TreeRules

structure EngineConfig where
  fallbackMessage : String
  cachePaths : Bool
  pathCacheSize : Nat
  deriving DecidableEq, Repr

namespace EngineConfig

/-- The settings if nobody gives others. -/
def standard : EngineConfig := ⟨"The input is not valid.", true, 256⟩

/-- Settings that make no sense together are refused. -/
def validate (c : EngineConfig) : Except Fault Unit :=
  if isBlankString c.fallbackMessage then
    .error (.invalid "fallback_message must not be empty")
  else if c.cachePaths ∧ c.pathCacheSize = 0 then
    .error (.invalid "path_cache_size must be > 0 when cache_paths is set")
  else .ok ()

/-- The settings that are written; what is missing is standard. -/
def ofWritten? (w : Json.Written) : Option EngineConfig :=
  match w.fields? ["fallback_message", "cache_paths", "path_cache_size"] with
  | some [message, cache, size] => do
    return {
      fallbackMessage :=
        ← Json.Written.orDefault standard.fallbackMessage Json.Written.string? message
      cachePaths := ← Json.Written.orDefault standard.cachePaths Json.Written.bool? cache
      pathCacheSize := ← Json.Written.orDefault standard.pathCacheSize Json.Written.nat? size }
  | _ => none

/-- The settings that a text writes. -/
def ofText? (text : String) : Option EngineConfig :=
  (Json.Written.ofText? text).bind ofWritten?

end EngineConfig

end TreeRules
