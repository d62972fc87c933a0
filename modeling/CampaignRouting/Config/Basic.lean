import CampaignRouting.Json.Record

/-! Settings of the engine itself. -/

namespace CampaignRouting
open Json

/-- Settings of validation. -/
structure ValidationConfig where
  /-- Nodes whose ids contain this text are place holders of the editor, and are not validated. With
  the empty text there are none. -/
  placeholderMarker : String
  /-- Hypotheses of at most so many characters draw a warning. -/
  minHypothesisChars : Nat
deriving BEq, DecidableEq, Repr

/-- Settings of publication. -/
structure PublishConfig where
  /-- What every store key begins with. -/
  keyPrefix : String
  /-- How long a write may take, in milliseconds. -/
  writeTimeout : Nat
deriving BEq, DecidableEq, Repr

/-- All settings of the engine. -/
structure EngineConfig where
  validation : ValidationConfig
  publish : PublishConfig
deriving BEq, DecidableEq, Repr

def ValidationConfig.default : ValidationConfig := ⟨"placeholder", 10⟩

def PublishConfig.default : PublishConfig := ⟨"campaign", 5000⟩

def EngineConfig.default : EngineConfig := ⟨.default, .default⟩

/-! ## JSON form -/

def ValidationConfig.codec : Codec ValidationConfig :=
  .record "struct ValidationConfig"
    (.cons (.withDefault "placeholder_marker" ValidationConfig.default.placeholderMarker .string) <|
      .cons (.withDefault "min_hypothesis_chars" ValidationConfig.default.minHypothesisChars .size)
        .nil)
    (fun (marker, chars, ()) => ⟨marker, chars⟩)
    (fun c => (c.placeholderMarker, c.minHypothesisChars, ()))

def PublishConfig.codec : Codec PublishConfig :=
  .record "struct PublishConfig"
    (.cons (.withDefault "key_prefix" PublishConfig.default.keyPrefix .string) <|
      .cons (.withDefault "write_timeout_ms" PublishConfig.default.writeTimeout
        (.natural "u64" UInt64.size)) .nil)
    (fun (keyPrefix, timeout, ()) => ⟨keyPrefix, timeout⟩)
    (fun c => (c.keyPrefix, c.writeTimeout, ()))

def EngineConfig.codec : Codec EngineConfig :=
  .record "struct EngineConfig"
    (.cons (.withDefault "validation" ValidationConfig.default ValidationConfig.codec) <|
      .cons (.withDefault "publish" PublishConfig.default PublishConfig.codec) .nil)
    (fun (validation, publish, ()) => ⟨validation, publish⟩)
    (fun c => (c.validation, c.publish, ()))

end CampaignRouting
