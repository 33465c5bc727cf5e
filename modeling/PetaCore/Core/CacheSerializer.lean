import PetaCore.Core.CacheKeyBuilder
import PetaCore.Core.ResultCacheStore
import PetaCore.ForStd.JsonParse
import PetaCore.ForStd.Utf8

/-!
# CacheSerializer

The entries of the result cache as bytes: JSON text, compressed or not. `gzip` and `gunzip` stand
for `gzipSync` and `gunzipSync`, the latter without a result when it throws.
-/

namespace PetaCore

/-- The text of an admission policy. -/
def AdmissionPolicy.value : AdmissionPolicy → String
  | .immediate => "immediate"
  | .secondHit => "second_hit"

/-- The type of `payloadEncoding`. -/
inductive PayloadEncoding where
  | json
  | gzipJson
deriving DecidableEq

def PayloadEncoding.value : PayloadEncoding → String
  | .json => "json"
  | .gzipJson => "gzip-json"

/-- `EnvelopeCreateInput` -/
structure EnvelopeCreateInput where
  operation : CacheOperationType
  serverId : String
  entityId : String
  scopeType : CacheScope
  scopeHash : String
  ttlSeconds : JsNumber
  admissionPolicy : AdmissionPolicy
  admittedAfterObservations : JsNumber
  requestHash : String
  payload : Json
  payloadBytes : JsNumber
  payloadEncoding : Option PayloadEncoding

/-- `CacheEntryEnvelope` -/
structure CacheEntryEnvelope where
  schemaVersion : JsNumber
  operation : CacheOperationType
  serverId : String
  entityId : String
  scopeType : CacheScope
  scopeHash : String
  createdAt : String
  ttlSeconds : JsNumber
  admissionPolicy : AdmissionPolicy
  admittedAfterObservations : JsNumber
  payloadEncoding : PayloadEncoding
  payloadBytes : JsNumber
  requestHash : String
  payload : Json

/-- An envelope as an object. -/
def CacheEntryEnvelope.toJson (e : CacheEntryEnvelope) : Json :=
  .obj [("schemaVersion", .num e.schemaVersion), ("operation", .str e.operation.value),
    ("serverId", .str e.serverId), ("entityId", .str e.entityId),
    ("scopeType", .str e.scopeType.value), ("scopeHash", .str e.scopeHash),
    ("createdAt", .str e.createdAt), ("ttlSeconds", .num e.ttlSeconds),
    ("admissionPolicy", .str e.admissionPolicy.value),
    ("admittedAfterObservations", .num e.admittedAfterObservations),
    ("payloadEncoding", .str e.payloadEncoding.value), ("payloadBytes", .num e.payloadBytes),
    ("requestHash", .str e.requestHash), ("payload", e.payload)]

namespace CacheSerializer

/-- `createEnvelope`; `createdAt` is the time as `toISOString` writes it. -/
def createEnvelope (input : EnvelopeCreateInput) (createdAt : String) : CacheEntryEnvelope where
  schemaVersion := .ofNat 1
  operation := input.operation
  serverId := input.serverId
  entityId := input.entityId
  scopeType := input.scopeType
  scopeHash := input.scopeHash
  createdAt := createdAt
  ttlSeconds := input.ttlSeconds
  admissionPolicy := input.admissionPolicy
  admittedAfterObservations := input.admittedAfterObservations
  payloadEncoding := input.payloadEncoding.getD .json
  payloadBytes := input.payloadBytes
  requestHash := input.requestHash
  payload := input.payload

/-- `useCompression` -/
def useCompression (envelope : CacheEntryEnvelope) (compress : Bool)
    (compressionMinBytes : JsNumber) : Bool :=
  compress && compressionMinBytes.le envelope.payloadBytes

/-- `encoding` -/
def encoding (useCompression : Bool) : PayloadEncoding := if useCompression then .gzipJson else .json

/-- `serialize` -/
def serialize (gzip : List UInt8 → List UInt8) (envelope : CacheEntryEnvelope) (compress : Bool)
    (compressionMinBytes : JsNumber) : List UInt8 :=
  let useCompression := useCompression envelope compress compressionMinBytes
  let payload := { envelope with payloadEncoding := encoding useCompression }
  let jsonBuffer := Utf8.encode (Json.stringify payload.toJson).toList
  if useCompression then gzip jsonBuffer else jsonBuffer

/-- `isGzipBuffer` -/
def isGzipBuffer : List UInt8 → Bool
  | b₀ :: b₁ :: _ => b₀ == 0x1f && b₁ == 0x8b
  | _ => false

/-- `typeof entry[key] === 'number'` -/
def isNumberField (entry : List (String × Json)) (key : String) : Bool :=
  match entry.lookup key with
  | some (.num _) => true
  | _ => false

/-- `typeof entry[key] === 'string'` -/
def isStringField (entry : List (String × Json)) (key : String) : Bool :=
  match entry.lookup key with
  | some (.str _) => true
  | _ => false

/-- Whether a field is one of these strings. -/
def isOneOf (values : List String) (entry : List (String × Json)) (key : String) : Bool :=
  match entry.lookup key with
  | some (.str s) => values.contains s
  | _ => false

/-- `isValidEnvelope` -/
def isValidEnvelope : Json → Bool
  | .obj entry =>
    isNumberField entry "schemaVersion" &&
    isOneOf ["tool", "resource", "prompt"] entry "operation" &&
    isStringField entry "serverId" &&
    isStringField entry "entityId" &&
    isOneOf ["user", "tenant", "global"] entry "scopeType" &&
    isStringField entry "scopeHash" &&
    isStringField entry "createdAt" &&
    isNumberField entry "ttlSeconds" &&
    isOneOf ["immediate", "second_hit"] entry "admissionPolicy" &&
    isNumberField entry "admittedAfterObservations" &&
    isOneOf ["json", "gzip-json"] entry "payloadEncoding" &&
    isNumberField entry "payloadBytes" &&
    isStringField entry "requestHash" &&
    (entry.lookup "payload").isSome
  | _ => false

/-- `schemaVersion === 1` -/
def hasSchemaVersion1 : Json → Bool
  | .obj entry =>
    match entry.lookup "schemaVersion" with
    | some (.num n) => n == .ofNat 1
    | _ => false
  | _ => false

/-- `payloadEncoding === 'gzip-json'` -/
def hasGzipEncoding : Json → Bool
  | .obj entry => isOneOf ["gzip-json"] entry "payloadEncoding"
  | _ => false

/-- `parsed.payloadEncoding = 'gzip-json'` -/
def setGzipEncoding : Json → Json
  | .obj entry => .obj (Dict.setEntry "payloadEncoding" (.str "gzip-json") entry)
  | a => a

/-- The part of `deserialize` after the decompression. -/
def deserializeText (gzipped : Bool) (payloadBuffer : List UInt8) : Option Json :=
  match Json.parse (Utf8.decode payloadBuffer) with
  | none => none
  | some parsed =>
    if !isValidEnvelope parsed then none
    else if !hasSchemaVersion1 parsed then none
    else if gzipped && !hasGzipEncoding parsed then some (setGzipEncoding parsed)
    else some parsed

/-- `deserialize` -/
def deserialize (gunzip : List UInt8 → Option (List UInt8)) (buffer : List UInt8) : Option Json :=
  if buffer = [] then none
  else if isGzipBuffer buffer then
    match gunzip buffer with
    | none => none
    | some payloadBuffer => deserializeText true payloadBuffer
  else deserializeText false buffer

end CacheSerializer

end PetaCore
