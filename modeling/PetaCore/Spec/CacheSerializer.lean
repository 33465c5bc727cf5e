import PetaCore.Core.CacheSerializer

/-!
# Cache entries survive storage

What the serializer writes it reads back, compressed or not, and whatever bytes it is given it
returns a valid envelope of the current version or nothing.

Key results:
- `deserialize_serialize`: an envelope is read back with the encoding that was used
- `deserialize_valid`: what is read passes the checks
-/

namespace PetaCore

namespace CacheSerializer

/-! ## The text of an envelope -/

/-- The numbers of the input are finite, and its payload is a JSON value of a program. -/
structure InputHeld (input : EnvelopeCreateInput) : Prop where
  ttlSeconds : input.ttlSeconds.IsDouble
  admittedAfterObservations : input.admittedAfterObservations.IsDouble
  payloadBytes : input.payloadBytes.IsDouble
  payload : input.payload.Held

theorem isDouble_one : (JsNumber.ofNat 1).IsDouble := by decide +kernel

/-- The keys of an envelope. -/
def envelopeKeys : List String :=
  ["schemaVersion", "operation", "serverId", "entityId", "scopeType", "scopeHash", "createdAt",
    "ttlSeconds", "admissionPolicy", "admittedAfterObservations", "payloadEncoding",
    "payloadBytes", "requestHash", "payload"]

theorem arrayIndex?_envelopeKeys {k : String} (hk : k ∈ envelopeKeys) :
    Json.arrayIndex? k = none := by
  have hall : ∀ k ∈ envelopeKeys, k.toList.any (fun c => !c.isDigit) = true := by decide
  exact Json.arrayIndex?_eq_none (hall k hk)

/-- An envelope is a JSON value of a program when its numbers and its payload are. -/
theorem toJson_held {e : CacheEntryEnvelope} (hversion : e.schemaVersion.IsDouble)
    (httl : e.ttlSeconds.IsDouble) (hobservations : e.admittedAfterObservations.IsDouble)
    (hbytes : e.payloadBytes.IsDouble) (hpayload : e.payload.Held) : e.toJson.Held := by
  have hnodup : envelopeKeys.Nodup := by decide
  refine ⟨hnodup, Json.fromEntries_of_plain ?_, ?_⟩
  · intro m hm
    exact arrayIndex?_envelopeKeys (List.mem_map_of_mem (f := Prod.fst) hm)
  · exact ⟨hversion, trivial, trivial, trivial, trivial, trivial, trivial, httl, trivial,
      hobservations, trivial, hbytes, trivial, hpayload, trivial⟩

theorem isValidEnvelope_toJson (e : CacheEntryEnvelope) : isValidEnvelope e.toJson = true := by
  have hoperation : ["tool", "resource", "prompt"].contains e.operation.value = true := by
    cases e.operation <;> decide
  have hscope : ["user", "tenant", "global"].contains e.scopeType.value = true := by
    cases e.scopeType <;> decide
  have hpolicy : ["immediate", "second_hit"].contains e.admissionPolicy.value = true := by
    cases e.admissionPolicy <;> decide
  have hencoding : ["json", "gzip-json"].contains e.payloadEncoding.value = true := by
    cases e.payloadEncoding <;> decide
  simp only [CacheEntryEnvelope.toJson, isValidEnvelope, Bool.and_eq_true]
  exact ⟨⟨⟨⟨⟨⟨⟨⟨⟨⟨⟨⟨⟨rfl, hoperation⟩, rfl⟩, rfl⟩, hscope⟩, rfl⟩, rfl⟩, rfl⟩, hpolicy⟩, rfl⟩,
    hencoding⟩, rfl⟩, rfl⟩, rfl⟩

/-- The text of an object starts with a brace, and so is not taken for compressed. -/
theorem isGzipBuffer_text (e : CacheEntryEnvelope) :
    ∃ rest, Utf8.encode (Json.stringify e.toJson).toList = 0x7b :: rest := by
  rw [Json.stringify, String.toList_ofList, CacheEntryEnvelope.toJson, Json.chars]
  exact ⟨_, rfl⟩

/-! ## Reading back -/

variable {gzip : List UInt8 → List UInt8} {gunzip : List UInt8 → Option (List UInt8)}

theorem deserializeText_encode {e : CacheEntryEnvelope} (hheld : e.toJson.Held)
    (hversion : e.schemaVersion = .ofNat 1) {gzipped : Bool}
    (hencoding : gzipped = true → e.payloadEncoding = .gzipJson) :
    deserializeText gzipped (Utf8.encode (Json.stringify e.toJson).toList) = some e.toJson := by
  have hschema : hasSchemaVersion1 e.toJson = true := by
    simp [CacheEntryEnvelope.toJson, hasSchemaVersion1, hversion]
  rw [deserializeText, Utf8.decode_encode, Json.parse_stringify hheld]
  simp only [isValidEnvelope_toJson, hschema, Bool.not_true, Bool.false_eq_true, if_false]
  cases gzipped with
  | false => rfl
  | true =>
    have hgzip : hasGzipEncoding e.toJson = true := by
      rw [CacheEntryEnvelope.toJson, hencoding rfl]
      rfl
    simp [hgzip]

/-- An envelope is read back with the encoding that was used. -/
theorem deserialize_serialize (hinverse : ∀ bytes, gunzip (gzip bytes) = some bytes)
    (hmagic : ∀ bytes, ∃ rest, gzip bytes = 0x1f :: 0x8b :: rest) {input : EnvelopeCreateInput}
    (hinput : InputHeld input) (createdAt : String) (compress : Bool)
    (compressionMinBytes : JsNumber) :
    deserialize gunzip (serialize gzip (createEnvelope input createdAt) compress
        compressionMinBytes) =
      some { createEnvelope input createdAt with
        payloadEncoding := encoding
          (useCompression (createEnvelope input createdAt) compress compressionMinBytes)
        : CacheEntryEnvelope }.toJson := by
  rw [serialize]
  generalize useCompression (createEnvelope input createdAt) compress compressionMinBytes = used
  have hheld : { createEnvelope input createdAt with
      payloadEncoding := encoding used : CacheEntryEnvelope }.toJson.Held :=
    toJson_held isDouble_one hinput.ttlSeconds hinput.admittedAfterObservations
      hinput.payloadBytes hinput.payload
  cases used with
  | true =>
    have hread := @deserializeText_encode _ hheld rfl true (fun _ => rfl)
    simp only [if_true]
    obtain ⟨rest, hgzip⟩ := hmagic
      (Utf8.encode (Json.stringify { createEnvelope input createdAt with
        payloadEncoding := encoding true : CacheEntryEnvelope }.toJson).toList)
    have hcompressed : isGzipBuffer (gzip (Utf8.encode (Json.stringify
        { createEnvelope input createdAt with
          payloadEncoding := encoding true : CacheEntryEnvelope }.toJson).toList)) = true := by
      rw [hgzip]
      rfl
    rw [deserialize, if_neg (by simp [hgzip]), if_pos hcompressed, hinverse]
    exact hread
  | false =>
    have hread := @deserializeText_encode _ hheld rfl false (fun h => by cases h)
    simp only [Bool.false_eq_true, if_false]
    obtain ⟨rest, htext⟩ := isGzipBuffer_text { createEnvelope input createdAt with
      payloadEncoding := encoding false : CacheEntryEnvelope }
    have hplain : isGzipBuffer (Utf8.encode (Json.stringify { createEnvelope input createdAt with
        payloadEncoding := encoding false : CacheEntryEnvelope }.toJson).toList) = false := by
      rw [htext]
      cases rest <;> rfl
    rw [deserialize, if_neg (by simp [htext]), if_neg (by simp [hplain])]
    exact hread

/-! ## What is read -/

/-- A valid envelope stays one when it is marked as compressed. -/
theorem isValidEnvelope_setGzipEncoding {a : Json} (h : isValidEnvelope a = true) :
    isValidEnvelope (setGzipEncoding a) = true ∧
      hasSchemaVersion1 (setGzipEncoding a) = hasSchemaVersion1 a := by
  cases a with
  | obj entry =>
    have hother : ∀ k, k ≠ "payloadEncoding" →
        (Dict.setEntry "payloadEncoding" (.str "gzip-json") entry).lookup k = entry.lookup k :=
      fun k hk => (Dict.lookup_setEntry _ _ _ k).trans (if_neg hk)
    have hencoding : (Dict.setEntry "payloadEncoding" (.str "gzip-json") entry).lookup
        "payloadEncoding" = some (.str "gzip-json") :=
      (Dict.lookup_setEntry _ _ _ _).trans (if_pos rfl)
    simp only [isValidEnvelope, isNumberField, isStringField, isOneOf, Bool.and_eq_true] at h
    constructor
    · simp only [setGzipEncoding, isValidEnvelope, isNumberField, isStringField, isOneOf,
        Bool.and_eq_true, hencoding,
        hother "schemaVersion" (by decide), hother "operation" (by decide),
        hother "serverId" (by decide), hother "entityId" (by decide),
        hother "scopeType" (by decide), hother "scopeHash" (by decide),
        hother "createdAt" (by decide), hother "ttlSeconds" (by decide),
        hother "admissionPolicy" (by decide), hother "admittedAfterObservations" (by decide),
        hother "payloadBytes" (by decide), hother "requestHash" (by decide),
        hother "payload" (by decide)]
      obtain ⟨⟨⟨⟨h, _⟩, hbytes⟩, hhash⟩, hpayload⟩ := h
      exact ⟨⟨⟨⟨h, by decide⟩, hbytes⟩, hhash⟩, hpayload⟩
    · simp only [setGzipEncoding, hasSchemaVersion1, hother "schemaVersion" (by decide)]
  | _ => cases h

/-- What is read passes the checks. -/
theorem deserialize_valid {buffer : List UInt8} {a : Json}
    (h : deserialize gunzip buffer = some a) :
    isValidEnvelope a = true ∧ hasSchemaVersion1 a = true := by
  have htext : ∀ gzipped payloadBuffer, deserializeText gzipped payloadBuffer = some a →
      isValidEnvelope a = true ∧ hasSchemaVersion1 a = true := by
    intro gzipped payloadBuffer htext
    unfold deserializeText at htext
    split at htext
    · cases htext
    · rename_i parsed _
      by_cases hvalid : isValidEnvelope parsed = true
      · by_cases hschema : hasSchemaVersion1 parsed = true
        · simp only [hvalid, hschema, Bool.not_true, Bool.false_eq_true, if_false] at htext
          split at htext
          · cases htext
            have hset := isValidEnvelope_setGzipEncoding hvalid
            exact ⟨hset.1, hset.2.trans hschema⟩
          · cases htext
            exact ⟨hvalid, hschema⟩
        · simp [hvalid, hschema] at htext
      · simp [hvalid] at htext
  unfold deserialize at h
  split at h
  · cases h
  · split at h
    · split at h
      · cases h
      · exact htext _ _ h
    · exact htext _ _ h

end CacheSerializer

open CacheSerializer

/-- Cache entries survive storage: every envelope that `createEnvelope` makes for a JSON payload is
read back from what `serialize` wrote, with the encoding that was used, whatever the compression
settings; and from any bytes at all `deserialize` reads an envelope of version 1 that
`isValidEnvelope` accepts, or nothing. -/
theorem cache_entries_survive (gzip : List UInt8 → List UInt8)
    (gunzip : List UInt8 → Option (List UInt8))
    (hinverse : ∀ bytes, gunzip (gzip bytes) = some bytes)
    (hmagic : ∀ bytes, ∃ rest, gzip bytes = 0x1f :: 0x8b :: rest) :
    (∀ (input : EnvelopeCreateInput), InputHeld input → ∀ (createdAt : String) (compress : Bool)
      (compressionMinBytes : JsNumber),
      deserialize gunzip (serialize gzip (createEnvelope input createdAt) compress
          compressionMinBytes) =
        some { createEnvelope input createdAt with
          payloadEncoding := encoding
            (useCompression (createEnvelope input createdAt) compress compressionMinBytes)
          : CacheEntryEnvelope }.toJson) ∧
      ∀ (buffer : List UInt8) (a : Json), deserialize gunzip buffer = some a →
        isValidEnvelope a = true ∧ hasSchemaVersion1 a = true :=
  ⟨fun _ hinput createdAt compress compressionMinBytes =>
    deserialize_serialize hinverse hmagic hinput createdAt compress compressionMinBytes,
    fun _ _ h => deserialize_valid h⟩

/-- A small result, stored uncompressed. -/
def sampleInput : EnvelopeCreateInput where
  operation := .tool
  serverId := "files"
  entityId := "read_file"
  scopeType := .user
  scopeHash := "u1"
  ttlSeconds := .ofNat 30
  admissionPolicy := .secondHit
  admittedAfterObservations := .ofNat 2
  requestHash := "h"
  payload := .obj [("ok", .bool true), ("items", .arr [.null, .str "\"x\"\n"])]
  payloadBytes := .ofNat 12
  payloadEncoding := none

/-- The text is not compressed here, so any pair of inverse functions may stand for the
compression. -/
theorem cache_entries_survive_sample :
    deserialize (fun bytes => some (bytes.drop 2))
        (serialize (fun bytes => 0x1f :: 0x8b :: bytes)
          (createEnvelope sampleInput "2025-01-01T00:00:00.000Z") false (.ofNat 1)) =
      some (createEnvelope sampleInput "2025-01-01T00:00:00.000Z").toJson := by
  have hpayload : sampleInput.payload.Held := by
    refine ⟨by decide, Json.fromEntries_of_plain ?_, trivial, ⟨trivial, trivial, trivial⟩, trivial⟩
    intro m hm
    have hall : ∀ k ∈ ["ok", "items"], k.toList.any (fun c => !c.isDigit) = true := by decide
    exact Json.arrayIndex?_eq_none (hall m.1 (List.mem_map_of_mem (f := Prod.fst) hm))
  have hinput : InputHeld sampleInput :=
    ⟨by decide +kernel, by decide +kernel, by decide +kernel, hpayload⟩
  exact (cache_entries_survive (fun bytes => 0x1f :: 0x8b :: bytes)
    (fun bytes => some (bytes.drop 2)) (fun _ => rfl) (fun bytes => ⟨bytes, rfl⟩)).1 sampleInput
    hinput _ false (.ofNat 1)

end PetaCore
