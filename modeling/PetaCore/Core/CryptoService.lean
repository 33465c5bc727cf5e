import PetaCore.Core.ClientMetadata
import PetaCore.ForStd.Base64
import PetaCore.ForStd.JsonParse
import PetaCore.ForStd.Utf8

/-!
# CryptoService

The encryption of texts under a key that is derived from a password, and their decryption from the
JSON text of what was stored. The derivation and the cipher are those of the platform, as is the
number of arguments that `String.fromCharCode.apply` can be called with.
-/

namespace PetaCore

/-- `EncryptedData`, all of it in Base64. -/
structure EncryptedData where
  data : String
  iv : String
  salt : String
  tag : String
deriving DecidableEq

def EncryptedData.toJson (e : EncryptedData) : Json :=
  .obj [("data", .str e.data), ("iv", .str e.iv), ("salt", .str e.salt), ("tag", .str e.tag)]

/-- The platform: PBKDF2 of a password and a salt, AES-GCM under a key and an initialization vector,
    whose decryption throws when the tag is wrong, and the greatest number of arguments of a call. -/
structure WebCrypto (κ : Type) where
  deriveKey : (passwordBuffer salt : List UInt8) → κ
  encrypt : κ → (iv data : List UInt8) → List UInt8
  decrypt : κ → (iv data : List UInt8) → Option (List UInt8)
  maxArguments : Nat

namespace CryptoService

variable {κ : Type} (c : WebCrypto κ)

/-! ## Encryption -/

/-- `btoa(String.fromCharCode.apply(null, Array.from(bytes)))`; there is none when the bytes are
    too many to be arguments. -/
def toBase64 (bytes : List UInt8) : Option String :=
  if c.maxArguments < bytes.length then none else some (String.ofList (Base64.encode bytes))

def deriveKey (password : String) (salt : List UInt8) : κ :=
  c.deriveKey (Utf8.encode password.toList) salt

/-- `encrypt`, with the vector that `generateIV` gives; there is none when it throws. -/
def encrypt (data : String) (key : κ) (salt iv : List UInt8) : Option EncryptedData :=
  let dataBuffer := Utf8.encode data.toList
  let encryptedArray := c.encrypt key iv dataBuffer
  -- all but the last 16 bytes, and these
  let encryptedData := encryptedArray.take (encryptedArray.length - 16)
  let tag := encryptedArray.drop (encryptedArray.length - 16)
  (toBase64 c encryptedData).bind fun data => (toBase64 c iv).bind fun iv =>
    (toBase64 c salt).bind fun salt => (toBase64 c tag).map fun tag => ⟨data, iv, salt, tag⟩

/-- `encryptData`, with the salt and the vector that are generated. -/
def encryptData (originalData key : String) (salt iv : List UInt8) : Option EncryptedData :=
  encrypt c originalData (deriveKey c key salt) salt iv

/-! ## Decryption -/

/-- `TextDecoder.decode` with its default options: a byte order mark in front is left out. -/
def decodeText (bytes : List UInt8) : String :=
  match Utf8.decode bytes with
  | '\uFEFF' :: text => String.ofList text
  | text => String.ofList text

def invalidBase64 : String := "Invalid base64 encoding in encrypted data"

/-- What `decryptDataFromString` makes of an error of `atob`. -/
def fromBase64 (text : String) : Except String (List UInt8) :=
  match Base64.atob text.toList with
  | none => .error invalidBase64
  | some bytes => .ok bytes

/-- `decryptData` and `decrypt`, with the errors that `decryptDataFromString` makes of theirs. -/
def decryptData (encryptedData : EncryptedData) (key : String) : Except String String := do
  let salt ← fromBase64 encryptedData.salt
  let cryptoKey := deriveKey c key salt
  let data ← fromBase64 encryptedData.data
  let iv ← fromBase64 encryptedData.iv
  let tag ← fromBase64 encryptedData.tag
  match c.decrypt cryptoKey iv (data ++ tag) with
  | none => .error "Decryption failed: invalid key or corrupted data"
  | some decryptedBuffer => .ok (decodeText decryptedBuffer)

/-- Whether a member counts as true. -/
def isTruthy : Option Json → Bool
  | none | some .null | some (.bool false) => false
  | some (.num n) => n.mantissa ≠ 0
  | some (.str s) => s ≠ ""
  | some _ => true

def missingFields : String := "Missing required fields in encrypted data object"

/-- What `JSON.parse` has given, as encrypted data; a member that is no text is read as one. -/
def encryptedDataOf : Json → Except String EncryptedData
  | .obj members =>
    if isTruthy (members.lookup "data") && isTruthy (members.lookup "iv") &&
        isTruthy (members.lookup "salt") && isTruthy (members.lookup "tag") then
      .ok {
        data := ((members.lookup "data").map jsonText).getD ""
        iv := ((members.lookup "iv").map jsonText).getD ""
        salt := ((members.lookup "salt").map jsonText).getD ""
        tag := ((members.lookup "tag").map jsonText).getD "" }
    else .error missingFields
  | .arr _ => .error missingFields
  | _ => .error "Parsed data must be an object"

/-- `decryptDataFromString` -/
def decryptDataFromString (encryptedDataString key : String) : Except String String :=
  if encryptedDataString = "" then
    .error "Invalid encrypted data string: must be a non-empty string"
  else if key = "" then .error "Invalid decryption key: must be a non-empty string"
  else
    match Json.parse encryptedDataString.toList with
    | none => .error "Invalid JSON format in encrypted data string"
    | some parsed => (encryptedDataOf parsed).bind fun encryptedData =>
        decryptData c encryptedData key

end CryptoService

end PetaCore
