import PetaCore.Core.CryptoService

/-!
# What is encrypted can be decrypted

Each stage is undone by its counterpart on the way back, but for three: the bytes of the ciphertext
are the arguments of one call, an empty field is taken for a missing one, and a byte order mark in
front of the text is left out.

## Key results

- `encrypt_eq_some`: the fields of what is encrypted
- `decryptDataFromString_toJson`: what is read back from its JSON text
- `decrypts_iff`: which texts come back
-/

namespace PetaCore

/-- What PBKDF2 and AES-GCM are specified to do: the ciphertext is as long as the text, with a tag
    of 16 bytes behind it, and decrypts to it. -/
structure WebCrypto.IsSpecified {κ : Type} (c : WebCrypto κ) : Prop where
  decrypt_encrypt : ∀ key iv data, c.decrypt key iv (c.encrypt key iv data) = some data
  length_encrypt : ∀ key iv data, (c.encrypt key iv data).length = data.length + 16

namespace CryptoService

variable {κ : Type} {c : WebCrypto κ}

/-! ## Stages -/

theorem toBase64_eq_some {bytes : List UInt8} {text : String} :
    toBase64 c bytes = some text ↔
      bytes.length ≤ c.maxArguments ∧ text = String.ofList (Base64.encode bytes) := by
  rw [toBase64]
  split
  · next hlong =>
    constructor
    · intro h
      cases h
    · rintro ⟨hshort, _⟩
      omega
  · next hshort =>
    rw [Option.some.injEq]
    constructor
    · rintro rfl
      exact ⟨by omega, rfl⟩
    · rintro ⟨_, rfl⟩
      rfl

theorem fromBase64_encode (bytes : List UInt8) :
    fromBase64 (String.ofList (Base64.encode bytes)) = .ok bytes := by
  rw [fromBase64, String.toList_ofList, Base64.atob_encode]

theorem ofList_encode_eq_empty {bytes : List UInt8} :
    String.ofList (Base64.encode bytes) = "" ↔ bytes = [] := by
  rw [← Base64.encode_eq_nil, ← String.toList_inj, String.toList_ofList]
  rfl

/-- The text comes back unless it has a byte order mark in front. -/
theorem decodeText_encode (s : String) :
    decodeText (Utf8.encode s.toList) = s ↔ s.toList.head? ≠ some '\uFEFF' := by
  rw [decodeText, Utf8.decode_encode]
  split
  · next text htext =>
    rw [htext]
    simp only [List.head?_cons, ne_eq, not_true_eq_false, iff_false]
    intro hs
    have hlength := congrArg (fun t => t.toList.length) hs
    simp [htext] at hlength
  · next hno =>
    rw [String.ofList_toList]
    simp only [true_iff]
    intro hhead
    obtain ⟨text, htext⟩ : ∃ text, s.toList = '\uFEFF' :: text := by
      cases hs : s.toList with
      | nil => simp [hs] at hhead
      | cons d text =>
        rw [hs, List.head?_cons, Option.some.injEq] at hhead
        exact ⟨text, by rw [hhead]⟩
    exact hno text htext

/-! ## What is encrypted -/

/-- The fields of what is encrypted: the ciphertext without its tag, the vector, the salt and the
    tag. -/
def fields (encryptedArray salt iv : List UInt8) : EncryptedData where
  data := String.ofList (Base64.encode (encryptedArray.take (encryptedArray.length - 16)))
  iv := String.ofList (Base64.encode iv)
  salt := String.ofList (Base64.encode salt)
  tag := String.ofList (Base64.encode (encryptedArray.drop (encryptedArray.length - 16)))

theorem encrypt_eq_some (hc : c.IsSpecified) (hlimit : 16 ≤ c.maxArguments) {s : String} {key : κ}
    {salt iv : List UInt8} (hsalt : salt.length = 16) (hiv : iv.length = 12) {e : EncryptedData} :
    encrypt c s key salt iv = some e ↔
      (Utf8.encode s.toList).length ≤ c.maxArguments ∧
        e = fields (c.encrypt key iv (Utf8.encode s.toList)) salt iv := by
  have hlength := hc.length_encrypt key iv (Utf8.encode s.toList)
  simp only [encrypt, Option.bind_eq_some_iff, Option.map_eq_some_iff, toBase64_eq_some,
    List.length_take, List.length_drop]
  constructor
  · rintro ⟨data, ⟨hdata, rfl⟩, iv', ⟨_, rfl⟩, salt', ⟨_, rfl⟩, tag, ⟨_, rfl⟩, rfl⟩
    exact ⟨by omega, rfl⟩
  · rintro ⟨hshort, rfl⟩
    exact ⟨_, ⟨by omega, rfl⟩, _, ⟨by omega, rfl⟩, _, ⟨by omega, rfl⟩, _, ⟨by omega, rfl⟩, rfl⟩

/-! ## What is read back -/

theorem toJson_held (e : EncryptedData) : e.toJson.Held := by
  have hnodup : ["data", "iv", "salt", "tag"].Nodup := by decide
  have hplain : ∀ key ∈ ["data", "iv", "salt", "tag"],
      key.toList.any (fun c => !c.isDigit) = true := by decide
  refine ⟨hnodup, Json.fromEntries_of_plain fun m hm => ?_, trivial, trivial, trivial, trivial,
    trivial⟩
  exact Json.arrayIndex?_eq_none (hplain m.1 (List.mem_map_of_mem hm))

/-- An empty field is taken for a missing one. -/
theorem encryptedDataOf_toJson (e : EncryptedData) : encryptedDataOf e.toJson =
    if e.data ≠ "" ∧ e.iv ≠ "" ∧ e.salt ≠ "" ∧ e.tag ≠ "" then .ok e else .error missingFields := by
  show (if (decide (e.data ≠ "") && decide (e.iv ≠ "") && decide (e.salt ≠ "") &&
    decide (e.tag ≠ "")) = true then Except.ok e else Except.error missingFields) = _
  simp only [Bool.and_eq_true, decide_eq_true_eq, and_assoc]

theorem stringify_toJson_ne_empty (e : EncryptedData) : Json.stringify e.toJson ≠ "" := by
  intro h
  have hread := Json.parse_stringify (toJson_held e)
  have hempty : Json.parse "".toList = none := by decide +kernel
  rw [h, hempty] at hread
  cases hread

/-- The text comes back from its fields unless the ciphertext without the tag is empty, or it has a
    byte order mark in front. -/
theorem decryptDataFromString_fields (hc : c.IsSpecified) {s key : String} {salt iv : List UInt8}
    (hkey : key ≠ "") (hsalt : salt.length = 16) (hiv : iv.length = 12) :
    decryptDataFromString c (Json.stringify (fields
        (c.encrypt (deriveKey c key salt) iv (Utf8.encode s.toList)) salt iv).toJson) key =
      if s = "" then .error missingFields
      else .ok (decodeText (Utf8.encode s.toList)) := by
  have hlength := hc.length_encrypt (deriveKey c key salt) iv (Utf8.encode s.toList)
  have hdata : (fields (c.encrypt (deriveKey c key salt) iv (Utf8.encode s.toList)) salt iv).data ≠
      "" ↔ s ≠ "" := by
    rw [fields, ne_eq, ofList_encode_eq_empty, ← List.length_eq_zero_iff, List.length_take]
    have hempty : s = "" ↔ (Utf8.encode s.toList).length = 0 := by
      rw [List.length_eq_zero_iff, Utf8.encode_eq_nil, ← String.toList_inj]
      rfl
    rw [ne_eq, hempty]
    omega
  have hfield : ∀ bytes : List UInt8, 0 < bytes.length →
      String.ofList (Base64.encode bytes) ≠ "" := by
    intro bytes hpos hempty
    rw [ofList_encode_eq_empty] at hempty
    rw [hempty] at hpos
    exact absurd hpos (by decide)
  have hiv' : (fields (c.encrypt (deriveKey c key salt) iv (Utf8.encode s.toList)) salt iv).iv ≠
      "" := hfield iv (by omega)
  have hsalt' : (fields (c.encrypt (deriveKey c key salt) iv (Utf8.encode s.toList)) salt iv).salt ≠
      "" := hfield salt (by omega)
  have htag : (fields (c.encrypt (deriveKey c key salt) iv (Utf8.encode s.toList)) salt iv).tag ≠
      "" := hfield _ (by rw [List.length_drop]; omega)
  rw [decryptDataFromString, if_neg (stringify_toJson_ne_empty _), if_neg hkey,
    Json.parse_stringify (toJson_held _)]
  simp only [encryptedDataOf_toJson, hdata, hiv', hsalt', htag, ne_eq, not_false_eq_true, and_true]
  by_cases hs : s = ""
  · rw [if_neg (not_not.mpr hs), if_pos hs]
    rfl
  · rw [if_pos hs, if_neg hs]
    show decryptData c _ key = _
    -- the two parts of the ciphertext are put together again
    simp only [decryptData, fields, fromBase64_encode, bind, Except.bind, List.take_append_drop,
      hc.decrypt_encrypt]

/-- A text comes back just when it is not empty, has no byte order mark in front, and has no more
    bytes than a call takes arguments. -/
theorem decrypts_iff (hc : c.IsSpecified) (hlimit : 16 ≤ c.maxArguments) (s : String) {key : String}
    (hkey : key ≠ "") {salt iv : List UInt8} (hsalt : salt.length = 16) (hiv : iv.length = 12) :
    (∃ e, encryptData c s key salt iv = some e ∧
      decryptDataFromString c (Json.stringify e.toJson) key = .ok s) ↔
    s ≠ "" ∧ s.toList.head? ≠ some '\uFEFF' ∧
      (Utf8.encode s.toList).length ≤ c.maxArguments := by
  simp only [encryptData, encrypt_eq_some hc hlimit hsalt hiv, and_assoc, exists_and_left,
    exists_eq_left, decryptDataFromString_fields hc hkey hsalt hiv]
  by_cases hs : s = ""
  · simp [hs]
  · rw [if_neg hs, Except.ok.injEq, decodeText_encode, and_comm]
    simp [hs]

/-- A cipher that adds a byte of the key, and a call with up to 125000 arguments. -/
def exampleCrypto : WebCrypto UInt8 where
  deriveKey passwordBuffer salt := (passwordBuffer ++ salt).foldl (· + ·) 0
  encrypt key _ data := data.map (· + key) ++ List.replicate 16 key
  decrypt key _ data :=
    if data.drop (data.length - 16) = List.replicate 16 key then
      some ((data.take (data.length - 16)).map (· - key))
    else none
  maxArguments := 125000

theorem isSpecified_exampleCrypto : exampleCrypto.IsSpecified := by
  constructor
  case decrypt_encrypt =>
    intro key iv data
    have hlength : (data.map (· + key) ++ List.replicate 16 key).length - 16 =
        (data.map (· + key)).length := by simp
    have hback : (fun x => x - key) ∘ (fun x => x + key) = (id : UInt8 → UInt8) := by
      funext x
      simp
    simp only [exampleCrypto, hlength, List.drop_left, List.take_left, if_true, List.map_map, hback,
      List.map_id]
  case length_encrypt =>
    intro key iv data
    simp [exampleCrypto]

theorem decrypts_iff_exampleCrypto :
    (∃ e, encryptData exampleCrypto "token" "key" (List.replicate 16 7) (List.replicate 12 5) =
        some e ∧
      decryptDataFromString exampleCrypto (Json.stringify e.toJson) "key" = .ok "token") ↔
    "token" ≠ "" ∧ "token".toList.head? ≠ some '\uFEFF' ∧
      (Utf8.encode "token".toList).length ≤ exampleCrypto.maxArguments :=
  decrypts_iff isSpecified_exampleCrypto (by decide) "token" (by decide) (by decide) (by decide)

/-- The empty text is encrypted, but not decrypted. -/
theorem empty_not_decrypted : ¬ ∀ (κ : Type) (c : WebCrypto κ), c.IsSpecified →
    16 ≤ c.maxArguments → ∀ (s key : String) (salt iv : List UInt8), key ≠ "" →
    salt.length = 16 → iv.length = 12 →
    ∃ e, encryptData c s key salt iv = some e ∧
      decryptDataFromString c (Json.stringify e.toJson) key = .ok s := by
  intro h
  obtain ⟨e, hencrypt, hdecrypt⟩ := h UInt8 exampleCrypto isSpecified_exampleCrypto (by decide) ""
    "key" (List.replicate 16 7) (List.replicate 12 5) (by decide) (by decide) (by decide)
  obtain ⟨_, rfl⟩ := (encrypt_eq_some isSpecified_exampleCrypto (by decide) (by decide)
    (by decide)).mp hencrypt
  rw [decryptDataFromString_fields isSpecified_exampleCrypto (by decide) (by decide) (by decide),
    if_pos rfl] at hdecrypt
  cases hdecrypt

end CryptoService

end PetaCore
