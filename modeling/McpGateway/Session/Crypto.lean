import McpGateway.Foundation.Base64

/-!
# Encryption of user tokens

A user's token is stored in Redis under AES-GCM, with a nonce that is drawn for each token, as base64 text.
The ciphers of Go's library are a parameter: `Aead` says what is used of a mode of encryption, namely that
what was sealed under a nonce is opened again under it.
-/

namespace McpGateway.Session

open Go

/-- A `cipher.AEAD` without additional data. -/
structure Aead where
  nonceSize : Nat
  /-- the sealed text for a nonce and a plaintext -/
  sealText : Bytes → Bytes → Bytes
  openText : Bytes → Bytes → Except String Bytes
  openText_sealText : ∀ nonce plaintext, nonce.length = nonceSize →
    openText nonce (sealText nonce plaintext) = .ok plaintext

structure Ciphers where
  Block : Type
  newCipher : Bytes → Except String Block
  newGCM : Block → Except String Aead
  newGCM_ok : ∀ key, key.length = 32 → ∃ block gcm, newCipher key = .ok block ∧ newGCM block = .ok gcm
  /-- the bytes that HKDF with SHA-256 yields for a secret and an info text -/
  hkdf : Bytes → Bytes → (n : Nat) → Except String { bs : Bytes // bs.length = n }

abbrev Rand := (n : Nat) → Except String { bs : Bytes // bs.length = n }

namespace Ciphers

variable (C : Ciphers)

def deriveEncryptionKey (signingKey : Bytes) : Except String Bytes :=
  if signingKey.length < 32 then .error "signing key too short: need at least 32 bytes"
  else do
    let key ← (C.hkdf signingKey (bytes "mcp-gateway-user-token-encryption") 32).mapError
      ("hkdf key derivation failed: " ++ ·)
    .ok key

def encrypt (rand : Rand) (key : Bytes) (plaintext : String) : Except String String := do
  let block ← (C.newCipher key).mapError ("encrypt: new cipher: " ++ ·)
  let gcm ← (C.newGCM block).mapError ("encrypt: new gcm: " ++ ·)
  let nonce ← (rand gcm.nonceSize).mapError ("encrypt: generating nonce: " ++ ·)
  -- the sealed text is appended to the nonce
  .ok (Base64.Std.encodeToString (nonce.val ++ gcm.sealText nonce.val (bytes plaintext)))

def decrypt (key : Bytes) (encoded : String) : Except String String := do
  let data ← (Base64.Std.decodeString encoded).mapError fun off =>
    "decrypt: base64 decode: illegal base64 data at input byte " ++ itoa off
  let block ← (C.newCipher key).mapError ("decrypt: new cipher: " ++ ·)
  let gcm ← (C.newGCM block).mapError ("decrypt: new gcm: " ++ ·)
  if data.length < gcm.nonceSize then .error "decrypt: ciphertext too short"
  else do
    let plaintext ← (gcm.openText (data.take gcm.nonceSize) (data.drop gcm.nonceSize)).mapError
      ("decrypt: gcm open: " ++ ·)
    .ok (text plaintext)

lemma decrypt_encrypt {rand : Rand} {key : Bytes} (hkey : key.length = 32)
    (hrand : ∀ n, ∃ bs, rand n = .ok bs) (plaintext : String) :
    ∃ encoded, C.encrypt rand key plaintext = .ok encoded ∧ C.decrypt key encoded = .ok plaintext := by
  obtain ⟨block, gcm, hblock, hgcm⟩ := C.newGCM_ok key hkey
  obtain ⟨⟨nonce, hnonce⟩, hdraw⟩ := hrand gcm.nonceSize
  refine ⟨Base64.Std.encodeToString (nonce ++ gcm.sealText nonce (bytes plaintext)), ?_, ?_⟩
  · simp only [encrypt, hblock, hgcm, hdraw, Except.mapError, bind, Except.bind]
  have hsize : ¬ (nonce ++ gcm.sealText nonce (bytes plaintext)).length < gcm.nonceSize := by
    rw [length_append]
    omega
  have hopened := gcm.openText_sealText nonce (bytes plaintext) hnonce
  simp only [decrypt, Base64.Std.decodeString_encodeToString, hblock, hgcm, Except.mapError, bind,
    Except.bind, if_neg hsize, List.take_left' hnonce, List.drop_left' hnonce, hopened, text_bytes]

end Ciphers

end McpGateway.Session
