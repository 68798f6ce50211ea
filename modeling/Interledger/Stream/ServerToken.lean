import Interledger.IlpPacket.Codec
import Interledger.Lib.Base64
import Interledger.Lib.Crypto

/-!
# The tokens of a server

`generateAddressAndSecret` of `ilp-protocol-stream/src/server.ts`, and what `getConnection` of `pool.ts`
reads of the id that an address ends with. The token in the id is encrypted under the secret of the
server, and its secret is the keyed hash of the encrypted token.

The decoder of base 64 is lenient, so that a token has other spellings than the one that was generated.

## Main results

* `tokenOf_connectionId` — the token in a generated id;
* `tokenDetails_of_generate` — and what is read of it.
-/

namespace Interledger.Stream

open Ilp (Buffer)
open Oer Interledger.Action
open Crypto (Iv ivLength authTagLength)
open IlpPacket (readFrom getBuffer newWriter)

/-- `TOKEN_NONCE_LENGTH`. -/
def tokenNonceLength : ℕ := 18

/-- What `generateTokenNonce` draws. -/
abbrev TokenNonce := { nonce : Buffer // nonce.length = tokenNonceLength }

section Encryption

variable (crypto : Crypto)

/-- `decryptSync`, which throws (`none`). -/
def decryptSync (key data : Buffer) : Option Buffer :=
  if data = [] then none
  else crypto.decipher key (data.take ivLength) (data.drop (ivLength + authTagLength))
    ((data.drop ivLength).take authTagLength)

/-- `generateSharedSecretFromToken`. -/
def generateSharedSecretFromToken (seed token : Buffer) : Buffer :=
  crypto.hmac (crypto.hmac seed (Utf8.encode "ilp_stream_shared_secret".toList)) token

/-- `generatePskEncryptionKey`. -/
def generatePskEncryptionKey (sharedSecret : Buffer) : Buffer :=
  crypto.hmac sharedSecret (Utf8.encode "ilp_stream_encryption".toList)

/-- What was encrypted is decrypted. -/
theorem decryptSync_sealed (key : Buffer) (iv : Iv) (plaintext : Buffer) :
    decryptSync crypto key (crypto.sealed key iv plaintext) = some plaintext := by
  have h_ne : crypto.sealed key iv plaintext ≠ [] := by
    intro h_empty
    have h_length := crypto.length_sealed key iv plaintext
    rw [h_empty, ivLength, authTagLength, List.length_nil] at h_length
    omega
  rw [decryptSync, if_neg h_ne, crypto.take_sealed, crypto.take_drop_sealed, crypto.drop_sealed,
    crypto.decipher_cipher]

end Encryption

/-! ### Generating -/

/-- `GenerateAddressSecretOpts`. A text in place of them is that of the tag. -/
structure GenerateAddressSecretOpts where
  connectionTag : Option String := none
  receiptNonce : Option Buffer := none
  receiptSecret : Option Buffer := none

/-- What `generateAddressAndSecret` returns. -/
structure AddressAndSecret where
  destinationAccount : String
  sharedSecret : Buffer
  receiptsEnabled : Bool

namespace GenerateAddressSecretOpts

variable (opts : GenerateAddressSecretOpts)

/-- The checks of `generateAddressAndSecret`. -/
def check : Except OerError Unit :=
  if opts.receiptNonce.isSome ≠ opts.receiptSecret.isSome then
    .error (.error "receiptNonce and receiptSecret must accompany each other")
  else if opts.receiptNonce.any (·.length ≠ 16) then .error (.error "receiptNonce must be 16 bytes")
  else if opts.receiptSecret.any (·.length ≠ 32) then .error (.error "receiptSecret must be 32 bytes")
  else .ok ()

/-- `connectionTag`, as it is written. -/
def tag : Buffer := Ascii.encode (opts.connectionTag.getD "").toList

/-- What is written, to a `Predictor` first. -/
def writeTo (tokenNonce : TokenNonce) (σ : Type) [WriterInterface σ] : Action σ OerError Unit := do
  WriterInterface.writeOctetString tokenNonce.1 tokenNonceLength
  WriterInterface.writeVarOctetString opts.tag
  WriterInterface.writeVarOctetString (opts.receiptNonce.getD [])
  WriterInterface.writeVarOctetString (opts.receiptSecret.getD [])

end GenerateAddressSecretOpts

/-- The id of a connection: `base64url` of its token. -/
def connectionId (token : Buffer) : String := String.ofList (Base64.url token)

section Server

variable (crypto : Crypto) (serverSecret : Buffer)

/-- The token that `generateAddressAndSecret` makes. -/
def generateToken (opts : GenerateAddressSecretOpts) (tokenNonce : TokenNonce) (iv : Iv) :
    Except OerError Buffer := do
  opts.check
  let plaintext ← getBuffer do
    let length ← predict (opts.writeTo tokenNonce Predictor)
    newWriter length
    opts.writeTo tokenNonce Writer
  return crypto.sealed serverSecret iv plaintext

/-- `generateAddressAndSecret` of a server that is connected. -/
def generateAddressAndSecret (serverAccount : String) (opts : GenerateAddressSecretOpts)
    (tokenNonce : TokenNonce) (iv : Iv) : Except OerError AddressAndSecret := do
  let token ← generateToken crypto serverSecret opts tokenNonce iv
  return { destinationAccount := serverAccount ++ "." ++ connectionId token
           sharedSecret := generateSharedSecretFromToken crypto serverSecret token
           receiptsEnabled := opts.receiptNonce.isSome }

/-! ### Reading -/

/-- What `getConnection` reads of a token. -/
structure TokenDetails where
  connectionTag : Option String
  receiptNonce : Option Buffer
  receiptSecret : Option Buffer
  deriving DecidableEq

/-- The tag, or an empty one. -/
def readTag : Action Reader OerError (Option String) := do
  let found ← Reader.peekVarOctetString
  if found.length ≠ 0 then some <$> readAscii
  else do
    Reader.skipVarOctetString
    return none

/-- One of the two fields of a length that is known, or an empty one. -/
def readField (length : ℕ) (message : String) : Action Reader OerError (Option Buffer) := do
  let found ← Reader.peekVarOctetString
  if found.length = 0 then do
    Reader.skipVarOctetString
    return none
  else if found.length = length then some <$> Reader.readVarOctetString
  else throw (.error message)

/-- What is read of a decrypted token. -/
def readToken : Action Reader OerError TokenDetails := do
  Reader.skip tokenNonceLength
  let connectionTag ← readTag
  let receiptNonce ← readField 16 "receiptNonce must be 16 bytes"
  let receiptSecret ← readField 32 "receiptSecret must be 32 bytes"
  return { connectionTag, receiptNonce, receiptSecret }

/-- `Buffer.from(id, 'base64')`. -/
def tokenOf (id : String) : Buffer := Base64.decode id.toList

/-- What is read of the token in an id, unless something throws (`none`). -/
def tokenDetails (id : String) : Option TokenDetails :=
  (decryptSync crypto serverSecret (tokenOf id)).bind fun plaintext => (readFrom readToken plaintext).toOption

/-- `getSharedSecret` does not throw: the data of the Prepare was encrypted under the secret of the token. -/
def opens (id : String) (data : Buffer) : Bool :=
  (decryptSync crypto
    (generatePskEncryptionKey crypto (generateSharedSecretFromToken crypto serverSecret (tokenOf id)))
    data).isSome

end Server

/-! ### What is read back -/

namespace GenerateAddressSecretOpts

variable {opts : GenerateAddressSecretOpts} {tokenNonce : TokenNonce}

/-- The plaintext of a token. -/
def bytes (opts : GenerateAddressSecretOpts) (tokenNonce : TokenNonce) : Buffer :=
  tokenNonce.1 ++ (octets opts.tag ++ (octets (opts.receiptNonce.getD []) ++
    octets (opts.receiptSecret.getD [])))

/-- What is read of it. -/
def details (opts : GenerateAddressSecretOpts) : TokenDetails where
  connectionTag := if opts.tag.length ≠ 0 then some (String.ofList (Ascii.decode opts.tag)) else none
  receiptNonce := opts.receiptNonce
  receiptSecret := opts.receiptSecret

theorem emits_writeTo : Emits (opts.writeTo tokenNonce) (opts.bytes tokenNonce) := by
  have h_nonce := Emits.writeOctetString tokenNonce.1
  rw [tokenNonce.2] at h_nonce
  exact h_nonce.bind ((Emits.writeVarOctetString _).bind ((Emits.writeVarOctetString _).bind
    (Emits.writeVarOctetString _)))

/-- What the checks leave. -/
theorem of_check (h : opts.check = .ok ()) :
    opts.receiptNonce.isSome = opts.receiptSecret.isSome ∧
      (∀ nonce ∈ opts.receiptNonce, nonce.length = 16) ∧ ∀ secret ∈ opts.receiptSecret, secret.length = 32 := by
  have h_any (field : Option Buffer) (n : ℕ) (h_not : ¬field.any (·.length ≠ n) = true) :
      ∀ bytes ∈ field, bytes.length = n := by
    rintro bytes h_mem
    obtain rfl : field = some bytes := h_mem
    exact not_not.mp fun h_ne => h_not (decide_eq_true h_ne)
  unfold check at h
  split_ifs at h with h_both h_nonce h_secret
  exact ⟨not_not.mp h_both, h_any _ 16 h_nonce, h_any _ 32 h_secret⟩

end GenerateAddressSecretOpts

/-- A field of the token. -/
theorem reads_readField {field : Option Buffer} {length : ℕ} (message : String)
    (h : ∀ bytes ∈ field, bytes.length = length) (h_pos : 0 < length) (h_small : length < 2 ^ 48) :
    Reads (readField length message) (octets (field.getD [])) field := by
  unfold readField
  cases field with
  | none =>
    -- an absent field is written as no bytes
    have h_nil : ([] : Buffer).length < 2 ^ 48 := by decide
    apply (Reader.peeks_peeking (Reader.reads_readVarOctetString h_nil)).bind_reads
    rw [if_pos List.length_nil]
    exact (Reader.reads_skipVarOctetString h_nil).map fun _ => none
  | some bytes =>
    -- one that is there has the length that is asked for
    have h_length : bytes.length = length := h bytes rfl
    have h_bytes : bytes.length < 2 ^ 48 := by rw [h_length]; exact h_small
    have h_ne : bytes.length ≠ 0 := by rw [h_length]; exact h_pos.ne'
    apply (Reader.peeks_peeking (Reader.reads_readVarOctetString h_bytes)).bind_reads
    rw [if_neg h_ne, if_pos h_length]
    exact (Reader.reads_readVarOctetString h_bytes).map some

/-- The tag of the token. -/
theorem reads_readTag {opts : GenerateAddressSecretOpts} (h_tag : opts.tag.length < 2 ^ 48) :
    Reads readTag (octets opts.tag) opts.details.connectionTag := by
  unfold readTag GenerateAddressSecretOpts.details
  apply (Reader.peeks_peeking (Reader.reads_readVarOctetString h_tag)).bind_reads
  by_cases h_empty : opts.tag.length ≠ 0
  · rw [if_pos h_empty]
    simp only [if_pos h_empty]
    exact ((Reader.reads_readVarOctetString h_tag).map fun bytes =>
      String.ofList (Ascii.decode bytes)).map some
  · rw [if_neg h_empty]
    simp only [if_neg h_empty]
    exact (Reader.reads_skipVarOctetString h_tag).map fun _ => none

/-- **What is read of the plaintext of a token.** -/
theorem reads_readToken {opts : GenerateAddressSecretOpts} {tokenNonce : TokenNonce}
    (h : opts.check = .ok ()) (h_tag : opts.tag.length < 2 ^ 48) :
    Reads readToken (opts.bytes tokenNonce) opts.details := by
  obtain ⟨-, h_nonce, h_secret⟩ := GenerateAddressSecretOpts.of_check h
  have h_skip := Reader.reads_skip tokenNonce.1
  rw [tokenNonce.2] at h_skip
  unfold readToken GenerateAddressSecretOpts.bytes
  apply h_skip.bind
  apply (reads_readTag h_tag).bind
  apply (reads_readField _ h_nonce (by decide) (by decide)).bind
  exact (reads_readField _ h_secret (by decide) (by decide)).map fun receiptSecret =>
    TokenDetails.mk opts.details.connectionTag opts.receiptNonce receiptSecret

/-- The token in a generated id. -/
theorem tokenOf_connectionId (token : Buffer) : tokenOf (connectionId token) = token := by
  rw [tokenOf, connectionId, String.toList_ofList, Base64.decode_url]

/-- **What is read of a generated id.** -/
theorem tokenDetails_of_generate {crypto : Crypto} {serverSecret token : Buffer}
    {opts : GenerateAddressSecretOpts} {tokenNonce : TokenNonce} {iv : Iv}
    (h : generateToken crypto serverSecret opts tokenNonce iv = .ok token) :
    tokenDetails crypto serverSecret (connectionId token) = some opts.details ∧
      opts.details.receiptNonce.isSome = opts.details.receiptSecret.isSome := by
  unfold generateToken at h
  obtain ⟨_, h_check, h⟩ := IlpPacket.eq_ok_of_bind_eq_ok h
  obtain ⟨plaintext, h_plaintext, h⟩ := IlpPacket.eq_ok_of_bind_eq_ok h
  obtain rfl : crypto.sealed serverSecret iv plaintext = token := Except.ok.inj h
  rw [IlpPacket.getBuffer_of_emits GenerateAddressSecretOpts.emits_writeTo] at h_plaintext
  -- the token seals exactly the bytes that were written
  obtain ⟨h_fits, h_bytes⟩ : ¬kMaxLength < (opts.bytes tokenNonce).length ∧
      opts.bytes tokenNonce = plaintext := by
    split at h_plaintext
    · cases h_plaintext
    · next h_fits => exact ⟨h_fits, Except.ok.inj h_plaintext⟩
  have h_tag : opts.tag.length < 2 ^ 48 := by
    have h_octets := length_le_length_octets opts.tag
    unfold GenerateAddressSecretOpts.bytes kMaxLength at h_fits
    simp only [List.length_append] at h_fits
    omega
  -- they are read back, and what they are sealed with opens them
  have h_read := IlpPacket.readFrom_of_reads (@reads_readToken opts tokenNonce h_check h_tag) []
  rw [List.append_nil, h_bytes] at h_read
  refine ⟨?_, (GenerateAddressSecretOpts.of_check h_check).1⟩
  rw [tokenDetails, tokenOf_connectionId, decryptSync_sealed, Option.bind_some, h_read]
  rfl

end Interledger.Stream
