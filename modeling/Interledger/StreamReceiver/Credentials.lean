import Interledger.StreamReceiver.Utils

/-!
# Credentials of the stateless receiver

`generateCredentials`, `extractLocalAddressSegment` and `decryptToken` of `stream-receiver/src/index.ts`. All
that the receiver has to know about a connection is in the token that it puts into the address, encrypted
under a key of its own.

## Main results

* `StreamServer.extractLocalAddressSegment_eq_some` — which addresses have a segment of the server;
* `StreamServer.decryptToken_of_generateCredentials` — the addresses that it generates have one, the token
  of which it takes for its own.
-/

namespace Interledger.StreamReceiver

open Ilp (Buffer)
open Oer Interledger.Action
open Crypto (Iv ivLength authTagLength)
open IlpPacket (isValidIlpAddress getBuffer readFrom)

/-- What is needed to sign receipts. -/
structure ReceiptSetup where
  nonce : Buffer
  secret : Buffer
  deriving DecidableEq

/-- The asset of the receiver. -/
structure AssetDetails where
  code : String
  scale : ℕ
  deriving DecidableEq

/-- `ConnectionDetails`. -/
structure ConnectionDetails where
  paymentTag : Option String := none
  receiptSetup : Option ReceiptSetup := none
  asset : Option AssetDetails := none
  deriving DecidableEq

/-- `StreamCredentials`. -/
structure StreamCredentials where
  ilpAddress : String
  sharedSecret : Buffer
  deriving DecidableEq

/-! `TOKEN_FLAGS`. -/

def paymentTagFlag : ℕ := 1
def receiptsFlag : ℕ := 2
def assetDetailsFlag : ℕ := 4

/-- `StreamServer`. -/
structure StreamServer where
  serverAddress : String
  sharedSecretKeyGen : Buffer
  connectionTokenKeyGen : Buffer
  isValid : isValidIlpAddress serverAddress = true

/-! ### Tokens -/

/-- The fields of a token that has a flag for them. -/
def readFlagged {α : Type} (flags flag : ℕ) (x : Action Reader OerError α) :
    Action Reader OerError (Option α) :=
  if flags &&& flag ≠ 0 then do return some (← x) else pure none

/-- What `decryptToken` reads. -/
def readDetails : Action Reader OerError ConnectionDetails := do
  let flags ← Reader.readUIntNumber 1
  let paymentTag ← readFlagged flags paymentTagFlag readAscii
  let receiptSetup ← readFlagged flags receiptsFlag do
    let nonce ← Reader.read 16
    return ({ nonce, secret := ← Reader.read 32 } : ReceiptSetup)
  let asset ← readFlagged flags assetDetailsFlag do
    let code ← readUtf8
    return ({ code, scale := ← Reader.readUIntNumber 1 } : AssetDetails)
  return { paymentTag, receiptSetup, asset }

/-- The fields of a token, if it has them. -/
def writeOption {α : Type} (f : α → Action Writer OerError Unit) : Option α → Action Writer OerError Unit
  | none => pure ()
  | some a => f a

/-- The checks of `receiptSetup`. -/
def ReceiptSetup.check (setup : ReceiptSetup) : Except OerError Unit :=
  if setup.nonce.length ≠ 16 then
    .error (.error "Failed to generate credentials: receipt nonce must be 16 bytes")
  else if setup.secret.length ≠ 32 then
    .error (.error "Failed to generate credentials: receipt secret must be 32 bytes")
  else .ok ()

/-- `isValidAssetScale`, of an integer that is not negative. -/
def AssetDetails.check (asset : AssetDetails) : Except OerError Unit :=
  if 255 < asset.scale then .error (.error "Failed to generate credentials: invalid asset scale") else .ok ()

namespace ConnectionDetails

variable (options : ConnectionDetails)

/-- `paymentTag` in `generateCredentials`. The empty one counts for none. -/
def tag : Option Buffer := (options.paymentTag.filter (· ≠ "")).map fun tag => Ascii.encode tag.toList

/-- `flags` in `generateCredentials`. -/
def flags : ℕ :=
  (if options.tag.isSome then paymentTagFlag else 0) |||
    (if options.receiptSetup.isSome then receiptsFlag else 0) |||
    if options.asset.isSome then assetDetailsFlag else 0

/-- What `generateCredentials` writes. -/
def write : Action Writer OerError Unit := do
  Writer.writeUInt8 (.number options.flags)
  writeOption Writer.writeVarOctetString options.tag
  writeOption (fun setup : ReceiptSetup => do
    Writer.write setup.nonce
    Writer.write setup.secret) options.receiptSetup
  writeOption (fun asset : AssetDetails => do
    Writer.writeVarOctetString (Utf8.encode asset.code.toList)
    Writer.writeUInt8 (.number asset.scale)) options.asset

/-- The checks of `generateCredentials`. -/
def check : Except OerError Unit := do
  options.receiptSetup.forM ReceiptSetup.check
  options.asset.forM AssetDetails.check

end ConnectionDetails

/-! ### The server -/

namespace StreamServer

variable (crypto : Crypto)

/-- The `constructor`. -/
def new (serverSecret : Buffer) (serverAddress : String) : Except OerError StreamServer :=
  if serverSecret.length ≠ 32 then .error (.error "Server secret must be 32 bytes")
  else if h : isValidIlpAddress serverAddress = true then
    .ok
      { serverAddress
        sharedSecretKeyGen := crypto.hmac serverSecret (Utf8.encode "ilp_stream_shared_secret".toList)
        connectionTokenKeyGen := crypto.hmac serverSecret (Utf8.encode "ilp_stream_connection_token".toList)
        isValid := h }
  else .error (.error "Invalid server base ILP address")

variable (server : StreamServer)

/-- `generateCredentials`, with what earlier calls have left in `TOKEN_GENERATION_BUFFER`. -/
def generateCredentialsIn (buffer : Buffer) (options : ConnectionDetails) (iv : Iv) :
    Except OerError StreamCredentials := do
  options.check
  let plaintext ← getBuffer do
    modify fun _ => Writer.ofBuffer buffer
    options.write
  let token := encrypt crypto server.connectionTokenKeyGen iv plaintext
  let sharedSecret := crypto.hmac server.sharedSecretKeyGen token
  let destinationAddress := server.serverAddress ++ "." ++ base64url token
  if !isValidIlpAddress destinationAddress then
    throw (.error "Failed to generate credentials: too much data to encode within an ILP address")
  return { ilpAddress := destinationAddress, sharedSecret }

/-- `generateCredentials`, when it is called for the first time. -/
def generateCredentials (options : ConnectionDetails) (iv : Iv) : Except OerError StreamCredentials :=
  server.generateCredentialsIn crypto (List.replicate 767 0) options iv

/-- `extractLocalAddressSegment`. The first of the parts between dots ends at the first dot. -/
def extractLocalAddressSegment (destinationAddress : String) : Option (List Char) :=
  let localAddressPart :=
    (destinationAddress.toList.drop (server.serverAddress.toList.length + 1)).takeWhile (· ≠ '.')
  if (server.serverAddress.toList ++ ['.']).isPrefixOf destinationAddress.toList && localAddressPart ≠ [] then
    some localAddressPart
  else none

/-- `decryptToken`. -/
def decryptToken (token : Buffer) : Option ConnectionDetails :=
  (decrypt crypto server.connectionTokenKeyGen token).bind fun decryptedToken =>
    (readFrom readDetails decryptedToken).toOption

/-! ### Segments -/

variable {server}

/-- **Whether an address has a segment of the server.** -/
theorem extractLocalAddressSegment_eq_some {destinationAddress : String} {segment : List Char} :
    server.extractLocalAddressSegment destinationAddress = some segment ↔
      segment ≠ [] ∧ '.' ∉ segment ∧ ∃ more,
        destinationAddress.toList = server.serverAddress.toList ++ '.' :: (segment ++ more) ∧
        ∀ c ∈ more.head?, c = '.' := by
  have h_length : server.serverAddress.toList.length + 1 = (server.serverAddress.toList ++ ['.']).length := by
    rw [List.length_append]
    rfl
  unfold extractLocalAddressSegment
  rw [h_length, Option.ite_none_right_eq_some, Bool.and_eq_true_iff, List.isPrefixOf_iff_prefix,
    decide_eq_true_iff]
  constructor
  · -- the segment is what comes before the next dot
    rintro ⟨⟨⟨rest, h_rest⟩, h_ne⟩, h_segment⟩
    have h_segment := Option.some.inj h_segment
    rw [← h_rest, List.drop_left] at h_segment h_ne
    rw [h_segment] at h_ne
    refine ⟨h_ne, ?_, rest.dropWhile (· ≠ '.'), ?_, ?_⟩
    · intro h_dot
      rw [← h_segment] at h_dot
      have h_not : decide ('.' ≠ '.') = true := List.mem_takeWhile_imp (p := fun c => decide (c ≠ '.')) h_dot
      exact of_decide_eq_true h_not rfl
    · rw [← h_segment, List.takeWhile_append_dropWhile, ← h_rest, List.append_assoc]
      rfl
    · intro c hc
      have h_head := List.head?_dropWhile_not (· ≠ '.') rest
      rw [hc] at h_head
      simpa using h_head
  · rintro ⟨h_ne, h_dot, more, h_destination, h_more⟩
    -- and whatever has a segment in this place is split there
    have h_rest : destinationAddress.toList = (server.serverAddress.toList ++ ['.']) ++ (segment ++ more) := by
      rw [h_destination, List.append_assoc]
      rfl
    have h_take : (segment ++ more).takeWhile (· ≠ '.') = segment := by
      have h_segment : ∀ c ∈ segment, decide (c ≠ '.') = true := by
        intro c hc
        apply decide_eq_true
        rintro rfl
        exact h_dot hc
      rw [List.takeWhile_append_of_pos h_segment]
      have h_nil : more.takeWhile (· ≠ '.') = [] := by
        cases more with
        | nil => rfl
        | cons c more =>
          obtain rfl : c = '.' := h_more c rfl
          rfl
      rw [h_nil, List.append_nil]
    rw [h_rest, List.drop_left, h_take]
    exact ⟨⟨List.prefix_append _ _, h_ne⟩, rfl⟩

end StreamServer

/-! ### Tokens that the server has generated -/

/-- The fields of a token are written, if it has them, -/
theorem appends_writeOption {α : Type} {f : α → Action Writer OerError Unit} {enc : α → Buffer}
    {o : Option α} (h : ∀ a ∈ o, Writer.Appends (f a) (enc a)) :
    Writer.Appends (writeOption f o) (o.elim [] enc) := by
  cases o with
  | none => exact .of_writes .pure
  | some a => exact h a rfl

/-- and read back, if the flag says so. -/
theorem reads_readFlagged {α β : Type} {flags flag : ℕ} {x : Action Reader OerError β} {enc : α → Buffer}
    {dec : α → β} {o : Option α} (h_flag : flags &&& flag ≠ 0 ↔ o.isSome)
    (h : ∀ a ∈ o, Reads x (enc a) (dec a)) :
    Reads (readFlagged flags flag x) (o.elim [] enc) (o.map dec) := by
  unfold readFlagged
  cases o with
  | none =>
    rw [if_neg (fun h_ne => Bool.false_ne_true (h_flag.mp h_ne))]
    exact .pure none
  | some a =>
    rw [if_pos (h_flag.mpr rfl)]
    exact (h a rfl).map some

namespace ConnectionDetails

variable {options : ConnectionDetails}

/-- The bytes of an asset. -/
def assetBytes (asset : AssetDetails) : Buffer :=
  octets (Utf8.encode asset.code.toList) ++ Bytes.toBytes 1 asset.scale

/-- The bytes of a token. -/
def bytes (options : ConnectionDetails) : Buffer :=
  Bytes.toBytes 1 options.flags ++ (options.tag.elim [] octets ++
    (options.receiptSetup.elim [] (fun setup => setup.nonce ++ setup.secret) ++
      options.asset.elim [] assetBytes))

/-- The details that are in a token. Of the characters of the payment tag, seven bits are. -/
def decoded (options : ConnectionDetails) : ConnectionDetails :=
  { options with paymentTag := options.tag.map fun tag => String.ofList (Ascii.decode tag) }

/-- The flags say what a token has. -/
theorem flags_spec (options : ConnectionDetails) :
    options.flags < 256 ^ 1 ∧ (options.flags &&& paymentTagFlag ≠ 0 ↔ options.tag.isSome) ∧
      (options.flags &&& receiptsFlag ≠ 0 ↔ options.receiptSetup.isSome) ∧
      (options.flags &&& assetDetailsFlag ≠ 0 ↔ options.asset.isSome) := by
  unfold flags
  cases options.tag.isSome <;> cases options.receiptSetup.isSome <;> cases options.asset.isSome <;> decide

/-- What the checks have left. -/
structure IsChecked (options : ConnectionDetails) : Prop where
  receiptSetup : ∀ setup ∈ options.receiptSetup, setup.nonce.length = 16 ∧ setup.secret.length = 32
  asset : ∀ asset ∈ options.asset, asset.scale < 256

theorem isChecked_of_check (h : options.check = .ok ()) : options.IsChecked := by
  have h_first : options.receiptSetup.forM ReceiptSetup.check = .ok () := by
    unfold check at h
    cases h_setup : options.receiptSetup.forM ReceiptSetup.check with
    | ok u => rfl
    | error e =>
      rw [h_setup] at h
      cases h
  have h_second : options.asset.forM AssetDetails.check = .ok () := by
    unfold check at h
    rw [h_first] at h
    exact h
  refine ⟨?_, ?_⟩
  · intro setup h_setup
    rw [Option.mem_def.mp h_setup] at h_first
    change setup.check = .ok () at h_first
    unfold ReceiptSetup.check at h_first
    split_ifs at h_first with h_nonce h_secret
    exact ⟨not_not.mp h_nonce, not_not.mp h_secret⟩
  · intro asset h_asset
    rw [Option.mem_def.mp h_asset] at h_second
    change asset.check = .ok () at h_second
    unfold AssetDetails.check at h_second
    split_ifs at h_second with h_scale
    exact Nat.lt_succ_of_le (not_lt.mp h_scale)

/-- A token is written as these bytes, -/
theorem appends_write (h : options.IsChecked) : Writer.Appends options.write options.bytes := by
  have h_asset : ∀ asset ∈ options.asset, Writer.Appends (do
      Writer.writeVarOctetString (Utf8.encode asset.code.toList)
      Writer.writeUInt8 (.number asset.scale)) (assetBytes asset) := by
    intro asset h_mem
    have h_scale : asset.scale < 256 ^ 1 := h.asset asset h_mem
    exact (Writer.Appends.writeVarOctetString _).bind (.writeUInt_number le_rfl (by decide) h_scale)
  have h_setup : ∀ setup ∈ options.receiptSetup, Writer.Appends (do
      Writer.write setup.nonce
      Writer.write setup.secret) (setup.nonce ++ setup.secret) := by
    intro setup _
    exact (Writer.Appends.of_writes (Writer.writes_write _)).bind (.of_writes (Writer.writes_write _))
  exact (Writer.Appends.writeUInt_number le_rfl (by decide) options.flags_spec.1).bind
    ((appends_writeOption fun tag _ => Writer.Appends.writeVarOctetString tag).bind
      ((appends_writeOption h_setup).bind (appends_writeOption h_asset)))

/-- and read back. -/
theorem reads_readDetails (h : options.IsChecked) (h_length : options.bytes.length < 2 ^ 48) :
    Reads readDetails options.bytes options.decoded := by
  obtain ⟨h_lt, h_tag, h_receipts, h_asset⟩ := options.flags_spec
  have h_fits : (options.tag.elim [] octets).length < 2 ^ 48 ∧
      (options.asset.elim [] assetBytes).length < 2 ^ 48 := by
    simp only [bytes, List.length_append] at h_length
    omega
  -- each part is read as it was written
  have h_tags : ∀ tag ∈ options.tag, Reads readAscii (octets tag) (String.ofList (Ascii.decode tag)) := by
    intro tag h_mem
    rw [Option.mem_def.mp h_mem] at h_fits
    exact (reads_octets h_fits.1).map fun bytes => String.ofList (Ascii.decode bytes)
  have h_setups : ∀ setup ∈ options.receiptSetup, Reads (do
      let nonce ← Reader.read 16
      return ({ nonce, secret := ← Reader.read 32 } : ReceiptSetup)) (setup.nonce ++ setup.secret) setup := by
    intro setup h_mem
    obtain ⟨h_nonce, h_secret⟩ := h.receiptSetup setup h_mem
    have h_first := Reader.reads_read setup.nonce
    have h_second := (Reader.reads_read setup.secret).map fun secret => ReceiptSetup.mk setup.nonce secret
    rw [h_nonce] at h_first
    rw [h_secret] at h_second
    exact h_first.bind h_second
  have h_assets : ∀ asset ∈ options.asset, Reads (do
      let code ← readUtf8
      return ({ code, scale := ← Reader.readUIntNumber 1 } : AssetDetails)) (assetBytes asset) asset := by
    intro asset h_mem
    rw [Option.mem_def.mp h_mem] at h_fits
    have h_code : (octets (Utf8.encode asset.code.toList)).length < 2 ^ 48 := by
      have h_both := h_fits.2
      change (octets _ ++ Bytes.toBytes 1 asset.scale).length < _ at h_both
      rw [List.length_append] at h_both
      omega
    have h_scale : asset.scale < 256 ^ 1 := h.asset asset h_mem
    exact (reads_utf8 h_code).bind
      ((Reader.reads_number le_rfl (by decide) h_scale).map fun scale => AssetDetails.mk asset.code scale)
  -- the flags say which parts there are
  have h_last := (reads_readFlagged h_asset h_assets).map fun asset =>
    ConnectionDetails.mk (options.tag.map fun tag => String.ofList (Ascii.decode tag))
      (options.receiptSetup.map id) asset
  have h_decoded : options.decoded = ConnectionDetails.mk
      (options.tag.map fun tag => String.ofList (Ascii.decode tag)) (options.receiptSetup.map id)
      (options.asset.map id) := by
    rw [decoded, Option.map_id_fun, Option.map_id_fun]
    rfl
  rw [readDetails, bytes, h_decoded]
  apply (Reader.reads_number le_rfl (by decide) h_lt).bind
  apply (reads_readFlagged h_tag h_tags).bind
  apply (reads_readFlagged h_receipts h_setups).bind
  exact h_last

end ConnectionDetails

namespace StreamServer

variable {crypto : Crypto} {server : StreamServer} {options : ConnectionDetails} {iv : Iv}
  {credentials : StreamCredentials}

/-- What is written to a buffer of fixed size. -/
theorem eq_of_getBuffer {x : Action Writer OerError Unit} {bytes binary buffer : Buffer}
    (h : Writer.Appends x bytes)
    (h_ok : getBuffer (do
      modify fun _ => Writer.ofBuffer buffer
      x) = .ok binary) : binary = bytes := by
  have h_modify : (modify fun _ => Writer.ofBuffer buffer : Action Writer OerError Unit).exec Writer.empty =
      (.ok (), Writer.ofBuffer buffer) :=
    rfl
  unfold getBuffer at h_ok
  rw [exec_bind_ok h_modify] at h_ok
  cases h_exec : x.exec (Writer.ofBuffer buffer) with
  | mk result w =>
    rw [h_exec] at h_ok
    cases result with
    | error e => cases h_ok
    | ok u =>
      obtain rfl := Except.ok.inj h_ok
      exact h.written _ _ h_exec

/-- What the credentials are made of. -/
theorem exists_token {buffer : Buffer}
    (h : server.generateCredentialsIn crypto buffer options iv = .ok credentials) :
    ∃ token, token = encrypt crypto server.connectionTokenKeyGen iv options.bytes ∧ options.IsChecked ∧
      credentials.ilpAddress = server.serverAddress ++ "." ++ base64url token ∧
      credentials.sharedSecret = crypto.hmac server.sharedSecretKeyGen token ∧
      isValidIlpAddress credentials.ilpAddress = true := by
  unfold generateCredentialsIn at h
  cases h_check : options.check with
  | error e =>
    rw [h_check] at h
    cases h
  | ok u =>
    -- the options were checked
    have h_checked := ConnectionDetails.isChecked_of_check h_check
    rw [h_check] at h
    -- written, encrypted, and put in an address that is checked in turn
    cases h_plaintext : getBuffer (do
      modify fun _ => Writer.ofBuffer buffer
      options.write) with
    | error e =>
      change (getBuffer _ >>= _) = _ at h
      rw [h_plaintext] at h
      cases h
    | ok plaintext =>
      change (getBuffer _ >>= _) = _ at h
      obtain rfl := eq_of_getBuffer (ConnectionDetails.appends_write h_checked) h_plaintext
      rw [h_plaintext] at h
      change (if _ then _ else _) = Except.ok credentials at h
      split at h
      · cases h
      · next h_valid =>
        obtain rfl := Except.ok.inj h
        exact ⟨_, rfl, h_checked, rfl, rfl, by simpa using h_valid⟩

theorem toList_ilpAddress {token : Buffer}
    (h : credentials.ilpAddress = server.serverAddress ++ "." ++ base64url token) :
    credentials.ilpAddress.toList = server.serverAddress.toList ++ '.' :: Base64.url token := by
  have h_segment : (base64url token).toList = Base64.url token := String.toList_ofList
  rw [h, String.toList_append, String.toList_append, h_segment, List.append_assoc]
  rfl

/-- **The server knows the addresses that it has generated**, and those below them. They have a segment of
its own, the token in which decrypts to the details that were put into it. -/
theorem decryptToken_of_generateCredentials {buffer : Buffer} {subaddress : String}
    (h : server.generateCredentialsIn crypto buffer options iv = .ok credentials)
    (h_subaddress : ∀ c ∈ subaddress.toList.head?, c = '.') :
    ∃ segment, server.extractLocalAddressSegment (credentials.ilpAddress ++ subaddress) = some segment ∧
      server.decryptToken crypto (Base64.decode segment) = some options.decoded ∧
      credentials.sharedSecret = crypto.hmac server.sharedSecretKeyGen (Base64.decode segment) := by
  obtain ⟨token, h_token, h_checked, h_address, h_secret, h_valid⟩ := exists_token h
  have h_list := toList_ilpAddress h_address
  have h_decode : Base64.decode (Base64.url token) = token := Base64.decode_url token
  -- the token is some bytes longer than the options
  have h_length : token.length = ivLength + authTagLength + options.bytes.length := by
    rw [h_token]
    exact crypto.length_sealed _ _ _
  -- what fits in an address is short
  have h_short : options.bytes.length ≤ 1023 := by
    obtain ⟨h_max, -⟩ := Bool.and_eq_true_iff.mp h_valid
    have h_max : credentials.ilpAddress.toList.length ≤ 1023 := of_decide_eq_true h_max
    have h_segment := Base64.length_decode_le (Base64.url token)
    rw [h_decode] at h_segment
    rw [h_list, List.length_append, List.length_cons] at h_max
    omega
  refine ⟨Base64.url token, ?_, ?_, ?_⟩
  · rw [extractLocalAddressSegment_eq_some]
    refine ⟨?_, ?_, subaddress.toList, ?_, h_subaddress⟩
    · -- the token is not empty
      intro h_nil
      rw [h_nil] at h_decode
      rw [← h_decode] at h_length
      exact absurd h_length (by
        change ¬0 = 12 + 16 + _
        omega)
    · exact Base64.dot_not_mem_url token
    · rw [String.toList_append, h_list, List.append_assoc]
      rfl
  · have h_read := IlpPacket.readFrom_of_reads
      (ConnectionDetails.reads_readDetails h_checked (by omega)) []
    rw [List.append_nil] at h_read
    rw [h_decode, decryptToken, h_token, decrypt_encrypt, Option.bind_some, h_read]
    rfl
  · rw [h_decode, h_secret]

end StreamServer

/-! ### The code of an asset -/

theorem takes_readFlagged {α : Type} {flags flag : ℕ} {x : Action Reader OerError α} {P : Buffer → α → Prop}
    (hx : Takes x P) : Takes (readFlagged flags flag x) fun bytes o => ∀ a ∈ o, P bytes a := by
  apply Takes.ite
  · intro _
    apply (hx.bind fun a => Takes.pure (some a)).mono
    rintro bytes o ⟨us, vs, a, rfl, h_first, rfl, rfl⟩ b h_b
    obtain rfl := Option.some.inj h_b
    rwa [List.append_nil]
  · intro _
    apply (Takes.pure none).mono
    rintro bytes o ⟨-, rfl⟩
    exact nofun

/-- A text that is read has at most three bytes for each of those that it is read from. -/
theorem takes_readUtf8 : Takes readUtf8 fun bytes text =>
    (Utf8.encode text.toList).length ≤ 3 * bytes.length := by
  apply (Reader.takes_readVarOctetString.bind fun bytes =>
    Takes.pure (String.ofList (Utf8.decode bytes))).mono
  rintro bytes text ⟨us, vs, value, rfl, ⟨pre, rfl, -⟩, rfl, rfl⟩
  have h_le := Utf8.length_encode_decode_le value
  rw [String.toList_ofList, List.append_nil, List.length_append]
  omega

theorem takes_readDetails : Takes readDetails fun bytes details =>
    ∀ asset ∈ details.asset, (Utf8.encode asset.code.toList).length ≤ 3 * bytes.length := by
  -- a code read as UTF-8 takes three bytes for each that was read, at most
  have h_asset : Takes (do
      let code ← readUtf8
      return ({ code, scale := ← Reader.readUIntNumber 1 } : AssetDetails)) fun bytes asset =>
      (Utf8.encode asset.code.toList).length ≤ 3 * bytes.length := by
    apply (takes_readUtf8.bind fun code => (Reader.takes_readUIntNumber 1).bind fun scale =>
      Takes.pure (AssetDetails.mk code scale)).mono
    rintro bytes asset ⟨us, _, code, rfl, h_code, vs, _, scale, rfl, -, -, rfl⟩
    rw [List.length_append]
    change (Utf8.encode code.toList).length ≤ _
    omega
  -- nothing is needed of the other parts
  have h_tag (flags : ℕ) : Takes (readFlagged flags paymentTagFlag readAscii) fun _ _ => True := by
    apply (takes_readFlagged (Reader.takes_readVarOctetString.bind fun bytes =>
      Takes.pure (String.ofList (Ascii.decode bytes)))).mono
    exact fun _ _ _ => trivial
  have h_setup (flags : ℕ) : Takes (readFlagged flags receiptsFlag do
      let nonce ← Reader.read 16
      return ({ nonce, secret := ← Reader.read 32 } : ReceiptSetup)) fun _ _ => True := by
    apply (takes_readFlagged ((Reader.takes_read 16).bind fun nonce => (Reader.takes_read 32).bind fun secret =>
      Takes.pure (ReceiptSetup.mk nonce secret))).mono
    exact fun _ _ _ => trivial
  apply ((Reader.takes_readUIntNumber 1).bind fun flags => (h_tag flags).bind fun tag =>
    (h_setup flags).bind fun setup => (takes_readFlagged h_asset).bind fun asset =>
      Takes.pure (ConnectionDetails.mk tag setup asset)).mono
  rintro bytes details ⟨_, _, flags, rfl, -, _, _, tag, rfl, -, _, _, setup, rfl, -, last, _, found, rfl,
    h_found, rfl, rfl⟩ asset h_mem
  have h_le := h_found asset h_mem
  simp only [List.length_append]
  omega

/-- The code of an asset is not much longer than its token. -/
theorem length_code_le {crypto : Crypto} {server : StreamServer} {token : Buffer} {details : ConnectionDetails}
    (h : server.decryptToken crypto token = some details) :
    ∀ asset ∈ details.asset, (Utf8.encode asset.code.toList).length ≤ 3 * token.length := by
  obtain ⟨plaintext, h_plaintext, h_details⟩ := Option.bind_eq_some_iff.mp h
  have h_length := length_le_of_decrypt h_plaintext
  cases h_read : readDetails.exec (Reader.ofBuffer plaintext) with
  | mk result reader =>
    rw [readFrom, h_read] at h_details
    cases result with
    | error e => cases h_details
    | ok found =>
      obtain rfl : found = details := Option.some.inj h_details
      obtain ⟨bytes, more, h_rest, h_code, -⟩ := takes_readDetails _ _ _ (Nat.zero_le _) h_read
      have h_rest : plaintext = bytes ++ more := h_rest
      intro asset h_mem
      have h_le := h_code asset h_mem
      rw [h_rest, List.length_append] at h_length
      omega

end Interledger.StreamReceiver
