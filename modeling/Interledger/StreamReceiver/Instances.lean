import Interledger.StreamReceiver.CreateReply

/-!
# Instances of the stateless receiver

A `StreamServer` keeps nothing of the credentials that it generates. Whatever it has to know of a connection
it reads from the token in the address, so that every instance with the same secret and the same address
serves the connection, also below the address that was generated.

## Main results

* `StreamServer.serves_generateCredentials` — another instance finds the same details, the same shared
  secret and the same keys, whatever earlier calls have left in the buffer that tokens are written to.
-/

namespace Interledger.StreamReceiver

open Ilp (Buffer)
open Oer (OerError)
open Crypto (Iv)

namespace StreamServer

variable (crypto : Crypto) (server : StreamServer)

/-- The token in an address. -/
def tokenIn (destinationAddress : String) : Option Buffer :=
  (server.extractLocalAddressSegment destinationAddress).map Base64.decode

/-- `decodePaymentTag`. -/
def decodePaymentTag (destinationAddress : String) : Option String :=
  ((server.tokenIn destinationAddress).bind (server.decryptToken crypto)).bind ConnectionDetails.paymentTag

/-- In the address the server finds a token with the details, and derives from it the shared secret, and
the keys that a client derives from that. -/
def Serves (destinationAddress : String) (details : ConnectionDetails) (sharedSecret : Buffer) : Prop :=
  ∃ token, server.tokenIn destinationAddress = some token ∧
    server.decryptToken crypto token = some details ∧
    server.sharedSecret crypto token = sharedSecret ∧
    server.encryptionKey crypto token =
      crypto.hmac sharedSecret (Utf8.encode "ilp_stream_encryption".toList) ∧
    ∀ data, server.fulfillment crypto token data =
      crypto.hmac (crypto.hmac sharedSecret (Utf8.encode "ilp_stream_fulfillment".toList)) data

variable {crypto server}

/-- With the token found, the payment tag is that of the details. -/
theorem Serves.decodePaymentTag {destinationAddress : String} {details : ConnectionDetails}
    {sharedSecret : Buffer} (h : server.Serves crypto destinationAddress details sharedSecret) :
    server.decodePaymentTag crypto destinationAddress = details.paymentTag := by
  obtain ⟨token, h_token, h_details, -⟩ := h
  rw [StreamServer.decodePaymentTag, h_token, Option.bind_some, h_details, Option.bind_some]

/-- A tag of ASCII characters is decoded as it is, unless it is empty. -/
theorem decoded_eq {options : ConnectionDetails}
    (h_tag : ∀ tag ∈ options.paymentTag, tag ≠ "" ∧ Ascii.IsAscii tag.toList) : options.decoded = options := by
  unfold ConnectionDetails.decoded ConnectionDetails.tag
  cases h_options : options.paymentTag with
  | none => rw [Option.filter_none, Option.map_none, Option.map_none, ← h_options]
  | some tag =>
    obtain ⟨h_ne, h_ascii⟩ := h_tag tag h_options
    have h_filter : Option.filter (fun tag => decide (tag ≠ "")) (some tag) = some tag :=
      Option.filter_some_pos (decide_eq_true h_ne)
    rw [h_filter, Option.map_some, Option.map_some, Ascii.decode_encode h_ascii, String.ofList_toList,
      ← h_options]

/-- The constructor has no other input. -/
theorem eq_of_new {server' : StreamServer} {serverSecret : Buffer} {serverAddress : String}
    (h : new crypto serverSecret serverAddress = .ok server)
    (h' : new crypto serverSecret serverAddress = .ok server') : server' = server :=
  Except.ok.inj (h'.symm.trans h)

/-- **Any instance can serve the credentials.** -/
theorem serves_generateCredentials {server' : StreamServer} {serverSecret buffer : Buffer}
    {serverAddress subaddress : String} {options : ConnectionDetails} {iv : Iv}
    {credentials : StreamCredentials} (h : new crypto serverSecret serverAddress = .ok server)
    (h' : new crypto serverSecret serverAddress = .ok server')
    (h_tag : ∀ tag ∈ options.paymentTag, tag ≠ "" ∧ Ascii.IsAscii tag.toList)
    (h_credentials : server.generateCredentialsIn crypto buffer options iv = .ok credentials)
    (h_subaddress : ∀ c ∈ subaddress.toList.head?, c = '.') :
    server'.Serves crypto (credentials.ilpAddress ++ subaddress) options credentials.sharedSecret := by
  obtain rfl := eq_of_new h h'
  obtain ⟨segment, h_segment, h_details, h_secret⟩ :=
    decryptToken_of_generateCredentials h_credentials h_subaddress
  rw [decoded_eq h_tag] at h_details
  have h_token : server'.tokenIn (credentials.ilpAddress ++ subaddress) = some (Base64.decode segment) := by
    rw [tokenIn, h_segment, Option.map_some]
  refine ⟨Base64.decode segment, h_token, h_details, h_secret.symm, ?_, fun data => ?_⟩
  · rw [encryptionKey, sharedSecret, h_secret]
  · rw [fulfillment, sharedSecret, h_secret]

/-- An invoice with all of the options. -/
def invoice : ConnectionDetails where
  paymentTag := some "invoice-1"
  receiptSetup := some ⟨List.replicate 16 1, List.replicate 32 2⟩
  asset := some ⟨"€", 9⟩

theorem serves_generateCredentials_invoice : ∃ server credentials,
    new default (List.replicate 32 7) "g.alice" = .ok server ∧
      server.generateCredentialsIn default (List.replicate 767 255) invoice ⟨List.replicate 12 3, rfl⟩ =
        .ok credentials ∧
      server.Serves default (credentials.ilpAddress ++ ".stream") invoice credentials.sharedSecret := by
  have h_ok : (new default (List.replicate 32 7) "g.alice" >>= fun server =>
      server.generateCredentialsIn default (List.replicate 767 255) invoice ⟨List.replicate 12 3, rfl⟩).isOk =
      true := by
    decide +kernel
  have h_tag : ∀ tag ∈ invoice.paymentTag, tag ≠ "" ∧ Ascii.IsAscii tag.toList := by
    intro tag h_mem
    obtain rfl : "invoice-1" = tag := Option.some.inj h_mem
    exact ⟨by decide, Ascii.isAscii_of_all (by decide)⟩
  have h_head : ".stream".toList.head? = some '.' := by decide
  have h_subaddress : ∀ c ∈ ".stream".toList.head?, c = '.' := by
    intro c h_mem
    rw [h_head] at h_mem
    exact (Option.some.inj h_mem).symm
  cases h_new : new default (List.replicate 32 7) "g.alice" with
  | error e =>
    rw [h_new] at h_ok
    cases h_ok
  | ok server =>
    cases h_credentials : server.generateCredentialsIn default (List.replicate 767 255) invoice
        ⟨List.replicate 12 3, rfl⟩ with
    | error e =>
      rw [h_new, IlpPacket.ok_bind, h_credentials] at h_ok
      cases h_ok
    | ok credentials =>
      refine ⟨server, credentials, rfl, h_credentials, ?_⟩
      exact serves_generateCredentials h_new h_new h_tag h_credentials h_subaddress

end StreamServer

end Interledger.StreamReceiver
