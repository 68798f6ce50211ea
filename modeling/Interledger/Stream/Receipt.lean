import Interledger.Stream.Frame
import Mathlib.Algebra.Group.Nat.Defs
import Mathlib.Tactic.Common

/-!
# STREAM receipts

`ilp-protocol-stream/src/util/receipt.ts`: a receipt is 58 bytes, the version, the nonce, the stream
id, the total received on the stream and an HMAC over them. The HMAC is an argument, and so is
`Writer.writeUInt8`, which may throw. `Stream/ReceiptFormat.lean` models the same functions with their errors
and with what decoding accepts, and proves that the two agree.
-/

namespace Interledger.Stream

open Interledger.Ilp

/-- `Receipt`. -/
structure Receipt where
  version : UInt8
  nonce : Buffer
  streamId : UInt8
  totalReceived : ℕ
  deriving DecidableEq

/-- `RECEIPT_VERSION`. -/
def receiptVersion : UInt8 := 1

/-- `decodeReceipt`, which throws (`none`) unless the receipt has the one length. The HMAC is not
checked. -/
def decodeReceipt (receipt : Buffer) : Option Receipt :=
  if receipt.length ≠ 58 then none
  else
    match receipt with
    | version :: rest =>
      match rest.drop 16 with
      | streamId :: rest' =>
        (readUInt64 rest').map fun (totalReceived, _) =>
          { version := version, nonce := rest.take 16, streamId := streamId
            totalReceived := totalReceived }
      | [] => none
    | [] => none

/-- `Writer.writeUInt64`: eight bytes, most significant first. -/
def writeUInt64 (l : Long) : Buffer :=
  (List.range 8).map fun i => UInt8.ofNat (l.toNat / 256 ^ (7 - i))

/-- `createReceipt`. -/
def createReceipt (writeUInt8 : ℕ → Except String UInt8)
    (generateReceiptHMAC : Buffer → Buffer → Buffer) (nonce secret : Buffer) (streamId : ℕ)
    (totalReceived : Long) : Except String Buffer :=
  if nonce.length ≠ 16 then .error "receipt nonce must be 16 bytes"
  else if secret.length ≠ 32 then .error "receipt secret must be 32 bytes"
  else
    (writeUInt8 streamId).map fun id =>
      let receipt := [receiptVersion] ++ nonce ++ [id] ++ writeUInt64 totalReceived
      receipt ++ generateReceiptHMAC secret receipt

/-- A receipt is made whenever the nonce and the secret have their lengths and the stream id is a
byte. -/
theorem createReceipt_isOk (writeUInt8 : ℕ → Except String UInt8)
    (generateReceiptHMAC : Buffer → Buffer → Buffer) (nonce secret : Buffer) (streamId : ℕ)
    (totalReceived : Long) :
    (createReceipt writeUInt8 generateReceiptHMAC nonce secret streamId totalReceived).isOk ↔
      nonce.length = 16 ∧ secret.length = 32 ∧ (writeUInt8 streamId).isOk := by
  unfold createReceipt
  by_cases h_nonce : nonce.length = 16
  · by_cases h_secret : secret.length = 32
    · rw [if_neg (not_not.mpr h_nonce), if_neg (not_not.mpr h_secret)]
      cases writeUInt8 streamId with
      | error e => simp [Except.map, Except.isOk, Except.toBool]
      | ok id => simp [Except.map, Except.isOk, Except.toBool, h_nonce, h_secret]
    · simp [h_nonce, h_secret, Except.isOk, Except.toBool]
  · simp [h_nonce, Except.isOk, Except.toBool]

example : writeUInt64 513 = [0, 0, 0, 0, 0, 0, 2, 1] := by decide

end Interledger.Stream
