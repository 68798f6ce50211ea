import Interledger.IlpPacket.Errors
import Interledger.Stream.Receipt

/-!
# The bytes of a receipt

`createReceipt`, `decodeReceipt` and `verifyReceipt` of `ilp-protocol-stream/src/util/receipt.ts`, on the
writer and the reader that they use. The HMAC is a function of a secret and a message, of 32 bytes.

## Main results

* `createReceipt_eq`, `decode_bytes` — the bytes that are written and what is read from them;
* `verifyReceipt_iff_createReceipt` — the receipts that are accepted are those that are created;
* `createReceipt_iff`, `decodeReceipt_agrees` — the functions that connections are modelled with create and
  decode the same receipts;
* `verifyReceipt_connection` — so that what they create is accepted.
-/

namespace Interledger.Stream.ReceiptFormat

open Interledger.Ilp Interledger.Oer Interledger.Action
open Interledger.IlpPacket (newWriter getBuffer readFrom)

/-- `ReceiptOpts`, with the total as the unsigned `Long` that `longFromValue` returns as it is. -/
structure ReceiptOpts where
  nonce : Buffer
  streamId : LongValue
  totalReceived : Long
  secret : Buffer

/-- `ReceiptWithHMAC`. -/
structure ReceiptWithHMAC where
  version : ℕ
  nonce : Buffer
  streamId : String
  totalReceived : Long
  hmac : Buffer
  deriving DecidableEq

variable (generateReceiptHMAC : Buffer → Buffer → Buffer)

/-- `createReceipt`. -/
def createReceipt (opts : ReceiptOpts) : Except OerError Buffer :=
  if opts.nonce.length ≠ 16 then .error (.error "receipt nonce must be 16 bytes")
  else if opts.secret.length ≠ 32 then .error (.error "receipt secret must be 32 bytes")
  else
    getBuffer do
      newWriter 58
      Writer.writeUInt8 (.number receiptVersion.toNat)
      Writer.writeOctetString opts.nonce 16
      Writer.writeUInt8 opts.streamId
      Writer.writeUInt (.long true opts.totalReceived) 8
      let receipt ← get
      Writer.writeOctetString (generateReceiptHMAC opts.secret receipt.getBuffer) 32

/-- What `decode` reads. -/
def readReceipt : Action Reader OerError ReceiptWithHMAC := do
  let version ← Reader.readUIntNumber 1
  let nonce ← Reader.read 16
  let streamId ← Reader.readUInt 1
  let totalReceived ← Reader.readUIntLong 8
  let hmac ← Reader.read 32
  return { version, nonce, streamId, totalReceived, hmac }

/-- `decode`. -/
def decode (receipt : Buffer) : Except OerError ReceiptWithHMAC :=
  if receipt.length ≠ 58 then .error (.error "receipt malformed") else readFrom readReceipt receipt

/-- `decodeReceipt`. -/
def decodeReceipt (receipt : Buffer) : Except OerError ReceiptWithHMAC := decode receipt

/-- The secret of `verifyReceipt`: given, or returned by a function of what was decoded. -/
inductive Secret
  | buffer (secret : Buffer)
  | callback (secret : ReceiptWithHMAC → Except OerError Buffer)

/-- The secret for what was decoded. -/
def Secret.of : Secret → ReceiptWithHMAC → Except OerError Buffer
  | buffer secret, _ => .ok secret
  | callback secret, decoded => secret decoded

/-- `verifyReceipt`. -/
def verifyReceipt (receipt : Buffer) (secret : Secret) : Except OerError ReceiptWithHMAC := do
  let decoded ← decode receipt
  if decoded.version ≠ receiptVersion.toNat then throw (.error "invalid version")
  let secret ← secret.of decoded
  let message := receipt.take 26
  if decoded.hmac ≠ generateReceiptHMAC secret message then throw (.error "invalid hmac")
  return decoded

/-! ### The bytes -/

/-- The part of a receipt that its HMAC is computed from. -/
def message (version : ℕ) (nonce : Buffer) (streamId : ℕ) (totalReceived : Long) : Buffer :=
  Bytes.toBytes 1 version ++ (nonce ++ (Bytes.toBytes 1 streamId ++ Bytes.toBytes 8 totalReceived.toNat))

variable {generateReceiptHMAC} {nonce secret hmac receipt : Buffer} {version id : ℕ} {streamId : LongValue}
  {totalReceived : Long}

theorem length_message (version id : ℕ) (totalReceived : Long) (h_nonce : nonce.length = 16) :
    (message version nonce id totalReceived).length = 26 := by
  unfold message
  simp only [List.length_append, Bytes.length_toBytes, h_nonce]

/-- A stream id that fits in a byte is written as that byte. -/
theorem writes_streamId (h : streamId.Accepted true) (h_id : streamId.toInt = id) (h_lt : id < 256) :
    Writes (Writer.writeUInt8 streamId) (Bytes.toBytes 1 id) := by
  rcases Writer.writeUInt_short (k := 1) h le_rfl (by decide) with ⟨-, h_write⟩ | ⟨h_not, -⟩
  · rw [Writer.writeUInt8, h_write, h_id]
    exact Writer.writes_write _
  · refine absurd ?_ h_not
    rw [h_id, Oer.Fits, if_neg Bool.false_ne_true]
    exact ⟨Int.natCast_nonneg id, by exact_mod_cast h_lt⟩

/-- A `Long` is written in eight bytes. -/
theorem writes_totalReceived (totalReceived : Long) :
    Writes (Writer.writeUInt (.long true totalReceived) 8) (Bytes.toBytes 8 totalReceived.toNat) := by
  have h_accepted : (LongValue.long true totalReceived).Accepted true := rfl
  rcases Writer.writeUInt_long (k := 8) h_accepted (by decide) rfl with ⟨-, h_write⟩ | ⟨h_not, -⟩
  · rw [h_write, longToBuffer_eq le_rfl]
    have h_nat := Writer.toNat_ofInt_toInt h_accepted rfl
    rw [Int.ofNat_inj.mp h_nat]
    exact Writer.writes_write _
  · refine absurd ?_ h_not
    rw [Oer.Fits, if_neg Bool.false_ne_true]
    refine ⟨Int.natCast_nonneg _, ?_⟩
    have h_lt := totalReceived.isLt
    change (totalReceived.toNat : ℤ) < 256 ^ 8
    norm_num
    omega

/-- What follows a write to a buffer with the room for it goes on behind the bytes. -/
theorem exec_bind_of_writes {x : Action Writer OerError Unit} {f : Unit → Action Writer OerError Unit}
    {bytes : Buffer} {w : Writer} (h : Writes x bytes) (h_room : bytes.length ≤ w.rest.length) :
    ∃ w', (x >>= f).exec w = (f ()).exec w' ∧ w'.written = w.written ++ bytes ∧
      w'.rest.length = w.rest.length - bytes.length := by
  obtain ⟨w', h_exec, h_ext⟩ := h.exec_of_hasRoom (s := w) (.inl h_room)
  have h_ext : Writer.Extends w bytes w' := h_ext
  refine ⟨w', exec_bind_ok h_exec, h_ext.written, ?_⟩
  rw [h_ext.rest h_room, List.length_drop]

theorem writes_writeOctetString (bytes : Buffer) {n : ℕ} (h : bytes.length = n) :
    Writes (Writer.writeOctetString bytes n) bytes := by
  rw [Writer.writeOctetString, if_neg (not_not.mpr h)]
  exact Writer.writes_write bytes

/-- **What is created**: the message, and its HMAC. -/
theorem createReceipt_eq (h_hmac : ∀ key m, (generateReceiptHMAC key m).length = 32)
    (h_nonce : nonce.length = 16) (h_secret : secret.length = 32) (h_accepted : streamId.Accepted true)
    (h_id : streamId.toInt = id) (h_lt : id < 256) :
    createReceipt generateReceiptHMAC ⟨nonce, streamId, totalReceived, secret⟩ =
      .ok (message 1 nonce id totalReceived ++
        generateReceiptHMAC secret (message 1 nonce id totalReceived)) := by
  -- a buffer of the size of the receipt
  have h_alloc : (newWriter 58).exec Writer.empty =
      (.ok (), Writer.ofBuffer (List.replicate 58 0)) := rfl
  have h_room : (Writer.ofBuffer (List.replicate 58 0)).rest.length = 58 := List.length_replicate
  have h_version : Writes (Writer.writeUInt8 (.number receiptVersion.toNat)) (Bytes.toBytes 1 1) := by
    rw [Writer.writeUInt8, Writer.writeUInt_number (by decide) le_rfl (by decide) (by decide)]
    exact Writer.writes_write _
  rw [createReceipt, if_neg (not_not.mpr h_nonce), if_neg (not_not.mpr h_secret), getBuffer,
    exec_bind_ok h_alloc]
  -- the four fields of the message, each in the room that the ones before it leave
  obtain ⟨w₁, h_exec, h_first, h_rest₁⟩ := exec_bind_of_writes h_version
    (w := Writer.ofBuffer (List.replicate 58 0)) (by rw [h_room]; decide)
  rw [h_exec]
  rw [h_room, Bytes.length_toBytes] at h_rest₁
  obtain ⟨w₂, h_exec, h_second, h_rest₂⟩ := exec_bind_of_writes
    (writes_writeOctetString nonce h_nonce) (w := w₁) (by rw [h_nonce, h_rest₁]; decide)
  rw [h_exec]
  rw [h_rest₁, h_nonce] at h_rest₂
  obtain ⟨w₃, h_exec, h_third, h_rest₃⟩ := exec_bind_of_writes
    (writes_streamId h_accepted h_id h_lt) (w := w₂) (by rw [Bytes.length_toBytes, h_rest₂]; decide)
  rw [h_exec]
  rw [h_rest₂, Bytes.length_toBytes] at h_rest₃
  obtain ⟨w₄, h_exec, h_fourth, h_rest₄⟩ := exec_bind_of_writes
    (writes_totalReceived totalReceived) (w := w₃) (by rw [Bytes.length_toBytes, h_rest₃]; decide)
  rw [h_exec]
  rw [h_rest₃, Bytes.length_toBytes] at h_rest₄
  have h_message : w₄.getBuffer = message 1 nonce id totalReceived := by
    change w₄.written = _
    rw [h_fourth, h_third, h_second, h_first, message]
    simp only [Writer.ofBuffer, List.nil_append, List.append_assoc]
  -- and the HMAC of what is there by then
  rw [exec_bind_ok (exec_get w₄), h_message]
  obtain ⟨w₅, h_exec, h_ext⟩ := (writes_writeOctetString _ (h_hmac secret
    (message 1 nonce id totalReceived))).exec_of_hasRoom (s := w₄) (.inl (by rw [h_hmac, h_rest₄]))
  have h_ext : Writer.Extends w₄ _ w₅ := h_ext
  rw [h_exec]
  change Except.ok w₅.written = _
  rw [h_ext.written]
  exact congrArg (fun bytes => Except.ok (bytes ++ _)) h_message

/-- **What is decoded** from the bytes of the fields. -/
theorem decode_bytes (h_version : version < 256) (h_nonce : nonce.length = 16) (h_id : id < 256)
    (h_hmac : hmac.length = 32) :
    decode (message version nonce id totalReceived ++ hmac) =
      .ok ⟨version, nonce, toString id, totalReceived, hmac⟩ := by
  have h_length : (message version nonce id totalReceived ++ hmac).length = 58 := by
    rw [List.length_append, length_message _ _ _ h_nonce, h_hmac]
  have h_reads_id : Reads (Reader.readUInt 1) (Bytes.toBytes 1 id) (toString id) := by
    rw [Reader.readUInt, if_pos (by decide)]
    exact (Reader.reads_number le_rfl (by decide) h_id).map toString
  have h_reads_total : Reads (Reader.readUIntLong 8) (Bytes.toBytes 8 totalReceived.toNat)
      totalReceived := by
    have h_bytes := Bytes.length_toBytes 8 totalReceived.toNat
    have h_reads := @Reader.reads_readUIntLong (Bytes.toBytes 8 totalReceived.toNat) (by omega) (by omega)
    rwa [Bytes.ofBytes_toBytes_of_lt totalReceived.isLt, BitVec.ofNat_toNat, BitVec.setWidth_eq,
      h_bytes] at h_reads
  have h_reads : Reads readReceipt (message version nonce id totalReceived ++ hmac)
      ⟨version, nonce, toString id, totalReceived, hmac⟩ := by
    unfold message
    simp only [List.append_assoc]
    apply (Reader.reads_number le_rfl (by decide) h_version).bind
    rw [← h_nonce]
    apply (Reader.reads_read nonce).bind
    apply h_reads_id.bind
    apply h_reads_total.bind
    rw [← h_hmac]
    exact (Reader.reads_read hmac).map (ReceiptWithHMAC.mk version nonce (toString id) totalReceived)
  rw [decode, if_neg (not_not.mpr h_length), ← List.append_nil (_ ++ hmac)]
  exact IlpPacket.readFrom_of_reads h_reads []

/-- So many bytes are those of a number. -/
theorem exists_toBytes {k : ℕ} {bytes : Buffer} (h : bytes.length = k) :
    ∃ n < 256 ^ k, bytes = Bytes.toBytes k n := by
  subst h
  exact ⟨Bytes.ofBytes bytes, Bytes.ofBytes_lt bytes, (Bytes.toBytes_ofBytes bytes).symm⟩

/-- Bytes of the right number are those of some fields. -/
theorem exists_of_length (h : receipt.length = 58) :
    ∃ version nonce id totalReceived hmac, version < 256 ∧ nonce.length = 16 ∧ id < 256 ∧
      hmac.length = 32 ∧ receipt = message version nonce id totalReceived ++ hmac := by
  have h_take (m n : ℕ) (h_le : m + n ≤ 58) : ((receipt.drop m).take n).length = n := by
    rw [List.length_take, List.length_drop]
    omega
  have h_split (m n : ℕ) : receipt.drop m = (receipt.drop m).take n ++ receipt.drop (m + n) := by
    rw [← List.drop_drop, List.take_append_drop]
  obtain ⟨version, h_version, h_first⟩ := exists_toBytes (h_take 0 1 (by decide))
  obtain ⟨id, h_id, h_third⟩ := exists_toBytes (h_take 17 1 (by decide))
  obtain ⟨total, h_total, h_fourth⟩ := exists_toBytes (h_take 18 8 (by decide))
  refine ⟨version, (receipt.drop 1).take 16, id, BitVec.ofNat 64 total, receipt.drop 26, h_version,
    h_take 1 16 (by decide), h_id, ?_, ?_⟩
  · rw [List.length_drop, h]
  · rw [message, BitVec.toNat_ofNat, Nat.mod_eq_of_lt (by exact h_total), ← h_first, ← h_third, ← h_fourth]
    calc receipt = receipt.drop 0 := rfl
      _ = (receipt.drop 0).take 1 ++ ((receipt.drop 1).take 16 ++ ((receipt.drop 17).take 1 ++
            ((receipt.drop 18).take 8 ++ receipt.drop 26))) := by
        rw [← h_split 18 8, ← h_split 17 1, ← h_split 1 16, ← h_split 0 1]
      _ = _ := by simp only [List.append_assoc]

/-! ### What is accepted -/

/-- The part that is authenticated stands in front. -/
theorem take_message (h_nonce : nonce.length = 16) :
    (message version nonce id totalReceived ++ hmac).take 26 =
      message version nonce id totalReceived := by
  rw [← length_message version id totalReceived h_nonce,
    List.take_left]

/-- **What is checked**: the version, and the HMAC under the secret for what was decoded. -/
theorem verifyReceipt_bytes {way : Secret} {d : ReceiptWithHMAC} (h_version : version < 256)
    (h_nonce : nonce.length = 16) (h_id : id < 256) (h_hmac : hmac.length = 32) :
    verifyReceipt generateReceiptHMAC (message version nonce id totalReceived ++ hmac) way = .ok d ↔
      d = ⟨version, nonce, toString id, totalReceived, hmac⟩ ∧ version = 1 ∧
        ∃ s, way.of d = .ok s ∧ hmac = generateReceiptHMAC s (message version nonce id totalReceived) := by
  rw [verifyReceipt, decode_bytes h_version h_nonce h_id h_hmac, take_message h_nonce]
  generalize h_fields : (⟨version, nonce, toString id, totalReceived, hmac⟩ : ReceiptWithHMAC) = fields
  have h_fields_version : fields.version = version := by rw [← h_fields]
  have h_fields_hmac : fields.hmac = hmac := by rw [← h_fields]
  change (if fields.version ≠ 1 then _ else _) = _ ↔ _
  rw [h_fields_version]
  -- the version is checked first
  by_cases h_one : version = 1
  · rw [if_neg (not_not.mpr h_one)]
    -- then the secret is looked for
    cases h_secret : way.of fields with
    | error e =>
      refine iff_of_false nofun ?_
      rintro ⟨rfl, -, s, h_ok, -⟩
      rw [h_secret] at h_ok
      cases h_ok
    | ok s =>
      change (if fields.hmac ≠ _ then _ else _) = _ ↔ _
      rw [h_fields_hmac]
      -- and the HMAC compared
      by_cases h_mac : hmac = generateReceiptHMAC s (message version nonce id totalReceived)
      · rw [if_neg (not_not.mpr h_mac)]
        constructor
        · rintro ⟨⟩
          exact ⟨rfl, h_one, s, h_secret, h_mac⟩
        · rintro ⟨rfl, -⟩
          rfl
      · rw [if_pos h_mac]
        refine iff_of_false nofun ?_
        rintro ⟨rfl, -, s', h_ok, h_same⟩
        rw [h_secret] at h_ok
        cases h_ok
        exact h_mac h_same
  · rw [if_pos h_one]
    exact iff_of_false nofun fun h => h_one h.2.1

/-- What is accepted can be decoded. -/
theorem length_of_verifyReceipt {way : Secret} {d : ReceiptWithHMAC}
    (h : verifyReceipt generateReceiptHMAC receipt way = .ok d) : receipt.length = 58 := by
  by_contra h_length
  rw [verifyReceipt, decode, if_pos h_length] at h
  cases h

theorem length_of_decodeReceipt {d : ReceiptWithHMAC} (h : decodeReceipt receipt = .ok d) :
    receipt.length = 58 := by
  by_contra h_length
  rw [decodeReceipt, decode, if_pos h_length] at h
  cases h

/-- The id that was decoded is written as the byte that it was read from. -/
theorem createReceipt_decoded (h_hmac : ∀ key m, (generateReceiptHMAC key m).length = 32)
    (h_nonce : nonce.length = 16) (h_secret : secret.length = 32) (h_id : id < 256) :
    createReceipt generateReceiptHMAC ⟨nonce, .string (toString id), totalReceived, secret⟩ =
      .ok (message 1 nonce id totalReceived ++
        generateReceiptHMAC secret (message 1 nonce id totalReceived)) := by
  obtain ⟨h_accepted, h_value, -⟩ := IlpPacket.accepted_toString (n := id) (by omega)
  exact createReceipt_eq h_hmac h_nonce h_secret h_accepted h_value h_id

/-- **What is accepted is what is created** from the fields that are decoded. -/
theorem verifyReceipt_iff {way : Secret} {d : ReceiptWithHMAC}
    (h_hmac : ∀ key m, (generateReceiptHMAC key m).length = 32)
    (h_secret : ∀ s, way.of d = .ok s → s.length = 32) :
    verifyReceipt generateReceiptHMAC receipt way = .ok d ↔
      decodeReceipt receipt = .ok d ∧ ∃ s, way.of d = .ok s ∧
        createReceipt generateReceiptHMAC ⟨d.nonce, .string d.streamId, d.totalReceived, s⟩ =
          .ok receipt := by
  -- only 58 bytes are decoded
  by_cases h_length : receipt.length = 58
  · obtain ⟨version, nonce, id, totalReceived, hmac, h_version, h_nonce, h_id, h_mac, rfl⟩ :=
      exists_of_length h_length
    rw [verifyReceipt_bytes h_version h_nonce h_id h_mac, decodeReceipt,
      decode_bytes h_version h_nonce h_id h_mac]
    constructor
    · rintro ⟨rfl, rfl, s, h_way, rfl⟩
      refine ⟨rfl, s, h_way, ?_⟩
      exact createReceipt_decoded h_hmac h_nonce (h_secret s h_way) h_id
    · rintro ⟨h_decoded, s, h_way, h_create⟩
      cases h_decoded
      rw [createReceipt_decoded h_hmac h_nonce (h_secret s h_way) h_id] at h_create
      -- the bytes in front determine the version, those behind them the HMAC
      have h_bytes := Except.ok.inj h_create
      have h_parts := List.append_inj h_bytes (by rw [length_message _ _ _ h_nonce, length_message _ _ _ h_nonce])
      have h_message := h_parts.1
      rw [message, message] at h_message
      have h_first := List.append_inj_left h_message (by rw [Bytes.length_toBytes, Bytes.length_toBytes])
      have h_value := congrArg Bytes.ofBytes h_first
      rw [Bytes.ofBytes_toBytes_of_lt (by decide), Bytes.ofBytes_toBytes_of_lt h_version] at h_value
      subst h_value
      exact ⟨rfl, rfl, s, h_way, h_parts.2.symm⟩
  · constructor
    · exact fun h => absurd (length_of_verifyReceipt h) h_length
    · exact fun h => absurd (length_of_decodeReceipt h.1) h_length

/-- **A receipt is accepted** if and only if it is the one created from what is decoded. What is created
from some fields is decoded and accepted with these fields. -/
theorem verifyReceipt_iff_createReceipt (h_hmac : ∀ key m, (generateReceiptHMAC key m).length = 32) :
    (∀ (receipt : Buffer) (way : Secret) (d : ReceiptWithHMAC),
      (∀ s, way.of d = .ok s → s.length = 32) →
      (verifyReceipt generateReceiptHMAC receipt way = .ok d ↔
        decodeReceipt receipt = .ok d ∧ ∃ s, way.of d = .ok s ∧
          createReceipt generateReceiptHMAC ⟨d.nonce, .string d.streamId, d.totalReceived, s⟩ =
            .ok receipt)) ∧
    ∀ (nonce secret : Buffer) (streamId : LongValue) (id : ℕ) (totalReceived : Long),
      nonce.length = 16 → secret.length = 32 → streamId.Accepted true → streamId.toInt = id → id < 256 →
      ∃ receipt hmac,
        createReceipt generateReceiptHMAC ⟨nonce, streamId, totalReceived, secret⟩ = .ok receipt ∧
        decodeReceipt receipt = .ok ⟨1, nonce, toString id, totalReceived, hmac⟩ ∧
        ∀ way : Secret, way.of ⟨1, nonce, toString id, totalReceived, hmac⟩ = .ok secret →
          verifyReceipt generateReceiptHMAC receipt way =
            .ok ⟨1, nonce, toString id, totalReceived, hmac⟩ := by
  refine ⟨fun receipt way d => verifyReceipt_iff h_hmac, ?_⟩
  intro nonce secret streamId id totalReceived h_nonce h_secret h_accepted h_value h_id
  have h_mac := h_hmac secret (message 1 nonce id totalReceived)
  refine ⟨_, _, createReceipt_eq h_hmac h_nonce h_secret h_accepted h_value h_id,
    decode_bytes (by decide) h_nonce h_id h_mac, fun way h_way => ?_⟩
  apply (verifyReceipt_bytes (by decide) h_nonce h_id h_mac).mpr
  exact ⟨rfl, rfl, secret, h_way, rfl⟩

/-- The HMAC-SHA256 of the message below under its secret, whatever it is applied to. -/
def sampleHMAC (_secret _message : Buffer) : Buffer :=
  [154, 234, 115, 82, 213, 15, 4, 26, 171, 207, 23, 124, 150, 203, 11, 49,
    58, 193, 203, 42, 155, 2, 199, 161, 48, 54, 124, 139, 36, 221, 74, 175]

/-- 500 units on the stream 7, under the secret of 32 bytes 2. -/
theorem verifyReceipt_iff_createReceipt_seven :
    ∃ receipt hmac,
      createReceipt sampleHMAC ⟨List.replicate 16 1, .number 7, 500, List.replicate 32 2⟩ = .ok receipt ∧
      decodeReceipt receipt = .ok ⟨1, List.replicate 16 1, toString 7, 500, hmac⟩ ∧
      ∀ way : Secret, way.of ⟨1, List.replicate 16 1, toString 7, 500, hmac⟩ =
          .ok (List.replicate 32 2) →
        verifyReceipt sampleHMAC receipt way = .ok ⟨1, List.replicate 16 1, toString 7, 500, hmac⟩ :=
  (verifyReceipt_iff_createReceipt fun _ _ => rfl).2 (List.replicate 16 1) (List.replicate 32 2)
    (.number 7) 7 500 List.length_replicate List.length_replicate
    (show (7 : ℤ).natAbs < 2 ^ 53 by decide) rfl (by decide)

/-! ### The receipts of connections -/

/-- A total is written as the eight bytes of its number. -/
theorem writeUInt64_eq (l : Long) : writeUInt64 l = Bytes.toBytes 8 l.toNat := by
  show (List.range 8).map (fun i => UInt8.ofNat (l.toNat / 256 ^ (7 - i))) = _
  simp only [Bytes.toBytes, Nat.div_div_eq_div_mul, List.range, List.range.loop, List.map_cons, List.map_nil,
    List.nil_append, List.cons_append]
  norm_num

section Connection

variable {writeUInt8 : ℕ → Except String UInt8} (h_write : writeUInt8 id = .ok (UInt8.ofNat id)) (h_id : id < 256)
include h_write

/-- What a connection creates: the same message, and its HMAC. -/
theorem createReceipt_connection (h_nonce : nonce.length = 16) (h_secret : secret.length = 32) :
    Stream.createReceipt writeUInt8 generateReceiptHMAC nonce secret id totalReceived =
      .ok (message 1 nonce id totalReceived ++
        generateReceiptHMAC secret (message 1 nonce id totalReceived)) := by
  have h_message : [receiptVersion] ++ nonce ++ [UInt8.ofNat id] ++ writeUInt64 totalReceived =
      message 1 nonce id totalReceived := by
    rw [writeUInt64_eq, message, List.append_assoc, List.append_assoc]
    rfl
  rw [Stream.createReceipt, if_neg (not_not.mpr h_nonce), if_neg (not_not.mpr h_secret), h_write, ← h_message]
  rfl

include h_id

/-- **A connection creates the receipts** that are written here, for the stream ids that fit in a byte. -/
theorem createReceipt_iff (h_hmac : ∀ key m, (generateReceiptHMAC key m).length = 32) :
    Stream.createReceipt writeUInt8 generateReceiptHMAC nonce secret id totalReceived = .ok receipt ↔
      createReceipt generateReceiptHMAC ⟨nonce, .number id, totalReceived, secret⟩ = .ok receipt := by
  by_cases h_nonce : nonce.length = 16
  · by_cases h_secret : secret.length = 32
    · have h_accepted : (LongValue.number id).Accepted true := by
        show (id : ℤ).natAbs < 2 ^ 53
        rw [Int.natAbs_natCast]
        omega
      rw [createReceipt_eq h_hmac h_nonce h_secret h_accepted rfl h_id,
        createReceipt_connection h_write h_nonce h_secret, Except.ok.injEq, Except.ok.injEq]
    · -- neither is created
      rw [Stream.createReceipt, if_neg (not_not.mpr h_nonce), if_pos h_secret, createReceipt,
        if_neg (not_not.mpr h_nonce), if_pos h_secret]
      exact iff_of_false nofun nofun
  · rw [Stream.createReceipt, if_pos h_nonce, createReceipt, if_pos h_nonce]
    exact iff_of_false nofun nofun

/-- **The receipts that a connection creates are accepted** under their secret. -/
theorem verifyReceipt_connection (h_hmac : ∀ key m, (generateReceiptHMAC key m).length = 32)
    (h : Stream.createReceipt writeUInt8 generateReceiptHMAC nonce secret id totalReceived = .ok receipt) :
    ∃ hmac, verifyReceipt generateReceiptHMAC receipt (.buffer secret) =
      .ok ⟨1, nonce, toString id, totalReceived, hmac⟩ := by
  obtain ⟨h_nonce, h_secret, -⟩ :=
    (createReceipt_isOk writeUInt8 generateReceiptHMAC nonce secret id totalReceived).mp (by rw [h]; rfl)
  rw [createReceipt_connection h_write h_nonce h_secret] at h
  obtain rfl := Except.ok.inj h
  refine ⟨generateReceiptHMAC secret (message 1 nonce id totalReceived), ?_⟩
  exact (verifyReceipt_bytes (by decide) h_nonce h_id (h_hmac _ _)).mpr ⟨rfl, rfl, secret, rfl, rfl⟩

end Connection

/-- **A connection decodes what is decoded here**, apart from the HMAC, and fails on the same bytes. -/
theorem decodeReceipt_agrees (receipt : Buffer) :
    (Stream.decodeReceipt receipt = none ∧ ∃ e, decodeReceipt receipt = .error e) ∨
      ∃ r hmac, Stream.decodeReceipt receipt = some r ∧ r.totalReceived < 2 ^ 64 ∧
        decodeReceipt receipt =
          .ok ⟨r.version.toNat, r.nonce, toString r.streamId.toNat, BitVec.ofNat 64 r.totalReceived, hmac⟩ := by
  by_cases h_length : receipt.length = 58
  · right
    obtain ⟨version, nonce, id, totalReceived, hmac, h_version, h_nonce, h_id, h_mac, rfl⟩ :=
      exists_of_length h_length
    refine ⟨⟨UInt8.ofNat version, nonce, UInt8.ofNat id, totalReceived.toNat⟩, hmac, ?_, totalReceived.isLt, ?_⟩
    · -- the bytes in front of the total, one field after the other
      have h_bytes : message version nonce id totalReceived ++ hmac = UInt8.ofNat version ::
          (nonce ++ UInt8.ofNat id :: (Bytes.toBytes 8 totalReceived.toNat ++ hmac)) := by
        rw [message, Bytes.toBytes_one, Bytes.toBytes_one]
        simp only [List.append_assoc, List.cons_append, List.nil_append]
      unfold Stream.decodeReceipt
      rw [if_neg (not_not.mpr h_length), h_bytes]
      simp only [List.drop_left' h_nonce, List.take_left' h_nonce,
        IlpPacket.readUInt64_toBytes totalReceived.isLt, Option.map_some]
    · have h_byte {n : ℕ} (h : n < 256) : (UInt8.ofNat n).toNat = n := Nat.mod_eq_of_lt h
      rw [decodeReceipt, decode_bytes h_version h_nonce h_id h_mac, h_byte h_version, h_byte h_id,
        BitVec.ofNat_toNat, BitVec.setWidth_eq]
  · left
    unfold Stream.decodeReceipt
    rw [if_pos h_length, decodeReceipt, decode, if_pos h_length]
    exact ⟨rfl, _, rfl⟩

end Interledger.Stream.ReceiptFormat
