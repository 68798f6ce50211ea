import Interledger.Ilp.Packet
import Interledger.IlpPacket.Reply

/-!
# Errors

The classes of `ilp-packet/src/errors.ts`, and `errorToIlpReject` and `errorToReject` of `index.ts`, by which a
node answers a packet with a Reject. An error may carry data: that of an `AmountTooLargeError` are two amounts,
that of an application error comes from the application.

## Main results

* `readUInt64_amountTooLarge` — the two amounts are found in the data of an `AmountTooLargeError`;
* `errorToReject_is_read` — the Reject of an error is read as what it is.
-/

namespace Interledger.IlpPacket

open Ilp (Buffer readUInt64)
open Oer Interledger.Action

/-- `IlpErrorClass`. -/
structure IlpErrorClass where
  message : String
  ilpErrorCode : Option String := none
  ilpErrorData : Option Buffer := none

/-- The classes of errors, with what their constructors are given besides the message. -/
inductive IlpErrorKind
  | badRequest
  | invalidPacket
  | unreachable
  | invalidAmount
  | insufficientDestinationAmount
  | wrongCondition
  | unexpectedPayment
  | cannotReceive
  | amountTooLarge (receivedAmount maximumAmount : String)
  | finalApplication (data : Buffer)
  | internal
  | peerUnreachable
  | peerBusy
  | connectorBusy
  | insufficientLiquidity
  | rateLimited
  | temporaryApplication (data : Buffer)
  | transferTimedOut
  | insufficientSourceAmount
  | insufficientTimeout
  | relativeApplication (data : Buffer)

/-- `codes`. -/
def codes : List String :=
  ["F00", "F01", "F02", "F03", "F04", "F05", "F06", "F07", "F08", "F99", "T00", "T01", "T02", "T03", "T04", "T05",
    "T99", "R00", "R01", "R02", "R99"]

namespace IlpErrorKind

/-- `ilpErrorCode`. -/
def code : IlpErrorKind → String
  | badRequest => "F00"
  | invalidPacket => "F01"
  | unreachable => "F02"
  | invalidAmount => "F03"
  | insufficientDestinationAmount => "F04"
  | wrongCondition => "F05"
  | unexpectedPayment => "F06"
  | cannotReceive => "F07"
  | amountTooLarge _ _ => "F08"
  | finalApplication _ => "F99"
  | internal => "T00"
  | peerUnreachable => "T01"
  | peerBusy => "T02"
  | connectorBusy => "T03"
  | insufficientLiquidity => "T04"
  | rateLimited => "T05"
  | temporaryApplication _ => "T99"
  | transferTimedOut => "R00"
  | insufficientSourceAmount => "R01"
  | insufficientTimeout => "R02"
  | relativeApplication _ => "R99"

/-- The data of an `AmountTooLargeError`. -/
def amountTooLargeData (receivedAmount maximumAmount : String) : Except OerError Buffer :=
  getBuffer do
    newWriter (8 + 8)
    Writer.writeUInt (.string receivedAmount) 8
    Writer.writeUInt (.string maximumAmount) 8

/-- What `ilpErrorData` is set to, if it is. -/
def data : IlpErrorKind → Except OerError (Option Buffer)
  | amountTooLarge receivedAmount maximumAmount => some <$> amountTooLargeData receivedAmount maximumAmount
  | finalApplication data => .ok (some data)
  | temporaryApplication data => .ok (some data)
  | relativeApplication data => .ok (some data)
  | _ => .ok none

/-- The constructor of the class. -/
def construct (kind : IlpErrorKind) (message : String) : Except OerError IlpErrorClass :=
  kind.data.map fun data => { message, ilpErrorCode := some kind.code, ilpErrorData := data }

theorem code_mem (kind : IlpErrorKind) : kind.code ∈ codes := by
  cases kind <;> simp only [code, codes, List.mem_cons, true_or, or_true]

/-- The codes are three ASCII characters. -/
theorem length_code (kind : IlpErrorKind) : kind.code.toList.length = 3 ∧ Ascii.IsAscii kind.code.toList := by
  have h_codes : ∀ code ∈ codes, code.toList.length = 3 ∧ code.toList.all (fun c => c.toNat < 128) = true := by
    decide
  obtain ⟨h_length, h_ascii⟩ := h_codes kind.code kind.code_mem
  exact ⟨h_length, Ascii.isAscii_of_all h_ascii⟩

theorem code_ne_empty (kind : IlpErrorKind) : kind.code ≠ "" := by
  intro h
  have h_length := kind.length_code.1
  rw [h] at h_length
  cases h_length

end IlpErrorKind

/-- `errorToIlpReject`. An error without a code is a bad request. -/
def errorToIlpReject (address : String) (error : IlpErrorClass) : IlpReject where
  code :=
    match error.ilpErrorCode with
    | none => "F00"
    | some code => if code = "" then "F00" else code
  triggeredBy := address
  message := error.message
  data := error.ilpErrorData.getD []

/-- `errorToReject`. -/
def errorToReject (address : String) (error : IlpErrorClass) : Except OerError Buffer :=
  serializeIlpReject (errorToIlpReject address error)

/-! ### What is read of an error -/

/-- Eight bytes are read as the number that they stand for. -/
theorem readUInt64_toBytes {n : ℕ} (h : n < 2 ^ 64) (rest : Buffer) :
    readUInt64 (Bytes.toBytes 8 n ++ rest) = some (n, rest) := by
  have h_length : (Bytes.toBytes 8 n).length = 8 := Bytes.length_toBytes 8 n
  have h_long : ¬(Bytes.toBytes 8 n ++ rest).length < 8 := by
    rw [List.length_append, h_length]
    omega
  have h_value : Bytes.ofBytes (Bytes.toBytes 8 n) = n := Bytes.ofBytes_toBytes_of_lt h
  rw [readUInt64, if_neg h_long, List.take_left' h_length, List.drop_left' h_length]
  exact congrArg (fun v => some (v, rest)) h_value

/-- **The data of an error about a large amount.** -/
theorem amountTooLargeData_eq {received maximum : ℕ} (h_received : received < 2 ^ 64) (h_maximum : maximum < 2 ^ 64) :
    IlpErrorKind.amountTooLargeData (toString received) (toString maximum) =
      .ok (Bytes.toBytes 8 received ++ Bytes.toBytes 8 maximum) := by
  have h_writes : Writes (do
      Writer.writeUInt (.string (toString received)) 8
      Writer.writeUInt (.string (toString maximum)) 8 : Action Writer OerError Unit)
      (Bytes.toBytes 8 received ++ Bytes.toBytes 8 maximum) :=
    .bind (writes_amount h_received) (writes_amount h_maximum)
  -- the buffer of sixteen bytes is just large enough
  have h_room : Writer.HasRoom (Bytes.toBytes 8 received ++ Bytes.toBytes 8 maximum).length
      (Writer.ofBuffer (List.replicate (8 + 8) 0)) := by
    refine .inl ?_
    rw [List.length_append, Bytes.length_toBytes, Bytes.length_toBytes]
    exact le_rfl
  obtain ⟨w, h_exec, h_ext⟩ := h_writes.exec_of_hasRoom h_room
  have h_ext : Writer.Extends _ _ w := h_ext
  have h_alloc : (newWriter (8 + 8)).exec Writer.empty = (.ok (), Writer.ofBuffer (List.replicate (8 + 8) 0)) := rfl
  rw [IlpErrorKind.amountTooLargeData, getBuffer, exec_bind_ok h_alloc, h_exec]
  exact congrArg Except.ok h_ext.written

/-- **The amounts are found in it.** -/
theorem readUInt64_amountTooLarge {received maximum : ℕ} (h_received : received < 2 ^ 64)
    (h_maximum : maximum < 2 ^ 64) {data : Buffer}
    (h : IlpErrorKind.amountTooLargeData (toString received) (toString maximum) = .ok data) :
    data.length = 16 ∧ ∃ rest, readUInt64 data = some (received, rest) ∧ readUInt64 rest = some (maximum, []) := by
  rw [amountTooLargeData_eq h_received h_maximum] at h
  obtain rfl := Except.ok.inj h
  refine ⟨?_, Bytes.toBytes 8 maximum, readUInt64_toBytes h_received _, ?_⟩
  · rw [List.length_append, Bytes.length_toBytes, Bytes.length_toBytes]
  · have h_read := readUInt64_toBytes h_maximum []
    rwa [List.append_nil] at h_read

/-- **The Reject of an error is read as what it is**: with the code of its class, its message and its data, and
the address of the node. -/
theorem errorToReject_is_read {kind : IlpErrorKind} {address message : String} {error : IlpErrorClass}
    {binary : Buffer} (h_address : isValidIlpAddress address = true) (h_error : kind.construct message = .ok error)
    (h : errorToReject address error = .ok binary) :
    ∃ data, kind.data = .ok data ∧ deserializeIlpReply binary = .ok (.reject
      { code := kind.code, triggeredBy := address, message := message, data := data.getD [] }) := by
  obtain ⟨data, h_data, rfl⟩ : ∃ data, kind.data = .ok data ∧
      ({ message, ilpErrorCode := some kind.code, ilpErrorData := data } : IlpErrorClass) = error :=
    eq_ok_of_map_eq_ok h_error
  -- a kind of error has a code, which is taken for that of the reject
  have h_reject : errorToIlpReject address { message, ilpErrorCode := some kind.code, ilpErrorData := data } =
      { code := kind.code, triggeredBy := address, message := message, data := data.getD [] } := by
    simp only [errorToIlpReject, if_neg kind.code_ne_empty]
  rw [errorToReject, h_reject] at h
  refine ⟨data, h_data, deserializeIlpReply_of_serialize ?_ h⟩
  rintro packet h_packet
  obtain rfl := IlpReply.reject.inj h_packet
  refine ⟨?_, kind.length_code⟩
  change (isValidIlpAddress address || _) = true
  rw [h_address]
  rfl

end Interledger.IlpPacket
