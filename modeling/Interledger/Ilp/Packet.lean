import Mathlib.Data.Nat.Notation

/-!
# ILP packets

The parts of `ilp-packet` that the senders and receivers of the repository work with once a packet
has been parsed: the amounts and data of a Prepare, and the two replies to it.
-/

namespace Interledger.Ilp

/-- A `Buffer`. -/
abbrev Buffer := List UInt8

/-- An ILP error code as it stands in a Reject: three characters, the first of which is its
class (`F` final, `T` temporary, `R` relative). -/
structure IlpErrorCode where
  c₀ : Char
  c₁ : Char
  c₂ : Char
  deriving DecidableEq

namespace IlpErrorCode

/-- `F00_BAD_REQUEST`. -/
def f00BadRequest : IlpErrorCode := ⟨'F', '0', '0'⟩

/-- `F06_UNEXPECTED_PAYMENT`. -/
def f06UnexpectedPayment : IlpErrorCode := ⟨'F', '0', '6'⟩

/-- `F08_AMOUNT_TOO_LARGE`. -/
def f08AmountTooLarge : IlpErrorCode := ⟨'F', '0', '8'⟩

/-- `F99_APPLICATION_ERROR`. -/
def f99ApplicationError : IlpErrorCode := ⟨'F', '9', '9'⟩

/-- `T00_INTERNAL_ERROR`. -/
def t00InternalError : IlpErrorCode := ⟨'T', '0', '0'⟩

/-- `T04_INSUFFICIENT_LIQUIDITY`. -/
def t04InsufficientLiquidity : IlpErrorCode := ⟨'T', '0', '4'⟩

/-- `R01_INSUFFICIENT_SOURCE_AMOUNT`. -/
def r01InsufficientSourceAmount : IlpErrorCode := ⟨'R', '0', '1'⟩

/-- `code[0] === 'T'`. -/
def isTemporary (code : IlpErrorCode) : Bool := code.c₀ = 'T'

end IlpErrorCode

/-- `IlpReject`, less the texts that only reach the log. -/
structure IlpReject where
  code : IlpErrorCode
  data : Buffer
  deriving DecidableEq

/-- `IlpFulfill`. -/
structure IlpFulfill where
  fulfillment : Buffer
  data : Buffer
  deriving DecidableEq

/-- `Reader.readUInt64Long`: eight bytes, most significant first, off the front of the buffer. The
read throws (`none`) when fewer are left. -/
def readUInt64 (buffer : Buffer) : Option (ℕ × Buffer) :=
  if buffer.length < 8 then none
  else some ((buffer.take 8).foldl (fun n byte => 256 * n + byte.toNat) 0, buffer.drop 8)

example : readUInt64 [0, 0, 0, 0, 0, 0, 2, 1, 7] = some (513, [7]) := by decide

end Interledger.Ilp
