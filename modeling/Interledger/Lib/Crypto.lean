import Mathlib.Data.Nat.Notation
import Mathlib.Tactic.Common

/-!
# Hashes and authentic encryption

A hash, a keyed hash and authentic encryption with tags of 16 bytes, of which nothing is assumed but that
encryption keeps the length and that a ciphertext with its whole tag decrypts just to the plaintext that it
was made from.

A message in transit is the initialization vector, the tag and the ciphertext (`Crypto.sealed`), and the three
are found again by their lengths.
-/

namespace Interledger

/-- SHA-256, HMAC-SHA-256 and AES-256-GCM. `cipher` returns the ciphertext and its tag. -/
structure Crypto where
  sha256 : List UInt8 → List UInt8
  hmac : (key message : List UInt8) → List UInt8
  cipher : (key iv plaintext : List UInt8) → List UInt8 × List UInt8
  decipher : (key iv encrypted tag : List UInt8) → Option (List UInt8)
  length_encrypted : ∀ key iv plaintext, (cipher key iv plaintext).1.length = plaintext.length
  length_tag : ∀ key iv plaintext, (cipher key iv plaintext).2.length = 16
  decipher_eq_some : ∀ key iv encrypted tag plaintext, tag.length = 16 →
    (decipher key iv encrypted tag = some plaintext ↔ cipher key iv plaintext = (encrypted, tag))

namespace Crypto

/-- The length of an initialization vector. -/
def ivLength : ℕ := 12

/-- The length of a tag. -/
def authTagLength : ℕ := 16

/-- An initialization vector, as it is drawn at random for each encryption. -/
abbrev Iv := { iv : List UInt8 // iv.length = ivLength }

variable (crypto : Crypto) (key : List UInt8) (iv : Iv) (plaintext : List UInt8)

/-- The message for a plaintext. -/
def sealed : List UInt8 := iv.1 ++ (crypto.cipher key iv.1 plaintext).2 ++ (crypto.cipher key iv.1 plaintext).1

theorem take_sealed : (crypto.sealed key iv plaintext).take ivLength = iv.1 := by
  rw [sealed, List.append_assoc]
  exact List.take_left' iv.2

theorem take_drop_sealed : ((crypto.sealed key iv plaintext).drop ivLength).take authTagLength =
    (crypto.cipher key iv.1 plaintext).2 := by
  rw [sealed, List.append_assoc, List.drop_left' iv.2]
  exact List.take_left' (crypto.length_tag key iv.1 plaintext)

theorem drop_sealed : (crypto.sealed key iv plaintext).drop (ivLength + authTagLength) =
    (crypto.cipher key iv.1 plaintext).1 := by
  rw [sealed]
  apply List.drop_left'
  rw [List.length_append, iv.2, crypto.length_tag, authTagLength]

theorem length_sealed :
    (crypto.sealed key iv plaintext).length = ivLength + authTagLength + plaintext.length := by
  rw [sealed, List.length_append, List.length_append, iv.2, crypto.length_tag, crypto.length_encrypted,
    authTagLength]

/-- **A ciphertext with its tag decrypts to the plaintext.** -/
theorem decipher_cipher : crypto.decipher key iv.1 (crypto.cipher key iv.1 plaintext).1
    (crypto.cipher key iv.1 plaintext).2 = some plaintext :=
  (crypto.decipher_eq_some _ _ _ _ _ (crypto.length_tag key iv.1 plaintext)).mpr rfl

/-- There are such functions: a cipher that changes nothing, with a tag that is always the same. -/
instance : Inhabited Crypto where
  default :=
    { sha256 := id
      hmac := fun _ message => message
      cipher := fun _ _ plaintext => (plaintext, List.replicate 16 0)
      decipher := fun _ _ encrypted tag => if tag = List.replicate 16 0 then some encrypted else none
      length_encrypted := fun _ _ _ => rfl
      length_tag := fun _ _ _ => rfl
      decipher_eq_some := fun _ _ encrypted tag plaintext _ => by
        rw [Option.ite_none_right_eq_some, Prod.mk.injEq, Option.some.injEq]
        exact ⟨fun ⟨h_tag, h_same⟩ => ⟨h_same.symm, h_tag.symm⟩, fun ⟨h_same, h_tag⟩ => ⟨h_tag.symm, h_same.symm⟩⟩ }

end Crypto

end Interledger
