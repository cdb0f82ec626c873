import TxWorkload.Crypto.Keccak
import TxWorkload.Crypto.Secp256k1
import TxWorkload.Error
import TxWorkload.Hex.Bytes
import TxWorkload.Text.Ascii

/-!
# Key — private keys and the addresses they control

A private key is written as 64 hexadecimal digits behind an optional `0x`; its normal form has the
marker and lower case digits. The address of a key is the tail of the hash of its public point.
-/

namespace TxWorkload
namespace Account
namespace Key

/-- The characters of a key behind its optional marker. -/
def body : List Char → List Char
  | '0' :: 'x' :: cs => cs
  | cs => cs

/-- Whether all characters are hexadecimal digits. -/
def allDigits (cs : List Char) : Bool :=
  cs.all fun c => (Hex.digit? c).isSome

/-- The number of bytes of characters in UTF-8. -/
def utf8Length (cs : List Char) : Nat :=
  cs.foldr (fun c n => c.utf8Size + n) 0

/-- The normal form of a private key. -/
def normalize (key : String) : Except Error String :=
  let digits := body key.toList
  if utf8Length digits = 64 ∧ allDigits digits then
    .ok (String.ofList ('0' :: 'x' :: digits.map Char.toLower))
  else
    .error (.invalidPrivateKey
      s!"expected 32 hex-encoded bytes, got {utf8Length digits} characters")

/-- The secret that 32 bytes denote. -/
def secret? (bytes : List UInt8) : Option Nat :=
  let k := Hex.bigEndian bytes
  if bytes.length = 32 ∧ Secp256k1.isSecret k then some k else none

/-- The address of a secret: the last 20 bytes of the hash of its public point. -/
def addressOf (k : Nat) : String :=
  Hex.data ((Keccak.hash256 (Secp256k1.publicKey k)).drop 12)

/-- The address of a private key. -/
def address (key : String) : Except Error String :=
  match Hex.decode (String.ofList (body key.toList)).toUTF8.toList with
  | .error fault => .error (.invalidPrivateKey fault.message)
  | .ok bytes =>
      match secret? bytes with
      | some k => .ok (addressOf k)
      | none => .error (.invalidPrivateKey "malformed or out-of-range secret key")

end Key
end Account
end TxWorkload
