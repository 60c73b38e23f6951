import ObjectLedger.Client.Basic
import ObjectLedger.Hash.Blake2b
import ObjectLedger.Hash.Ed25519
import ObjectLedger.Json.Reader
import ObjectLedger.Json.Record

/-!
# Wallet keys

A key signs the hash of a transaction's bytes. Its address is the hash of its public key, and a flag in
front says which scheme the key belongs to, in the address as in the signature.
-/

namespace ObjectLedger

/-- The secret of a key. -/
structure WalletKey where
  secret : Bytes32
  deriving DecidableEq

namespace WalletKey

def schemeFlag : UInt8 := 0

/-- What is hashed in front of the bytes of a transaction that is signed: scope, version and
application. -/
def signingSalt : List UInt8 := [0, 0, 0]

/-- The address of a public key. -/
def addressOf (publicKey : List UInt8) : Address :=
  ⟨.ofTail (Blake2b.hash256 (schemeFlag :: publicKey))⟩

def publicKey (k : WalletKey) : List UInt8 := Ed25519.publicKey k.secret.bytes

def address (k : WalletKey) : Address := addressOf k.publicKey

/-- The signature of the bytes of a transaction: flag, signature and public key. -/
def sign (k : WalletKey) (bytes : List UInt8) : UserSignature :=
  ⟨schemeFlag :: (Ed25519.sign k.secret.bytes (Blake2b.hash256 (signingSalt ++ bytes)) ++
    k.publicKey)⟩

def display (k : WalletKey) : String :=
  "Ed25519Signer \x7b address: " ++ k.address.display ++ ", .. \x7d"

end WalletKey

/-- Why the content of a key file was refused. -/
inductive KeyFault where
  /-- Not a list of bytes in JSON. -/
  | notJson
  | notBase64
  | wrongScheme (flag : UInt8)
  | wrongLength (got : Nat)
  /-- A secret of zeros alone. -/
  | zero
  deriving DecidableEq, Repr

def KeyFault.message : KeyFault → String
  | notJson => "Failed to parse key JSON"
  | notBase64 => "Failed to decode base64 key"
  | wrongScheme flag => s!"Unsupported key scheme flag: {Hex.byteLiteral flag}"
  | wrongLength got => s!"Invalid key length: expected 32 bytes, got {got}"
  | zero => "Invalid key: all-zero key rejected"

namespace WalletKey

/-- The secret in base 64, with or without the flag in front. -/
def ofBase64 (text : String) : Except KeyFault (List UInt8) :=
  match Base64.bytes? text with
  | none => .error .notBase64
  | some bytes =>
    match bytes with
    | flag :: secret =>
      if secret.length = 32 then
        if flag = schemeFlag then .ok secret else .error (.wrongScheme flag)
      else .ok bytes
    | [] => .ok []

/-- The bytes in the content of a key file: a JSON list, or base 64. -/
def fileBytes (content : String) : Except KeyFault (List UInt8) :=
  let text := trimmed content
  if text.startsWith "[" then
    match (Json.parse? text).bind (ofJson? (α := List UInt8)) with
    | some bytes => .ok bytes
    | none => .error .notJson
  else ofBase64 text

def ofFile (content : String) : Except KeyFault WalletKey := do
  let bytes ← fileBytes content
  match Bytes32.ofBytes? bytes with
  | none => .error (.wrongLength bytes.length)
  | some secret => if secret = .zero then .error .zero else .ok ⟨secret⟩

end WalletKey

end ObjectLedger
