import ObjectLedger.Ledger.Object
import ObjectLedger.Text.Base64

/-!
# What the ledger answers

The records that a lookup, a ledger and a signer hand back, and the ways in which they fail.
-/

namespace ObjectLedger

/-- Why a request was not answered. -/
inductive ClientError where
  | transport (detail : String)
  /-- The ledger refused the request. -/
  | rejected (detail : String)
  | timeout (detail : String)
  | signing (detail : String)
  | invalidResponse (detail : String)
  deriving DecidableEq, Repr

namespace ClientError

def message : ClientError → String
  | transport detail => s!"transport error: {detail}"
  | rejected detail => s!"request rejected: {detail}"
  | timeout detail => s!"request timed out: {detail}"
  | signing detail => s!"signing failed: {detail}"
  | invalidResponse detail => s!"invalid response: {detail}"

/-- Whether the same request may succeed later. -/
def isRetryable : ClientError → Bool
  | transport _ | timeout _ => true
  | rejected _ | signing _ | invalidResponse _ => false

def category : ClientError → String
  | transport _ => "transport"
  | rejected _ => "rejected"
  | timeout _ => "timeout"
  | signing _ => "signing"
  | invalidResponse _ => "response"

end ClientError

/-- The current reference and owner of an object. -/
structure ObjectInfo where
  ref : ObjectRef
  owner : Owner
  deriving DecidableEq

/-- A coin and what it holds. -/
structure CoinInfo where
  ref : ObjectRef
  balance : UInt64
  deriving DecidableEq

/-- A serialized signature: flag, signature and public key. -/
structure UserSignature where
  bytes : List UInt8
  deriving DecidableEq

namespace UserSignature

def text (s : UserSignature) : String := Base64.text s.bytes

/-- The text that shows a signature inside another value. -/
def display (s : UserSignature) : String := s!"UserSignature({s.text})"

end UserSignature

/-- The ledger's answer to a transaction it ran. -/
structure SubmitResponse where
  digest : Digest
  /-- The effects in their encoded form. -/
  effects : List UInt8
  deriving DecidableEq

instance : OfJson ClientError where
  ofJson? j := do
    match ← j.variant? with
    | ("Transport", p) => Json.single? ClientError.transport p
    | ("Rejected", p) => Json.single? ClientError.rejected p
    | ("Timeout", p) => Json.single? ClientError.timeout p
    | ("Signing", p) => Json.single? ClientError.signing p
    | ("InvalidResponse", p) => Json.single? ClientError.invalidResponse p
    | _ => none

instance : ToJson ObjectInfo where
  toJson i := .object [("object_ref", toJson i.ref), ("owner", toJson i.owner)]

instance : OfJson ObjectInfo where
  ofJson? := Json.record? do
    return { ref := ← Json.required ObjectRef "object_ref", owner := ← Json.required Owner "owner" }

instance : OfJson CoinInfo where
  ofJson? := Json.record? do
    return { ref := ← Json.required ObjectRef "object_ref"
             balance := ← Json.required UInt64 "balance" }

end ObjectLedger
