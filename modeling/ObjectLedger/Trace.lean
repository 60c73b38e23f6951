import ObjectLedger.Ledger.Address

/-!
# Traces

What ties together the records of one request to an executor: an id of 128 bits, the operation, and its
place in the queue. Work inside an operation shares its id and its place.
-/

namespace ObjectLedger

/-- An id that the records of one request share. -/
structure CorrelationId where
  value : BitVec 128
  deriving DecidableEq, Repr

namespace CorrelationId

def digits (c : CorrelationId) : List Char := Hex.encode (bigEndian 16 c.value.toNat)

def text (c : CorrelationId) : String := String.ofList c.digits

/-- The lengths of the groups that hyphens stand between. -/
def groupLengths : List Nat := [8, 4, 4, 4, 12]

/-- Digits cut into groups with hyphens between them. -/
def hyphenate : List Nat → List Char → List Char
  | [], rest => rest
  | [_], rest => rest
  | n :: lengths, ds => ds.take n ++ '-' :: hyphenate lengths (ds.drop n)

def hyphenated (c : CorrelationId) : String := String.ofList (hyphenate groupLengths c.digits)

/-- The digits of a text with hyphens, which have to stand between the groups. -/
def dropHyphens? : List Nat → List Char → Option (List Char)
  | n :: m :: lengths, cs =>
    match cs.drop n with
    | '-' :: rest => (dropHyphens? (m :: lengths) rest).map (cs.take n ++ ·)
    | _ => none
  | _, cs => some cs

/-- What stands in front of the id in its form as a name. -/
def nameMark : List Char := "urn:uuid:".toList

/-- The digits of a text: plain, with hyphens, or with hyphens in braces or as a name. -/
def digits? (cs : List Char) : Option (List Char) :=
  if cs.length = 32 then some cs
  else if cs.length = 36 then dropHyphens? groupLengths cs
  else if cs.length = 38 ∧ cs.head? = some '\x7b' ∧ cs.getLast? = some '\x7d' then
    dropHyphens? groupLengths cs.tail.dropLast
  else if cs.length = 45 ∧ cs.take 9 = nameMark then dropHyphens? groupLengths (cs.drop 9)
  else none

/-- Reads an id in any of its forms; digits of either case. -/
def parse? (s : String) : Option CorrelationId := do
  let bytes ← Hex.decode? (← digits? s.toList)
  if bytes.length = 16 then some ⟨BitVec.ofNat 128 (ofLittleEndian bytes.reverse)⟩ else none

end CorrelationId

instance : ToJson CorrelationId := ⟨fun c => .text c.hyphenated⟩

instance : OfJson CorrelationId where
  ofJson?
    | .text s => CorrelationId.parse? s
    | _ => none

/-- An operation of an executor. -/
inductive Operation where
  | build
  | execute
  | resetCache
  | waitForInclusion
  deriving DecidableEq, Repr

def Operation.name : Operation → String
  | build => "build"
  | execute => "execute"
  | resetCache => "reset_cache"
  | waitForInclusion => "wait_for_inclusion"

def Operation.all : List Operation := [.build, .execute, .resetCache, .waitForInclusion]

instance : ToJson Operation := ⟨fun o => .text o.name⟩

instance : OfJson Operation where
  ofJson? j := do
    let (name, payload) ← j.variant?
    Json.unit? (← Operation.all.find? (·.name == name)) payload

/-- Where a record of work belongs. -/
structure TraceContext where
  correlation : CorrelationId
  operation : Operation
  sender : Address
  /-- Order of arrival in the executor's queue. -/
  sequence : UInt64
  /-- The operation that this one is a part of. -/
  parent : Option Operation
  startedAt : UInt64
  deriving DecidableEq

namespace TraceContext

/-- An operation inside another, begun at a time. -/
def child (t : TraceContext) (operation : Operation) (startedAt : UInt64) : TraceContext :=
  { t with operation, parent := some t.operation, startedAt }

/-- Operations each inside the one before, all begun at one time. -/
def descend (t : TraceContext) (startedAt : UInt64) : List Operation → List TraceContext
  | [] => []
  | operation :: rest =>
    let inner := t.child operation startedAt
    inner :: descend inner startedAt rest

end TraceContext

instance : OfJson TraceContext where
  ofJson? := Json.record? do
    return { correlation := ← Json.required CorrelationId "correlation_id"
             operation := ← Json.required Operation "operation"
             sender := ← Json.required Address "sender"
             sequence := ← Json.required UInt64 "sequence"
             parent := ← Json.optional Operation "parent"
             startedAt := ← Json.required UInt64 "started_at_ms" }

instance : ToJson TraceContext where
  toJson t := .object [("correlation_id", toJson t.correlation), ("operation", toJson t.operation),
    ("sender", toJson t.sender), ("sequence", toJson t.sequence), ("parent", toJson t.parent),
    ("started_at_ms", toJson t.startedAt)]

end ObjectLedger
