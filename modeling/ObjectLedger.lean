import ObjectLedger.Cache
import ObjectLedger.Client.Basic
import ObjectLedger.CommandLine.Arguments
import ObjectLedger.CommandLine.Run
import ObjectLedger.Config.Basic
import ObjectLedger.Config.Document
import ObjectLedger.Config.EnvFile
import ObjectLedger.Config.Executor
import ObjectLedger.Config.Layers
import ObjectLedger.Config.LogFilter
import ObjectLedger.Effects.Basic
import ObjectLedger.Effects.Codec
import ObjectLedger.Effects.Failure
import ObjectLedger.Effects.FailureWire
import ObjectLedger.Effects.Status
import ObjectLedger.Executor.Caching
import ObjectLedger.Executor.Inclusion
import ObjectLedger.Executor.Serial
import ObjectLedger.Hash.Blake2b
import ObjectLedger.Hash.Ed25519
import ObjectLedger.Hash.Sha512
import ObjectLedger.InMemory.Ledger
import ObjectLedger.InMemory.Recorded
import ObjectLedger.InMemory.Session
import ObjectLedger.Json.Basic
import ObjectLedger.Json.Printer
import ObjectLedger.Json.Reader
import ObjectLedger.Json.Record
import ObjectLedger.Ledger.Address
import ObjectLedger.Ledger.Digest
import ObjectLedger.Ledger.Object
import ObjectLedger.Ledger.ParseError
import ObjectLedger.Main
import ObjectLedger.Metrics
import ObjectLedger.Number.Decimal
import ObjectLedger.Number.Double
import ObjectLedger.Number.Endian
import ObjectLedger.Proofs.Effects.Codec
import ObjectLedger.Proofs.Effects.Failure
import ObjectLedger.Proofs.Effects.Summary
import ObjectLedger.Proofs.Executor.FeeSlot
import ObjectLedger.Proofs.Ledger.Address
import ObjectLedger.Proofs.Prelude
import ObjectLedger.Proofs.Resolve.Build
import ObjectLedger.Proofs.Resolve.Coins
import ObjectLedger.Proofs.Resolve.Gas
import ObjectLedger.Proofs.Resolve.History
import ObjectLedger.Proofs.Resolve.Intents
import ObjectLedger.Proofs.Resolve.Names
import ObjectLedger.Proofs.Resolve.Objects
import ObjectLedger.Proofs.Transaction.Canonical
import ObjectLedger.Proofs.Transaction.Edits
import ObjectLedger.Proofs.Transaction.Encoding
import ObjectLedger.Proofs.Transaction.Growth
import ObjectLedger.Proofs.Transaction.InPlace
import ObjectLedger.Proofs.Transaction.Inputs
import ObjectLedger.Proofs.Transaction.Merge
import ObjectLedger.Proofs.Transaction.Redirect
import ObjectLedger.Proofs.Transaction.References
import ObjectLedger.Proofs.Transaction.Replace
import ObjectLedger.Proofs.Transaction.RoundTrip
import ObjectLedger.Proofs.TypeTag.Basic
import ObjectLedger.Proofs.TypeTag.Text
import ObjectLedger.Proofs.TypeTag.Wire
import ObjectLedger.Proofs.Wire.Framing
import ObjectLedger.Proofs.Wire.Ledger
import ObjectLedger.Proofs.Wire.Reading
import ObjectLedger.Resolve.Basic
import ObjectLedger.Resolve.Coins
import ObjectLedger.Resolve.Gas
import ObjectLedger.Resolve.Intents
import ObjectLedger.Resolve.Names
import ObjectLedger.Resolve.Objects
import ObjectLedger.Resolve.Pipeline
import ObjectLedger.Table
import ObjectLedger.Text.Base58
import ObjectLedger.Text.Base64
import ObjectLedger.Text.Blank
import ObjectLedger.Text.Hex
import ObjectLedger.Text.Literal
import ObjectLedger.Text.Utf8
import ObjectLedger.Text.Word
import ObjectLedger.Toml.Basic
import ObjectLedger.Toml.Document
import ObjectLedger.Toml.Printer
import ObjectLedger.Toml.Reader
import ObjectLedger.Toml.Scalar
import ObjectLedger.Trace
import ObjectLedger.Transaction.Argument
import ObjectLedger.Transaction.Basic
import ObjectLedger.Transaction.BuildError
import ObjectLedger.Transaction.Command
import ObjectLedger.Transaction.Decode
import ObjectLedger.Transaction.Edit
import ObjectLedger.Transaction.Encode
import ObjectLedger.Transaction.Input
import ObjectLedger.Transaction.Inputs
import ObjectLedger.Transaction.Splice
import ObjectLedger.Transaction.Validity
import ObjectLedger.TypeTag.Basic
import ObjectLedger.TypeTag.Parser
import ObjectLedger.Wallet
import ObjectLedger.Wire.Cursor
import ObjectLedger.Wire.DecodeError
import ObjectLedger.Wire.Ledger
import ObjectLedger.Wire.Schema
import ObjectLedger.Wire.Script
import ObjectLedger.Wire.Write
import ObjectLedger.Proofs.Resolve.Peers
import ObjectLedger.Proofs.Resolve.Pipeline
import ObjectLedger.Proofs.Resolve.PackageNames
import ObjectLedger.Proofs.Executor.Payment
import ObjectLedger.Proofs.Transaction.Injective
import ObjectLedger.Proofs.InMemory.Lookup
import ObjectLedger.Proofs.Resolve.Answers
import ObjectLedger.Proofs.Resolve.Encodes
import ObjectLedger.Proofs.Resolve.Steady
import ObjectLedger.Proofs.Transaction.Associativity
import ObjectLedger.Proofs.Transaction.Readiness
import ObjectLedger.Proofs.Transaction.Unions
import ObjectLedger.Proofs.InMemory.Attempts
import ObjectLedger.Proofs.InMemory.Chain
import ObjectLedger.Proofs.InMemory.Submission
import ObjectLedger.Proofs.Resolve.Keeping
import ObjectLedger.Proofs.TypeTag.Extent
import ObjectLedger.Proofs.Wire.Refusing
import ObjectLedger.Proofs.Transaction.Nesting
import ObjectLedger.Proofs.Cache.Refinement
import ObjectLedger.Proofs.Resolve.Commit
import ObjectLedger.Proofs.Resolve.Finished
import ObjectLedger.Proofs.Wire.Persisting
import ObjectLedger.Proofs.Transaction.PrefixFree
import ObjectLedger.Proofs.Resolve.Declared
import ObjectLedger.Proofs.Resolve.Mentions
import ObjectLedger.Proofs.Resolve.Selection
import ObjectLedger.Proofs.Resolve.Balances
import ObjectLedger.Proofs.Resolve.Calls
import ObjectLedger.Proofs.TypeTag.Spelling
import ObjectLedger.Proofs.TypeTag.Reading
import ObjectLedger.Proofs.Executor.Polling
import ObjectLedger.Proofs.Transaction.Order
import ObjectLedger.Proofs.Wire.Groups
import ObjectLedger.Proofs.Wire.Schema
import ObjectLedger.Proofs.Json.Compact
import ObjectLedger.Proofs.Json.Sorting
import ObjectLedger.Proofs.Transaction.Sharing
import ObjectLedger.Proofs.Effects.Rendering
import ObjectLedger.Proofs.Metrics
import ObjectLedger.Proofs.Resolve.Preserving
import ObjectLedger.Proofs.Wire.Steps
import ObjectLedger.Proofs.Transaction.Traversal
import ObjectLedger.Proofs.Ledger.Spelling
