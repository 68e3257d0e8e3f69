import LedgerWire.Account
import LedgerWire.Address
import LedgerWire.Amount
import LedgerWire.Asset.Basic
import LedgerWire.Asset.Pool
import LedgerWire.Bytes
import LedgerWire.Catalogue
import LedgerWire.Claim.BalanceId
import LedgerWire.Claim.Predicate
import LedgerWire.CommandLine.Basic
import LedgerWire.CommandLine.Command
import LedgerWire.CommandLine.Grammar
import LedgerWire.CommandLine.Program
import LedgerWire.ConfigSetting.Basic
import LedgerWire.ConfigSetting.Groups
import LedgerWire.Contract.Authorization
import LedgerWire.Contract.Error
import LedgerWire.Contract.Footprint
import LedgerWire.Contract.HostFunction
import LedgerWire.Contract.Symbol
import LedgerWire.Contract.Value
import LedgerWire.Contract.Wide
import LedgerWire.Crypto.Ed25519
import LedgerWire.Crypto.Hash
import LedgerWire.Crypto.KeyPair
import LedgerWire.Crypto.Sha2
import LedgerWire.DataType
import LedgerWire.Entry.Account
import LedgerWire.Entry.Basic
import LedgerWire.Entry.Data
import LedgerWire.Entry.Key
import LedgerWire.Entry.Market
import LedgerWire.Json.Basic
import LedgerWire.Json.Form
import LedgerWire.Json.Members
import LedgerWire.Json.Parser
import LedgerWire.Json.Printer
import LedgerWire.Limits
import LedgerWire.Main
import LedgerWire.Network
import LedgerWire.Operation.Account
import LedgerWire.Operation.Balance
import LedgerWire.Operation.Basic
import LedgerWire.Operation.Contract
import LedgerWire.Operation.Kind
import LedgerWire.Operation.Offer
import LedgerWire.Operation.Payment
import LedgerWire.Operation.Pool
import LedgerWire.Operation.Rules
import LedgerWire.Operation.SetOptions
import LedgerWire.Operation.Sponsorship
import LedgerWire.Operation.Trust
import LedgerWire.Price
import LedgerWire.Program
import LedgerWire.Proofs.Acceptance
import LedgerWire.Proofs.Amount.Canonical
import LedgerWire.Proofs.Amount.Exactness
import LedgerWire.Proofs.AppendOnly
import LedgerWire.Proofs.Catalogue
import LedgerWire.Proofs.ContractValues
import LedgerWire.Proofs.DepositWindow
import LedgerWire.Proofs.Encodability
import LedgerWire.Proofs.EntryKeys
import LedgerWire.Proofs.Faults
import LedgerWire.Proofs.IndependentSettings
import LedgerWire.Proofs.Json.Reordered
import LedgerWire.Proofs.Json.Restores
import LedgerWire.Proofs.LateRules
import LedgerWire.Proofs.LookAhead
import LedgerWire.Proofs.Nesting
import LedgerWire.Proofs.Order
import LedgerWire.Proofs.PoolNames
import LedgerWire.Proofs.Preimages
import LedgerWire.Proofs.Price.Acceptance
import LedgerWire.Proofs.Price.Accuracy
import LedgerWire.Proofs.Price.Drift
import LedgerWire.Proofs.Price.Exactness
import LedgerWire.Proofs.Price.Places
import LedgerWire.Proofs.Price.Rationals
import LedgerWire.Proofs.Price.Rounds
import LedgerWire.Proofs.Price.Totality
import LedgerWire.Proofs.Price.Words
import LedgerWire.Proofs.Programs
import LedgerWire.Proofs.Projection
import LedgerWire.Proofs.ReaderState
import LedgerWire.Proofs.RoundTrip
import LedgerWire.Proofs.Schema.Current
import LedgerWire.Proofs.Schema.Lossless
import LedgerWire.Proofs.Schema.Recursion
import LedgerWire.Proofs.Schema.Rules
import LedgerWire.Proofs.SignerTexts
import LedgerWire.Proofs.Signing
import LedgerWire.Proofs.Spellings
import LedgerWire.Proofs.Strkey
import LedgerWire.Proofs.Text.Base32
import LedgerWire.Proofs.Text.Base64
import LedgerWire.Proofs.Text.Bits
import LedgerWire.Proofs.Text.Decimal
import LedgerWire.Proofs.Text.Hex
import LedgerWire.Proofs.Text.Value
import LedgerWire.Proofs.Texts
import LedgerWire.Proofs.Types.Assets
import LedgerWire.Proofs.Types.Claims
import LedgerWire.Proofs.Types.Contracts
import LedgerWire.Proofs.Types.Current
import LedgerWire.Proofs.Types.Entries
import LedgerWire.Proofs.Types.Lossless
import LedgerWire.Proofs.Types.LosslessEntries
import LedgerWire.Proofs.Types.Names
import LedgerWire.Proofs.Types.Operations
import LedgerWire.Proofs.Types.Settings
import LedgerWire.Proofs.Types.Strict
import LedgerWire.Proofs.Types.Values
import LedgerWire.Proofs.Types.Writable
import LedgerWire.Proofs.UniqueNames
import LedgerWire.Proofs.Validation
import LedgerWire.Proofs.WideIntegers
import LedgerWire.Proofs.Wire.Codecs
import LedgerWire.Proofs.Wire.Depth
import LedgerWire.Proofs.Wire.Faults
import LedgerWire.Proofs.Wire.Giving
import LedgerWire.Proofs.Wire.Reached
import LedgerWire.Proofs.Wire.Reading
import LedgerWire.Proofs.Wire.Regular
import LedgerWire.Proofs.Wire.Settling
import LedgerWire.Proofs.Wire.Steps
import LedgerWire.Proofs.Wire.Strict
import LedgerWire.Proofs.Wire.Verdicts
import LedgerWire.Proofs.Wire.Whole
import LedgerWire.Proofs.Wire.Writable
import LedgerWire.Proofs.Wire.Writing
import LedgerWire.Schema.Basic
import LedgerWire.Schema.Record
import LedgerWire.Schema.Union
import LedgerWire.Signer
import LedgerWire.Strkey
import LedgerWire.Text.Base32
import LedgerWire.Text.Base64
import LedgerWire.Text.Bits
import LedgerWire.Text.Blank
import LedgerWire.Text.Crc16
import LedgerWire.Text.Decimal
import LedgerWire.Text.Hex
import LedgerWire.Text.Quoted
import LedgerWire.Text.Unassigned
import LedgerWire.Text.Visibility
import LedgerWire.Wire.Attempt
import LedgerWire.Wire.Codec
import LedgerWire.Wire.Error
import LedgerWire.Wire.Reader
import LedgerWire.Wire.Writer
