import SmartWallet.Address
import SmartWallet.Authorization.Entry
import SmartWallet.Authorization.Error
import SmartWallet.Authorization.Invocation
import SmartWallet.Authorization.Policy
import SmartWallet.Authorization.Preimage
import SmartWallet.Bytes
import SmartWallet.Bytes.Cursor
import SmartWallet.Bytes.Hex
import SmartWallet.Bytes.WordCursor
import SmartWallet.Curve.Edwards25519
import SmartWallet.Curve.Modular
import SmartWallet.Curve.P256
import SmartWallet.Digest.Blocks
import SmartWallet.Digest.Hmac
import SmartWallet.Digest.Sha256
import SmartWallet.Digest.Sha512
import SmartWallet.Ecdsa
import SmartWallet.Ecdsa.Der
import SmartWallet.Ecdsa.SigningKey
import SmartWallet.Ed25519
import SmartWallet.Json.Basic
import SmartWallet.Json.Reader
import SmartWallet.Json.Record
import SmartWallet.Proofs.Authorization.Binary
import SmartWallet.Proofs.Authorization.Commitment
import SmartWallet.Proofs.Authorization.Context
import SmartWallet.Proofs.Authorization.Entry
import SmartWallet.Proofs.Authorization.Preimage
import SmartWallet.Proofs.Authorization.Siblings
import SmartWallet.Proofs.Authorization.SignatureMap
import SmartWallet.Proofs.Bytes.Cursor
import SmartWallet.Proofs.Bytes.CursorRun
import SmartWallet.Proofs.Bytes.Hex
import SmartWallet.Proofs.Bytes.Number
import SmartWallet.Proofs.Bytes.Text
import SmartWallet.Proofs.Bytes.WordCursor
import SmartWallet.Proofs.Ecdsa.Der
import SmartWallet.Proofs.Ecdsa.Pair
import SmartWallet.Proofs.Ecdsa.Signature
import SmartWallet.Proofs.Except
import SmartWallet.Proofs.Except.Traversal
import SmartWallet.Proofs.Json.Form
import SmartWallet.Proofs.Json.Number
import SmartWallet.Proofs.Json.Record
import SmartWallet.Proofs.Json.Text
import SmartWallet.Proofs.Json.Value
import SmartWallet.Proofs.ScVal.Binary
import SmartWallet.Proofs.ScVal.Compare
import SmartWallet.Proofs.ScVal.Field
import SmartWallet.Proofs.ScVal.Record
import SmartWallet.Proofs.ScVal.Shape
import SmartWallet.Proofs.ScVal.Sort
import SmartWallet.Proofs.Signer.Forms
import SmartWallet.Proofs.Signer.Limits
import SmartWallet.Proofs.Signer.Order
import SmartWallet.Proofs.Signer.RoundTrip
import SmartWallet.Proofs.StableSort
import SmartWallet.Proofs.Text.Base64
import SmartWallet.Proofs.Text.Base64.Spelling
import SmartWallet.Proofs.Text.KeyText
import SmartWallet.Proofs.Text.Strkey
import SmartWallet.Proofs.Transaction.Account
import SmartWallet.Proofs.Transaction.Binary
import SmartWallet.Proofs.Transaction.Normalized
import SmartWallet.Proofs.Wallet.Action
import SmartWallet.Proofs.Wallet.CoSigning
import SmartWallet.Proofs.Wallet.DefaultPasskey
import SmartWallet.Proofs.Wallet.EntrySigning
import SmartWallet.Proofs.Wallet.Failure
import SmartWallet.Proofs.Wallet.HighSignatures
import SmartWallet.Proofs.Wallet.JsonForms
import SmartWallet.Proofs.Wallet.KeyCreation
import SmartWallet.Proofs.Wallet.PasskeySigning
import SmartWallet.Proofs.Wallet.RefusedEntry
import SmartWallet.Proofs.Wallet.Requests
import SmartWallet.Proofs.Wallet.Signing
import SmartWallet.Proofs.Wallet.SigningOrder
import SmartWallet.Proofs.Wallet.TransactionSigning
import SmartWallet.Proofs.Wallet.TwoRuns
import SmartWallet.Proofs.Wallet.WalletLookup
import SmartWallet.Proofs.WebAuthn.Assertion
import SmartWallet.Proofs.WebAuthn.Authenticator
import SmartWallet.Proofs.WebAuthn.AuthenticatorData
import SmartWallet.Proofs.WebAuthn.Ceremony
import SmartWallet.Proofs.WebAuthn.ClientData
import SmartWallet.Proofs.WebAuthn.Coordinates
import SmartWallet.Proofs.WebAuthn.CredentialKey
import SmartWallet.Proofs.WebAuthn.KeySources
import SmartWallet.Proofs.Xdr.Codec
import SmartWallet.Proofs.Xdr.Text
import SmartWallet.Sample
import SmartWallet.ScVal.Basic
import SmartWallet.ScVal.Binary
import SmartWallet.ScVal.Order
import SmartWallet.ScVal.Shape
import SmartWallet.Signer.Basic
import SmartWallet.Signer.Limits
import SmartWallet.Text.Base64
import SmartWallet.Text.KeyText
import SmartWallet.Text.Strkey
import SmartWallet.Transaction.Account
import SmartWallet.Transaction.Asset
import SmartWallet.Transaction.Claim
import SmartWallet.Transaction.Envelope
import SmartWallet.Transaction.HostFunction
import SmartWallet.Transaction.LedgerKey
import SmartWallet.Transaction.Normalized
import SmartWallet.Transaction.Operation
import SmartWallet.Wallet.Command
import SmartWallet.Wallet.Config
import SmartWallet.Wallet.Environment
import SmartWallet.Wallet.Error
import SmartWallet.Wallet.Ledger
import SmartWallet.Wallet.Services
import SmartWallet.Wallet.Session
import SmartWallet.WebAuthn.Assertion
import SmartWallet.WebAuthn.Authenticator
import SmartWallet.WebAuthn.AuthenticatorData
import SmartWallet.WebAuthn.Ceremony
import SmartWallet.WebAuthn.ClientData
import SmartWallet.WebAuthn.CredentialKey
import SmartWallet.Xdr.Basic
import SmartWallet.Xdr.Text
