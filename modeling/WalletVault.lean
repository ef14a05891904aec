import WalletVault.Algorithm
import WalletVault.Bytes
import WalletVault.Cipher
import WalletVault.Command
import WalletVault.CommandLine.Grammar
import WalletVault.CommandLine.Read
import WalletVault.Config.Basic
import WalletVault.Config.Toml
import WalletVault.Ed25519
import WalletVault.Files
import WalletVault.Form.Full
import WalletVault.Form.Public
import WalletVault.Hash
import WalletVault.Json.Record
import WalletVault.Json.Scalar
import WalletVault.Json.Value
import WalletVault.Key
import WalletVault.Main
import WalletVault.Mnemonic.Phrase
import WalletVault.Mnemonic.WordList
import WalletVault.Program.Run
import WalletVault.Proofs.Cipher
import WalletVault.Proofs.Command.Failure
import WalletVault.Proofs.Command.NotesKept
import WalletVault.Proofs.Command.OneShot
import WalletVault.Proofs.Command.Withheld
import WalletVault.Proofs.CommandLine.Notes
import WalletVault.Proofs.Fallible
import WalletVault.Proofs.Files
import WalletVault.Proofs.Form.Discretion
import WalletVault.Proofs.Form.Full
import WalletVault.Proofs.Form.Loading
import WalletVault.Proofs.Form.NodeText
import WalletVault.Proofs.Form.Precedence
import WalletVault.Proofs.Form.Public
import WalletVault.Proofs.Form.Reworded
import WalletVault.Proofs.Form.Rewording
import WalletVault.Proofs.Form.RoundTrip
import WalletVault.Proofs.Form.Shapes
import WalletVault.Proofs.Json.Fields
import WalletVault.Proofs.Json.Meaning
import WalletVault.Proofs.Json.Members
import WalletVault.Proofs.Json.Passing
import WalletVault.Proofs.Json.Record
import WalletVault.Proofs.Json.Scalar
import WalletVault.Proofs.Json.Syntax
import WalletVault.Proofs.Json.Token
import WalletVault.Proofs.Json.Yield
import WalletVault.Proofs.KeyForm
import WalletVault.Proofs.Mnemonic.Acceptance
import WalletVault.Proofs.Mnemonic.Phrase
import WalletVault.Proofs.Mnemonic.WordList
import WalletVault.Proofs.Session.Course
import WalletVault.Proofs.Session.Discretion
import WalletVault.Proofs.Session.Failure
import WalletVault.Proofs.Session.Isolation
import WalletVault.Proofs.Session.Ledger
import WalletVault.Proofs.Session.Projection
import WalletVault.Proofs.Session.Recovery
import WalletVault.Proofs.Session.Refinement
import WalletVault.Proofs.Session.Register
import WalletVault.Proofs.Session.Shape
import WalletVault.Proofs.Session.Shared
import WalletVault.Proofs.Store.Beside
import WalletVault.Proofs.Store.Crash
import WalletVault.Proofs.Store.Folder
import WalletVault.Proofs.Store.Interchange
import WalletVault.Proofs.Store.Lasting
import WalletVault.Proofs.Store.Listing
import WalletVault.Proofs.Store.Record
import WalletVault.Proofs.Store.Sealed
import WalletVault.Proofs.Text.Base64
import WalletVault.Proofs.Text.Hex
import WalletVault.Proofs.Text.Order
import WalletVault.Proofs.Text.Utf8
import WalletVault.Proofs.Wallet.Exhaustion
import WalletVault.Proofs.Wallet.FiniteMap
import WalletVault.Proofs.Wallet.History
import WalletVault.Proofs.Wallet.Import
import WalletVault.Proofs.Wallet.Issue
import WalletVault.Proofs.Wallet.KeyRing
import WalletVault.Proofs.Wallet.Legacy
import WalletVault.Proofs.Wallet.Lineage
import WalletVault.Proofs.Wallet.Listing
import WalletVault.Proofs.Wallet.Signing
import WalletVault.Proofs.Wallet.Sound
import WalletVault.Proofs.Wallet.Taint
import WalletVault.Proofs.Wallet.Verification
import WalletVault.Proofs.Wallet.WellFormed
import WalletVault.Session.Basic
import WalletVault.Session.Call
import WalletVault.Store.Basic
import WalletVault.Store.Folder
import WalletVault.Store.Memory
import WalletVault.Text.Encoding
import WalletVault.Text.Quoted
import WalletVault.Wallet.Basic
import WalletVault.Wallet.Fault
import WalletVault.Wallet.KeyRing
import WalletVault.Wallet.Summary
