import Crossnet.Main
import Crossnet.Relayer.Journal
import Crossnet.Proofs.Amount.Shares
import Crossnet.Proofs.Binding.Overlap
import Crossnet.Proofs.Binding.Resolution
import Crossnet.Proofs.Identity.Preimages
import Crossnet.Proofs.Inspector
import Crossnet.Proofs.Interpreter.Accounting
import Crossnet.Proofs.Ledger.Accounts
import Crossnet.Proofs.Owners.Changes
import Crossnet.Proofs.Program.Listing
import Crossnet.Proofs.Program.Truncation
import Crossnet.Proofs.Registry.Consistency
import Crossnet.Proofs.Relayer.Accounting
import Crossnet.Proofs.Relayer.Inflation
import Crossnet.Proofs.Relayer.Interleaving
import Crossnet.Proofs.Router.Authority
import Crossnet.Proofs.Router.Chronicle
import Crossnet.Proofs.Router.Commute
import Crossnet.Proofs.Router.Contents
import Crossnet.Proofs.Router.Creation
import Crossnet.Proofs.Router.Solvency
import Crossnet.Proofs.Router.Validated
import Crossnet.Proofs.Storage.Snapshots
import Crossnet.Proofs.Wire.RoundTrip
