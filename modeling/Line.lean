import Line.Lib.Checked
import Line.Lib.MapTotal
import Line.Lib.History
import Line.Lib.Register
import Line.Contract.Symbolic
import Line.Proof.Privacy
import Line.Proof.Payouts
import Line.Proof.Allocation
import Line.Proof.Arithmetic
import Line.Engine.Refinement
import Line.Engine.Returns
import Line.Engine.Fees
import Line.Engine.Withdrawable
import Line.Journal.Consistency
import Line.Console.Restored
import Line.Console.Packages
import Line.Checkout.Discipline
import Line.Native.Once
import Line.Merchants.Once
import Line.Lib.Durable
import Line.Finance.Chain
import Line.Vault.Canonical
import Line.Signer.Repeated
import Line.Signer.Budget
import Line.Organization.Kept
import Line.Checkout.Checkpoints
import Line.Vault.Register
import Line.Engine.References
import Line.Signer.Challenge
import Line.Lib.Turns
import Line.Journal.Exclusive
import Line.Journal.Fingerprint
import Line.Journal.Room
import Line.Client.Claims
import Line.Client.Backups
