import CostBasis.Book.Command
import CostBasis.Main
import CostBasis.Proofs.Ledger.Accuracy
import CostBasis.Proofs.Ledger.AverageLot
import CostBasis.Proofs.Ledger.Balance
import CostBasis.Proofs.Ledger.Conservation
import CostBasis.Proofs.Ledger.ClosedForm
import CostBasis.Proofs.Ledger.FreshStart
import CostBasis.Proofs.Ledger.Mirror
import CostBasis.Proofs.Ledger.Operations
import CostBasis.Proofs.Ledger.Parts
import CostBasis.Proofs.Ledger.RealizedTotal
import CostBasis.Proofs.Ledger.Reducible
import CostBasis.Proofs.Ledger.Shape
import CostBasis.Proofs.Book.Deliveries
import CostBasis.Proofs.Book.Isolation
import CostBasis.Proofs.Book.Refusals
import CostBasis.Proofs.Book.Reports
import CostBasis.Proofs.Book.Subscriptions
import CostBasis.Proofs.Book.Totals
import CostBasis.Proofs.Replay.Course
import CostBasis.Proofs.Replay.Journal
import CostBasis.Proofs.Replay.Mark
import CostBasis.Proofs.Replay.Pieces
import CostBasis.Proofs.Replay.Report
import CostBasis.Proofs.Replay.Strict
import CostBasis.Proofs.Settings
