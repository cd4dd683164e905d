import ReadPool.Session.Load
import ReadPool.Session.Parts
import ReadPool.Proofs.Uniqueness
import ReadPool.Proofs.Correspondence
import ReadPool.Proofs.Refinement
import ReadPool.Proofs.Interference
import ReadPool.Proofs.Convergence
import ReadPool.Proofs.Sequential
import ReadPool.Proofs.Drains
import ReadPool.Proofs.CloseErrors
import ReadPool.Proofs.Reading
import ReadPool.Proofs.IdentitiesApart
import ReadPool.Proofs.PoolsApart
import ReadPool.Proofs.AnyState
import ReadPool.Proofs.Spellings
import ReadPool.Proofs.Account
import ReadPool.Proofs.Respelling
import ReadPool.Proofs.Consumption
import ReadPool.Proofs.ReadOut
import ReadPool.Proofs.Nesting
import ReadPool.Proofs.DrainAccount
import ReadPool.Proofs.DrainLoop
import ReadPool.Proofs.Quotation
import ReadPool.Proofs.CanonicalPath
import ReadPool.Proofs.ReadRights
import ReadPool.Proofs.OpenShared
import ReadPool.Proofs.SharedFiles
import ReadPool.Proofs.Bids
import ReadPool.Proofs.Lifecycle
import ReadPool.Proofs.Layout
