import Roman.Comparison
import Roman.Main
import Roman.Proofs.Scanning
import Roman.Proofs.Canonical
import Roman.Proofs.Handling
import Roman.Proofs.Session
import Roman.Proofs.StoreInvariant
import Roman.Proofs.ReadBack
import Roman.Proofs.Sequencing
import Roman.Proofs.Isolation
import Roman.Proofs.LastWrite
import Roman.Proofs.Range
import Roman.Proofs.Acceptance
import Roman.Proofs.OperatorTable
import Roman.Proofs.Substitution
import Roman.Proofs.ErrorSurface
import Roman.Proofs.FloorDivision
import Roman.Proofs.Overflow
import Roman.Proofs.Trimming
import Roman.Proofs.FrontEnds
import Roman.Proofs.Diagnosis
import Roman.Proofs.WordLocality
import Roman.Proofs.Rendering
import Roman.Proofs.RoundTrips
import Roman.Proofs.Resolution
import Roman.Proofs.Interchange
import Roman.Proofs.Independence
import Roman.Proofs.PrintedStore
import Roman.Proofs.Parsing
import Roman.Proofs.Respacing
import Roman.Proofs.Agreement
import Roman.Proofs.Drawing
import Roman.Proofs.Journal
