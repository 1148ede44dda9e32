import NeighborSearch.Json.Form
import NeighborSearch.Blobs
import NeighborSearch.Proofs.Nearest
import NeighborSearch.Proofs.Checks
import NeighborSearch.Proofs.Nesting
import NeighborSearch.Proofs.NotANumber
import NeighborSearch.Proofs.Fitting
import NeighborSearch.Proofs.SelfQueries
import NeighborSearch.Proofs.Batches
import NeighborSearch.Proofs.Shards
import NeighborSearch.Proofs.Configurations
import NeighborSearch.Proofs.StoredMatrices
import NeighborSearch.Proofs.Reordering
import NeighborSearch.Proofs.ReportedTies
import NeighborSearch.Proofs.Interchange
import NeighborSearch.Proofs.OwnPoint
import NeighborSearch.Proofs.DenseForm
import NeighborSearch.Proofs.AnyIndex
import NeighborSearch.Proofs.Symmetry
import NeighborSearch.Proofs.RootDistances
import NeighborSearch.Proofs.FittedData
import NeighborSearch.Proofs.Accesses
import NeighborSearch.Proofs.MetricNames
import NeighborSearch.Proofs.Blobs
import NeighborSearch.Proofs.Events
import NeighborSearch.Proofs.Comparison
import NeighborSearch.Proofs.RowMajor
import NeighborSearch.Proofs.Lossless
