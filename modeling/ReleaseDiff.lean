import ReleaseDiff.Classification
import ReleaseDiff.Config.Toml
import ReleaseDiff.Entity.Collection
import ReleaseDiff.Json.Document
import ReleaseDiff.Log.Capture
import ReleaseDiff.Proofs.AnnotationFindings
import ReleaseDiff.Proofs.Arrangement
import ReleaseDiff.Proofs.Assembly
import ReleaseDiff.Proofs.Composition
import ReleaseDiff.Proofs.DataFindings
import ReleaseDiff.Proofs.DeclarationOrder
import ReleaseDiff.Proofs.Decomposition
import ReleaseDiff.Proofs.Encoding
import ReleaseDiff.Proofs.Exchange
import ReleaseDiff.Proofs.FieldFindings
import ReleaseDiff.Proofs.FirstPlaces
import ReleaseDiff.Proofs.Grouping
import ReleaseDiff.Proofs.Lines
import ReleaseDiff.Proofs.Locations
import ReleaseDiff.Proofs.Logging
import ReleaseDiff.Proofs.Monotonicity
import ReleaseDiff.Proofs.Partition
import ReleaseDiff.Proofs.Patch
import ReleaseDiff.Proofs.Scheduling
import ReleaseDiff.Proofs.Settings
import ReleaseDiff.Proofs.Verdict
import ReleaseDiff.Report.Text
