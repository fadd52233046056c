import DocAnnotations.Main
import DocAnnotations.Proofs.Comment.RoundTrip
import DocAnnotations.Proofs.Session
import DocAnnotations.Proofs.Query.Lossless
import DocAnnotations.Proofs.Coercion.Items
import DocAnnotations.Proofs.Comment.Layout
import DocAnnotations.Proofs.Comment.Rescan
import DocAnnotations.Proofs.Project.Chosen
import DocAnnotations.Proofs.Cache.Statistics
import DocAnnotations.Proofs.Extraction.Order
import DocAnnotations.Proofs.Annotations.Locality
import DocAnnotations.Proofs.Extraction.Ordinals
import DocAnnotations.Proofs.Extraction.Anchors
import DocAnnotations.Proofs.Index.Lookup
import DocAnnotations.Proofs.Annotations.Halves
import DocAnnotations.Proofs.Coercion.Maps
import DocAnnotations.Proofs.Coercion.Floats
