import BlobLifecycle.Deletion
import BlobLifecycle.Opening
import BlobLifecycle.Proofs.Addressing
import BlobLifecycle.Proofs.Confinement
import BlobLifecycle.Proofs.Contest
import BlobLifecycle.Proofs.Coverage
import BlobLifecycle.Proofs.Discard
import BlobLifecycle.Proofs.ExactWrites
import BlobLifecycle.Proofs.FaceValue
import BlobLifecycle.Proofs.Fate
import BlobLifecycle.Proofs.FieldReads
import BlobLifecycle.Proofs.Finality
import BlobLifecycle.Proofs.Grace
import BlobLifecycle.Proofs.Grants
import BlobLifecycle.Proofs.Listing
import BlobLifecycle.Proofs.Misnaming
import BlobLifecycle.Proofs.Namesakes
import BlobLifecycle.Proofs.Orphans
import BlobLifecycle.Proofs.RecordCommits
import BlobLifecycle.Proofs.RecordEdits
import BlobLifecycle.Proofs.RoundTrip
import BlobLifecycle.Proofs.Settlement
import BlobLifecycle.Proofs.SingleUse
import BlobLifecycle.Proofs.Survival
import BlobLifecycle.Proofs.SweepSafety
import BlobLifecycle.Proofs.WellFormed
import BlobLifecycle.Reading
import BlobLifecycle.Records
import BlobLifecycle.Reservation
import BlobLifecycle.Scheduler
import BlobLifecycle.Settings.Document
import BlobLifecycle.Settings.Load
import BlobLifecycle.Vault
import BlobLifecycle.Writing
