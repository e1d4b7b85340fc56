import HostBoundary.Session.Basic
import HostBoundary.Stored.Records
import HostBoundary.Json.Reader
import HostBoundary.Proofs.ReceiptError
import HostBoundary.Proofs.Runs
import HostBoundary.Proofs.Transfer
import HostBoundary.Proofs.Encodings
import HostBoundary.Proofs.FlatFields
import HostBoundary.Proofs.DraftText
import HostBoundary.Proofs.Builders
import HostBoundary.Proofs.Outputs
import HostBoundary.Proofs.Lookups
import HostBoundary.Proofs.Base64Texts
import HostBoundary.Proofs.Labels
import HostBoundary.Proofs.TreeScan
import HostBoundary.Proofs.DraftScan
import HostBoundary.Proofs.Batches
import HostBoundary.Proofs.Numbering
import HostBoundary.Proofs.FlatReading
import HostBoundary.Proofs.StoredForms
import HostBoundary.Proofs.Votes
import HostBoundary.Proofs.Completion
import HostBoundary.Proofs.HexTexts
import HostBoundary.Proofs.ScanSafety
import HostBoundary.Proofs.AbsentArguments
import HostBoundary.Proofs.Outbound
import HostBoundary.Proofs.ReceiptTrim
import HostBoundary.Proofs.Descriptions
import HostBoundary.Proofs.Fallbacks
import HostBoundary.Proofs.ObjectScan
import HostBoundary.Proofs.FlatReaders
import HostBoundary.Proofs.Base64Refusals
import HostBoundary.Proofs.Codecs
import HostBoundary.Proofs.BatchReading
import HostBoundary.Proofs.ContentTags
import HostBoundary.Proofs.Amounts
import HostBoundary.Proofs.AddressTexts
import HostBoundary.Proofs.Evidence
import HostBoundary.Proofs.Occurrences
import HostBoundary.Proofs.ResourceTexts
import HostBoundary.Proofs.Abandonment
import HostBoundary.Proofs.Budgets
