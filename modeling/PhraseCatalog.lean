import PhraseCatalog.Main
import PhraseCatalog.Proofs.Model.Recovery
import PhraseCatalog.Proofs.Store.Ledger
import PhraseCatalog.Proofs.Run.Repeat
import PhraseCatalog.Proofs.Run.Incremental
import PhraseCatalog.Proofs.Run.Interrupted
import PhraseCatalog.Proofs.Run.Agreement
import PhraseCatalog.Proofs.Run.Completion
import PhraseCatalog.Proofs.Marker.Call
import PhraseCatalog.Proofs.Marker.Placed
import PhraseCatalog.Proofs.Marker.Nested
import PhraseCatalog.Proofs.Marker.Mention
import PhraseCatalog.Proofs.Marker.Leftmost
import PhraseCatalog.Proofs.Scan.Listing
import PhraseCatalog.Proofs.Text.Utf8
import PhraseCatalog.Proofs.Emit.Rescan
import PhraseCatalog.Proofs.Emit.Decoding
import PhraseCatalog.Proofs.Emit.Numbering
import PhraseCatalog.Proofs.Run.OwnRows
import PhraseCatalog.Proofs.Run.Accepted
import PhraseCatalog.Proofs.Emit.Properties
import PhraseCatalog.Proofs.CommandLine.Credential
import PhraseCatalog.Proofs.Run.Requests
import PhraseCatalog.Proofs.Scan.Reading
import PhraseCatalog.Proofs.Scan.LineEnds
import PhraseCatalog.Proofs.Marker.Callee
import PhraseCatalog.Proofs.Marker.Registration
import PhraseCatalog.Proofs.Language.CodeLists
import PhraseCatalog.Proofs.CommandLine.Choice
