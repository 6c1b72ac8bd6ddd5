import DiskKeys.Main
import DiskKeys.Proofs.Attempt
import DiskKeys.Proofs.Request
import DiskKeys.Proofs.Agent.Handling
import DiskKeys.Proofs.Agent.Acts
import DiskKeys.Proofs.Agent.Run
import DiskKeys.Proofs.Agent.OnceOnly
import DiskKeys.Proofs.Agent.Provenance
import DiskKeys.Proofs.Bytes.LittleEndian
import DiskKeys.Proofs.Bytes.Cursor
import DiskKeys.Proofs.Archive.Name
import DiskKeys.Proofs.Archive.Layout
import DiskKeys.Proofs.Archive.RoundTrip
import DiskKeys.Proofs.Files.Tree
import DiskKeys.Proofs.Files.Operations
import DiskKeys.Proofs.Notices
import DiskKeys.Proofs.Surroundings
import DiskKeys.Proofs.Agent.NothingLost
import DiskKeys.Proofs.KeyBlob.RoundTrip
import DiskKeys.Proofs.Archive.Format
import DiskKeys.Proofs.Archive.Unread
import DiskKeys.Proofs.Agent.Overflow
import DiskKeys.Proofs.Files.Alike
import DiskKeys.Proofs.Agent.Secrecy
import DiskKeys.Proofs.Agent.Noninterference
import DiskKeys.Proofs.Agent.StartUp
import DiskKeys.Proofs.KeyBlob.NormalForm
import DiskKeys.Proofs.Files.Directories
import DiskKeys.Proofs.Files.Secret
import DiskKeys.Proofs.Command.Split
import DiskKeys.Proofs.Agent.Delivery
import DiskKeys.Proofs.Files.Inside
import DiskKeys.Proofs.Text.Utf8
import DiskKeys.Proofs.Command.Extract
import DiskKeys.Proofs.Command.Pack
import DiskKeys.Proofs.Files.Rewrite
import DiskKeys.Proofs.Command.Combine
import DiskKeys.Proofs.Agent.Independence
import DiskKeys.Proofs.Archive.Repack
import DiskKeys.Proofs.Request.Grammar
import DiskKeys.Proofs.Files.Lockstep
import DiskKeys.Proofs.Command.Secrecy
import DiskKeys.Proofs.Text.LineEnds
import DiskKeys.Proofs.Request.Relayout
import DiskKeys.Proofs.Text.Decimal
import DiskKeys.Proofs.Request.Numbers
import DiskKeys.Proofs.Agent.Results
import DiskKeys.Proofs.Text.ByteOrder
import DiskKeys.Proofs.Agent.Rescan
import DiskKeys.Proofs.Text.Utf16
import DiskKeys.Proofs.Archive.Placement
import DiskKeys.Proofs.Archive.Prefix
import DiskKeys.Proofs.Archive.Visits
import DiskKeys.Proofs.Agent.Batches
import DiskKeys.Proofs.Bytes.Digest
import DiskKeys.Proofs.Bytes.Script
import DiskKeys.Proofs.Bytes.RoundTrip
import DiskKeys.Proofs.KeyBlob.FirstFault
import DiskKeys.Proofs.Command.Output
import DiskKeys.Proofs.Command.Atomic
import DiskKeys.Proofs.Command.Listing
