import TokenDump.Main
import TokenDump.Session.Step
import TokenDump.Proofs.Agreement
import TokenDump.Proofs.LongestMatch
import TokenDump.Proofs.Scanning
import TokenDump.Proofs.Decoding
import TokenDump.Proofs.Dumping
import TokenDump.Proofs.Reading
import TokenDump.Proofs.Conversing
import TokenDump.Proofs.Flagging
import TokenDump.Proofs.Observing
import TokenDump.Proofs.Noninterference
import TokenDump.Proofs.Truncating
import TokenDump.Proofs.Tracing
import TokenDump.Proofs.Exiting
import TokenDump.Proofs.Joining
import TokenDump.Proofs.Spelling
import TokenDump.Proofs.Streaming
import TokenDump.Proofs.Stopping
import TokenDump.Proofs.Recounting
import TokenDump.Proofs.Warning
import TokenDump.Proofs.Deferring
import TokenDump.Proofs.Rereading
import TokenDump.Proofs.Recalling
import TokenDump.Proofs.Isolating
import TokenDump.Proofs.Trimming
