import Quiczilla.Foundation.Runs
import Quiczilla.Foundation.BigEndian
import Quiczilla.Types
import Quiczilla.ControlStream
import Quiczilla.ControlFraming
import Quiczilla.CandidateRace
import Quiczilla.SessionAgreement
import Quiczilla.Foundation.UnixPath
import Quiczilla.Foundation.FileStore
import Quiczilla.Foundation.Sha256
import Quiczilla.PeerState
import Quiczilla.Coordination
import Quiczilla.FileSendTask
import Quiczilla.FileReceiveTask
import Quiczilla.Peer
import Quiczilla.SendSide
import Quiczilla.ReceiveSide
import Quiczilla.ReceiveJobs
import Quiczilla.OfferSlots
import Quiczilla.WorkerLoop
import Quiczilla.Verification
import Quiczilla.Containment
import Quiczilla.ConflictRefusal
import Quiczilla.StagedCommit
import Quiczilla.StagedResume
import Quiczilla.RetainedFiles
import Quiczilla.RepeatedResume
import Quiczilla.Handshake
import Quiczilla.Link
import Quiczilla.LinkRoles
import Quiczilla.QuicStream
import Quiczilla.StreamReads
import Quiczilla.Pipe
import Quiczilla.PipeCompletion
import Quiczilla.Foundation.Text
import Quiczilla.Foundation.Sha1
import Quiczilla.Foundation.PlatformPath
import Quiczilla.RelativePath
import Quiczilla.Foundation.LinkTree
import Quiczilla.DirectoryFrames
import Quiczilla.DirectorySend
import Quiczilla.DirectoryEncoding
import Quiczilla.DirectoryWalk
import Quiczilla.DirectoryReceive
import Quiczilla.DirectoryJail
import Quiczilla.DirectoryUpdates
import Quiczilla.DirectoryApply
import Quiczilla.DirectoryPacks
import Quiczilla.Thumbprints
import Quiczilla.ThumbprintForms
import Quiczilla.Authorization
import Quiczilla.ConcurrentReceives
import Quiczilla.Foundation.Shell
import Quiczilla.Foundation.ShellInverse
import Quiczilla.Foundation.CommandLine
import Quiczilla.WorkerArguments
import Quiczilla.SshFallback
import Quiczilla.WorkerCommand
import Quiczilla.FallbackVerification
import Quiczilla.PunchTarget
import Quiczilla.Foundation.SortedCut
import Quiczilla.Foundation.NextFit
import Quiczilla.CachePruning
import Quiczilla.BundleCommit
import Quiczilla.WorkerBanner
import Quiczilla.Stun
import Quiczilla.SocketText
import Quiczilla.CliArguments
import Quiczilla.ScannerAgreement
import Quiczilla.SendWindow
import Quiczilla.FlushDelivery
import Quiczilla.StreamWakers
import Quiczilla.DirectoryAtomicity
import Quiczilla.DirectoryStaging
import Quiczilla.AnnouncedSize
import Quiczilla.TransferProgress
import Quiczilla.SendProgress
import Quiczilla.ReceiveProgress
import Quiczilla.Foundation.MirroredValue
import Quiczilla.Negotiation
import Quiczilla.LinkHandshake
import Quiczilla.OfferBinding
import Quiczilla.OfferDelivery
import Quiczilla.OfferCompletion
import Quiczilla.PauseAgreement
import Quiczilla.TerminalStatus
import Quiczilla.ErrorClasses
import Quiczilla.EphemeralIdentity
import Quiczilla.PersistentIdentity
import Quiczilla.Foundation.JsonText
import Quiczilla.ControlMessages
import Quiczilla.ControlDelivery
import Quiczilla.SingleExchange
import Quiczilla.ExchangeCourse
import Quiczilla.ExchangePhases
import Quiczilla.Reconstruction
import Quiczilla.ExchangeDigests
import Quiczilla.ColdResume
import Quiczilla.KeptDestination
import Quiczilla.DirectoryMirror
import Quiczilla.DirectoryAck
import Quiczilla.DirectoryArrival
import Quiczilla.DirectoryWriting
import Quiczilla.DirectorySession
import Quiczilla.PeerEvents
import Quiczilla.ExchangeFlags
import Quiczilla.UpheldExchange
import Quiczilla.FileTransfer
import Quiczilla.FileDelivery
import Quiczilla.FileRefusal
import Quiczilla.FilledReceive
import Quiczilla.InterruptedExchanges
import Quiczilla.MixedResume
import Quiczilla.KeptFront
import Quiczilla.Foundation.Potential
import Quiczilla.PeerEffort
import Quiczilla.ExchangeEffort
import Quiczilla.LivelyExchange
import Quiczilla.ExchangeOutcome
import Quiczilla.TruthfulHashes
import Quiczilla.ExchangeCompletion
