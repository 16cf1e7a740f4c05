import Tablefolk.Deck.Backend
import Tablefolk.Deck.Permutation
import Tablefolk.Deck.Proofs
import Tablefolk.Deck.Shuffle
import Tablefolk.Deck.Statement
import Tablefolk.Deck.StatementCodec
import Tablefolk.Deck.Transcript
import Tablefolk.Deck.Wire
import Tablefolk.Deck.WireCodec
import Tablefolk.Engine.Authoring
import Tablefolk.Engine.DealOpen
import Tablefolk.Engine.RevealCommit
import Tablefolk.Engine.RevealInvariant
import Tablefolk.Engine.RevealLedger
import Tablefolk.Engine.RevealOrder
import Tablefolk.Engine.RevealStep
import Tablefolk.Engine.Setup
import Tablefolk.Engine.SetupAuthoring
import Tablefolk.Engine.SetupInvariant
import Tablefolk.Engine.SetupRecovery
import Tablefolk.Engine.SetupRuns
import Tablefolk.Engine.SetupSecrets
import Tablefolk.Engine.ShuffleLedger
import Tablefolk.Engine.ShuffleReceiver
import Tablefolk.Engine.ShuffleReceiverRuns
import Tablefolk.Engine.ShuffleReplay
import Tablefolk.Engine.TrueDeck
import Tablefolk.Lib.Agree
import Tablefolk.Lib.Checks
import Tablefolk.Lib.Hoare
import Tablefolk.Lib.OrderedMap
import Tablefolk.Lib.Replay
import Tablefolk.Lib.SerialCalls
import Tablefolk.Lib.Trace
import Tablefolk.Protocol.Cbor
import Tablefolk.Protocol.CborBytes
import Tablefolk.Protocol.CborOrder
import Tablefolk.Protocol.Codec
import Tablefolk.Protocol.Envelope
import Tablefolk.Protocol.EnvelopeBytes
import Tablefolk.Protocol.HashInputs
import Tablefolk.Protocol.Hex
import Tablefolk.Rules.Action
import Tablefolk.Rules.Auction
import Tablefolk.Rules.Audit
import Tablefolk.Rules.Cards
import Tablefolk.Rules.Conservation
import Tablefolk.Rules.Hand
import Tablefolk.Rules.HandInvariant
import Tablefolk.Rules.HandStep
import Tablefolk.Rules.Progress
import Tablefolk.Rules.Scoring
import Tablefolk.Sasku.Admission
import Tablefolk.Sasku.AuthoredRound
import Tablefolk.Sasku.Authoring
import Tablefolk.Sasku.Blame
import Tablefolk.Sasku.LiveHistory
import Tablefolk.Sasku.LiveRound
import Tablefolk.Sasku.LiveRoundRuns
import Tablefolk.Sasku.Match
import Tablefolk.Sasku.OpenedDeal
import Tablefolk.Sasku.Progress
import Tablefolk.Sasku.Replicas
import Tablefolk.Sasku.Round
import Tablefolk.Sasku.RoundInbox
import Tablefolk.Sasku.RoundInvariant
import Tablefolk.Sasku.RoundOrder
import Tablefolk.Sasku.RoundOwner
import Tablefolk.Sasku.RoundReceiver
import Tablefolk.Sasku.RoundRecovery
import Tablefolk.Sasku.RoundReplay
import Tablefolk.Sasku.RoundSession
import Tablefolk.Sasku.RoundStep
import Tablefolk.Session.AuthoredHistory
import Tablefolk.Session.BodyCodecs
import Tablefolk.Session.Capture
import Tablefolk.Session.CaptureLimits
import Tablefolk.Session.Chain
import Tablefolk.Session.DurableReceivers
import Tablefolk.Session.Equivocation
import Tablefolk.Session.HistoryBarrier
import Tablefolk.Session.Lobby
import Tablefolk.Session.LobbyHistory
import Tablefolk.Session.LobbyInvariant
import Tablefolk.Session.LobbyRecovery
import Tablefolk.Session.LobbyRestore
import Tablefolk.Session.LobbyRuns
import Tablefolk.Session.PersistentSync
import Tablefolk.Session.Registry
import Tablefolk.Session.Roster
import Tablefolk.Session.SmallGroup
import Tablefolk.Session.Sync
import Tablefolk.Session.SyncApply
import Tablefolk.Session.SyncProgress
import Tablefolk.Session.SyncResponse
import Tablefolk.Session.TranscriptOrder
import Tablefolk.Session.Witness
import Tablefolk.Storage.AuthorRuns
import Tablefolk.Storage.AuthoredLog
import Tablefolk.Storage.SecretStores
import Tablefolk.Storage.SessionStore
import Tablefolk.Transport.Base64Url
import Tablefolk.Transport.Channel
import Tablefolk.Transport.Delivery
import Tablefolk.Transport.Frame
import Tablefolk.Transport.FramedSender
import Tablefolk.Transport.IceCandidates
import Tablefolk.Transport.Mesh
import Tablefolk.Transport.MeshInvariant
import Tablefolk.Transport.MeshRuns
import Tablefolk.Transport.NostrEvents
import Tablefolk.Transport.NostrRelays
import Tablefolk.Transport.Reassembler
