import Wedb.AccessControl
import Wedb.AclEdits
import Wedb.ArgumentBuffer
import Wedb.Asking
import Wedb.BeamSearch
import Wedb.BlockingMove
import Wedb.ClusterEpochs
import Wedb.CompactHash
import Wedb.ConfigPayload
import Wedb.CooperativeDispose
import Wedb.ElementConservation
import Wedb.FailureVotes
import Wedb.FastPath
import Wedb.Forgetting
import Wedb.Glob
import Wedb.Handshake
import Wedb.KeyAgreement
import Wedb.ListAtomicity
import Wedb.LocalPlace
import Wedb.MultiGet
import Wedb.NamespaceAllocator
import Wedb.NamespaceIsolation
import Wedb.Numkeys
import Wedb.ObjectScan
import Wedb.ObserverRace
import Wedb.PagedRefinement
import Wedb.PartialResync
import Wedb.PinnedLog
import Wedb.Pipelining
import Wedb.PlainParser
import Wedb.QueuedCodec
import Wedb.Quiescence
import Wedb.ReceiveBuffer
import Wedb.ReplyFrames
import Wedb.RequestFrames
import Wedb.RuleLine
import Wedb.ScanIteration
import Wedb.ScriptArithmetic
import Wedb.SignalHints
import Wedb.StreamIndependence
import Wedb.StringAtomicity
import Wedb.StringTransparency
import Wedb.Transaction
import Wedb.TransactionCalls
import Wedb.TransactionRouting
import Wedb.Unauthenticated
import Wedb.Wakeups
import Wedb.WatchConflict
import Wedb.Wildcard
import Wedb.WorkerRemoval
