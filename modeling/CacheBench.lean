import CacheBench.Bitmap
import CacheBench.FirstMatch
import CacheBench.ChainedTable
import CacheBench.CString
import CacheBench.Execution
import CacheBench.Lockstep
import CacheBench.RequestReply
import CacheBench.EvictingMap
import CacheBench.PointerChain
import CacheBench.SeparationHeap
import CacheBench.HeapProgram
import CacheBench.LinkedList
import CacheBench.Slab
import CacheBench.ListStore
import CacheBench.SlabManager
import CacheBench.Cache
import CacheBench.CacheHeap
import CacheBench.HeapLists
import CacheBench.RequestParser
import CacheBench.RequestScan
import CacheBench.Server
import CacheBench.Client
import CacheBench.Workload
import CacheBench.SlabBits
import CacheBench.SlabClass
import CacheBench.SlabAllocator
import CacheBench.SlabSearch
import CacheBench.HeapSlabs
import CacheBench.HeapCache
import CacheBench.HeapServer
import CacheBench.SlabShares
import CacheBench.StatusBounds
import CacheBench.WorkingSet
import CacheBench.CachePeaks
import CacheBench.ServerLifecycle
import CacheBench.SlabOperations
import CacheBench.SlabTraffic
import CacheBench.SlabGrants
import CacheBench.CacheTable
import CacheBench.CacheRun
import CacheBench.CacheEviction
import CacheBench.CacheSpace
import CacheBench.CacheSet
import CacheBench.CacheRefinement
import CacheBench.SlotOwnership
import CacheBench.StatusAccess
import CacheBench.HasherIndependence
import CacheBench.CacheSetLimits
import CacheBench.CacheCounts
import CacheBench.CacheSetFailure
import CacheBench.CacheGrowth
import CacheBench.ClassAgreement
import CacheBench.ResizeKeys
import CacheBench.GetAssertion
import CacheBench.EvictionOrder
import CacheBench.ServerReplies
import CacheBench.ReplyFormats
import CacheBench.ReplyBody
import CacheBench.ServerContract
import CacheBench.ServerRun
import CacheBench.ServerRequests
import CacheBench.RequestMeaning
import CacheBench.ClientRequests
import CacheBench.UnansweredRequests
import CacheBench.WorkloadMessages
import CacheBench.WorkloadRuns
import CacheBench.WorkloadAnswers
import CacheBench.RemoteCalls
import CacheBench.CommandLine
