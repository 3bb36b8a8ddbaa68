import Minirel.PageInvariant
import Minirel.FreeList
import Minirel.BufPart3Coherence
import Minirel.BufFrames
import Minirel.BufStage6Coherence
import Minirel.PoolSimulation
import Minirel.HeapSessions
import Minirel.Stage4Reopening
import Minirel.QueryPaths
import Minirel.QueryEnds
import Minirel.Aliases
import Minirel.PartialWork
import Minirel.Sort
import Minirel.CatalogHistory
import Minirel.IntegerOrder
import Minirel.InsertLimits
import Minirel.ScanReplay
import Minirel.HeapClients
import Minirel.HeapChain
import Minirel.OpenProtocol
import Minirel.JoinTypes
import Minirel.Part3Index
import Minirel.LostPages
import Minirel.InsertLists
import Minirel.CreateFailures
import Minirel.CloseComplete
import Minirel.FreshPages
import Minirel.RunMerge
import Minirel.SortMerge
import Minirel.SortMarks
import Minirel.Partition
import Minirel.JoinHT
import Minirel.ParseLimits
import Minirel.NameLimits
import Minirel.PageIteration
import Minirel.BufHash
import Minirel.QuotedStrings
import Minirel.ColumnTypes
import Minirel.JoinNames
import Minirel.UserKeys
import Minirel.CatalogRuns
import Minirel.TemporaryResults
import Minirel.ParseLoop
