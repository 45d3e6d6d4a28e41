import NanoEmbed.Basic
import NanoEmbed.Lib.Fallible
import NanoEmbed.Lib.Interval
import NanoEmbed.Lib.Transition
import NanoEmbed.Lib.Bytes
import NanoEmbed.Lib.BinarySearch
import NanoEmbed.Lib.PriorityQueue
import NanoEmbed.Lib.Scatter
import NanoEmbed.Streaming.Ranges
import NanoEmbed.Streaming.PageCover
import NanoEmbed.Streaming.Residency
import NanoEmbed.Streaming.History
import NanoEmbed.Streaming.ResidencyRuns
import NanoEmbed.Streaming.LeaseAccounting
import NanoEmbed.Streaming.AcquireRollback
import NanoEmbed.Streaming.GroupRefinement
import NanoEmbed.Tokenizer.Sha256
import NanoEmbed.Tokenizer.DiskMergeIndex
import NanoEmbed.Tokenizer.CacheLookup
import NanoEmbed.Lib.SecureHash
import NanoEmbed.Lib.PrefixFree
import NanoEmbed.Tokenizer.Sha256Standard
import NanoEmbed.Tokenizer.MergeTable
import NanoEmbed.Tokenizer.CacheImage
import NanoEmbed.Tokenizer.SpmBpe
import NanoEmbed.Tokenizer.BpeReference
import NanoEmbed.Tokenizer.MergeCache
import NanoEmbed.Batch.Plan
import NanoEmbed.Batch.Lanes
import NanoEmbed.Batch.EmbedBatch
import NanoEmbed.Gguf
import NanoEmbed.Tokenizer.SpmEncode
import NanoEmbed.Tokenizer.DamagedCache
import NanoEmbed.Lib.Concurrent
import NanoEmbed.Tokenizer.CacheFiles
import NanoEmbed.Tokenizer.CacheProtocol
import NanoEmbed.Tokenizer.ColdStart
import NanoEmbed.Tokenizer.CacheIdentity
import NanoEmbed.Tokenizer.CreateCacheFrame
import NanoEmbed.Api.NewContext
import NanoEmbed.Api.EmbedBatch
import NanoEmbed.Api.ModeLock
import NanoEmbed.Lib.Effects
import NanoEmbed.Streaming.StreamBatch
import NanoEmbed.Streaming.BatchLeases
import NanoEmbed.Streaming.ContextMemory
import NanoEmbed.Arch.Scan
import NanoEmbed.Arch.StreamingPlans
import NanoEmbed.Streaming.Construct
import NanoEmbed.Lib.Recording
import NanoEmbed.Ggml
import NanoEmbed.Forward.Layers
import NanoEmbed.Forward.GqaAttention
import NanoEmbed.Forward.Pool
import NanoEmbed.Streaming.TokenRows
import NanoEmbed.Batch.BatchViews
import NanoEmbed.Lib.Runs
import NanoEmbed.Streaming.PartitionRuns
import NanoEmbed.Tokenizer.WordPiece
import NanoEmbed.Tokenizer.Registry
import NanoEmbed.Tokenizer.Lossless
import NanoEmbed.Batch.EntryPoints
import NanoEmbed.Streaming.Classification
import NanoEmbed.Arch.Graphs
import NanoEmbed.Arch.GraphIndices
import NanoEmbed.Streaming.Constructed
import NanoEmbed.Batch.EagerGraph
import NanoEmbed.Streaming.StreamedLayers
import NanoEmbed.Streaming.StreamedGraph
import NanoEmbed.Batch.LoadedIds
import NanoEmbed.Batch.IndexRanges
import NanoEmbed.Tokenizer.Sha256Standard
import NanoEmbed.Tokenizer.CacheIdentity
import NanoEmbed.Lib.Segment
import NanoEmbed.Tokenizer.BasicTokenize
import NanoEmbed.Tokenizer.WordPieceGreedy
import NanoEmbed.Lib.Layout
import NanoEmbed.Streaming.MappedWeights
import NanoEmbed.Lib.Utf8
import NanoEmbed.Bench.CorpusSelection
import NanoEmbed.Lib.Strides
import NanoEmbed.Forward.Tiling
import NanoEmbed.Streaming.SerialPeak
import NanoEmbed.Lib.Growth
import NanoEmbed.Forward.GraphSize
import NanoEmbed.Batch.EagerCapacity
import NanoEmbed.Streaming.GraphCapacity
import NanoEmbed.Lib.Rows
import NanoEmbed.Lib.Cells
import NanoEmbed.Forward.Values
import NanoEmbed.Forward.Reference
import NanoEmbed.Forward.RowMaps
import NanoEmbed.Forward.AttentionRows
import NanoEmbed.Forward.SentenceRows
import NanoEmbed.Forward.PoolRows
import NanoEmbed.Forward.RealArith
import NanoEmbed.Arch.GraphRows
import NanoEmbed.Batch.BatchRows
import NanoEmbed.Streaming.StreamedValues
import NanoEmbed.Streaming.ReferenceRows
import NanoEmbed.Streaming.EagerRuns
import NanoEmbed.Streaming.ReferenceCalls
import NanoEmbed.Streaming.CallCapacity
import NanoEmbed.Lib.Ownership
import NanoEmbed.Streaming.OpenModel
import NanoEmbed.Streaming.StoreLife
import NanoEmbed.Streaming.ModelLife
import NanoEmbed.Api.FirstContext
