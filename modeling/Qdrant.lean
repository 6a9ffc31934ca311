import Qdrant.Lib.OrdMap
import Qdrant.Lib.Gaps
import Qdrant.Lib.Count
import Qdrant.Lib.TopK
import Qdrant.Json
import Qdrant.Filter
import Qdrant.Index.QueryEstimator
import Qdrant.Index.Histogram
import Qdrant.Index.NumericIndex
import Qdrant.Lib.BigEndian
import Qdrant.Lib.Binary64
import Qdrant.Index.KeyEncoding
import Qdrant.Index.MapIndex
import Qdrant.Index.GeoIndex
import Qdrant.Index.FieldIndex
import Qdrant.Segment.IdTracker
import Qdrant.Index.Optimizer
import Qdrant.Index.StructPayloadIndex
import Qdrant.Index.VectorSearch
import Qdrant.Segment.Segment
import Qdrant.Lib.StateExcept
import Qdrant.Segment.Proxy
import Qdrant.Collection.Operations
import Qdrant.Collection.SegmentHolder
import Qdrant.Collection.Updater
import Qdrant.Segment.SegmentBuilder
import Qdrant.Segment.SegmentBuilderMerge
import Qdrant.Collection.SegmentOptimizer
import Qdrant.Collection.Recovery
import Qdrant.Storage.TableOfContent
import Qdrant.Lib.Wal
import Qdrant.Storage.ConsensusWal
import Qdrant.Shards.ReplicaSet
import Qdrant.Lib.Grouping
import Qdrant.Collection.SplitByShard
import Qdrant.Shards.ReadConsistency
import Qdrant.Shards.Transfer
import Qdrant.Collection.Scroll
import Qdrant.Shards.ForwardProxy
import Qdrant.Collection.SegmentSearch
import Qdrant.Collection.SegmentsSearcher
import Qdrant.Index.HistogramInvariant
import Qdrant.Spaces.Tools
import Qdrant.Hnsw.EntryPoints
import Qdrant.Lib.Mealy
import Qdrant.Hnsw.VisitedPool
import Qdrant.Hnsw.GraphLayersBuilder
import Qdrant.Hnsw.LinkNewPoint
import Qdrant.Lib.LittleEndian
import Qdrant.Hnsw.GraphLinks
import Qdrant.Storage.ShardDistribution
import Qdrant.Collection.Deduplication
import Qdrant.Shards.Resolve
import Qdrant.Lib.Postings
import Qdrant.Index.IndexRuns
import Qdrant.Index.NumericIndexRuns
import Qdrant.Lib.Select
import Qdrant.Collection.Optimizers
import Qdrant.Lib.Schedule
import Qdrant.Collection.UpdateHandler
import Qdrant.PayloadUpdates
import Qdrant.Segment.SegmentRuns
