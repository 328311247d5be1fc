import AstraFeed.Lib.WordBits
import AstraFeed.PriceBitmap
import AstraFeed.Proofs.PriceBitmap
import AstraFeed.MutationResult
import AstraFeed.PriceLevelStore
import AstraFeed.OrderTable
import AstraFeed.OrderBook
import AstraFeed.Lib.Bounded
import AstraFeed.CheckedStore
import AstraFeed.StoreInvariant
import AstraFeed.Proofs.StoreSide
import AstraFeed.Proofs.StoreFrame
import AstraFeed.Proofs.StoreMutation
import AstraFeed.Proofs.StorePlan
import AstraFeed.Proofs.PriceLevelStore
import AstraFeed.StoreRun
import AstraFeed.Proofs.StoreRun
import AstraFeed.TableInvariant
import AstraFeed.Proofs.OrderTable
import AstraFeed.OrderTableRun
import AstraFeed.Proofs.OrderTableRun
import AstraFeed.BookManager
import AstraFeed.Lib.PointUpdate
import AstraFeed.BookModel
import AstraFeed.Proofs.StoreLevels
import AstraFeed.BookRefinement
import AstraFeed.Proofs.BookModel
import AstraFeed.Proofs.OrderBook
import AstraFeed.Proofs.OrderReplace
import AstraFeed.Proofs.StoreRead
import AstraFeed.Proofs.BookCounts
import AstraFeed.Proofs.BookManager
import AstraFeed.Proofs.BookRun
import AstraFeed.StockDirectory
import AstraFeed.ItchParser
import AstraFeed.FeedRun
import AstraFeed.ParserRun
import AstraFeed.Lib.Probe
import AstraFeed.StockDirectoryRun
import AstraFeed.Proofs.StockDirectory
import AstraFeed.Proofs.ItchParser
import AstraFeed.Proofs.FeedRun
import AstraFeed.GapBuffer
import AstraFeed.Proofs.GapBuffer
import AstraFeed.GapBufferRun
import AstraFeed.Proofs.GapBufferRun
import AstraFeed.Rollback
import AstraFeed.BookCapacityProfile
import AstraFeed.BookDirectoryAudit
import AstraFeed.MoldUdpDecoder
import AstraFeed.DecoderRun
import AstraFeed.CheckedReads
import AstraFeed.CheckedDecoder
import AstraFeed.DecoderInvariant
import AstraFeed.Lib.Sweep
import AstraFeed.GapRecovery
import AstraFeed.Lib.BigEndian
import AstraFeed.ItchMoldUdpSource
import AstraFeed.Lib.RoundUp
import AstraFeed.MappedArray
import AstraFeed.MarketDataEngine
import AstraFeed.Proofs.InternalFailures
import AstraFeed.Proofs.PageUse
import AstraFeed.Proofs.BookCapacityProfile
import AstraFeed.Proofs.MoldUdpDecoder
import AstraFeed.Proofs.DecoderStep
import AstraFeed.Proofs.DecoderMerge
import AstraFeed.Proofs.DecoderHealth
import AstraFeed.Proofs.DecoderRun
import AstraFeed.Proofs.GapRecovery
import AstraFeed.Proofs.PreparedBooks
import AstraFeed.Proofs.Lifecycle
import AstraFeed.Proofs.InOrderPacket
import AstraFeed.Proofs.EndOfSession
import AstraFeed.Proofs.Framing
import AstraFeed.Proofs.CheckedReads
import AstraFeed.Proofs.CheckedDecoder
import AstraFeed.Proofs.ItchMoldUdpSource
import AstraFeed.Proofs.MappedArray
import AstraFeed.Proofs.MarketDataEngine
import AstraFeed.Proofs.SourceRoundTrip
import AstraFeed.Proofs.StoreDepth
import AstraFeed.Proofs.StoreMove
import AstraFeed.Proofs.CheckedStore
import AstraFeed.Proofs.DirectoryRefresh
import AstraFeed.Proofs.DpdkReceiver
import AstraFeed.Proofs.Sha256
import AstraFeed.CapacityDerivation
import AstraFeed.CapacityManifest
import AstraFeed.Lib.Ascii
import AstraFeed.Lib.Decimal
import AstraFeed.Lib.Terminated
import AstraFeed.Proofs.CapacityDerivation
import AstraFeed.Proofs.CapacityManifest
import AstraFeed.Lib.Precision
import AstraFeed.LatencyRecorder
import AstraFeed.Lib.OrderStatistic
import AstraFeed.Proofs.LatencyRecorder
import AstraFeed.Lib.GreedyCut
import AstraFeed.PremarketScan
import AstraFeed.Proofs.PremarketScan
import AstraFeed.PriceBitmapRun
import AstraFeed.Proofs.PriceBitmapRun
import AstraFeed.Lib.Loop
import AstraFeed.DrainRun
import AstraFeed.Proofs.DrainGapBuffer
import AstraFeed.ItchTraceProfile
import AstraFeed.Lib.AssocTotal
import AstraFeed.TraceAgreement
import AstraFeed.Proofs.ItchTraceProfile
import AstraFeed.Proofs.TraceMessage
import AstraFeed.Proofs.TraceAgreement
import AstraFeed.Proofs.TraceFile
import AstraFeed.Proofs.TraceRun
import AstraFeed.ItchMoldUdpSender
import AstraFeed.Proofs.ItchMoldUdpSender
import AstraFeed.FeedSystem
import AstraFeed.Proofs.FeedSystem
import AstraFeed.Proofs.FeedRecovery
import AstraFeed.Proofs.CertifiedDay
import AstraFeed.RedundantUdpSender
import AstraFeed.Proofs.RedundantUdpSender
import AstraFeed.Lib.RunLog
import AstraFeed.Lib.Interleaves
import AstraFeed.UdpBatchReceiver
import AstraFeed.FeedPipeline
import AstraFeed.Proofs.UdpBatchReceiver
import AstraFeed.Proofs.FeedPipeline
import AstraFeed.Lib.Fairness
import AstraFeed.Proofs.HandoffLiveness
