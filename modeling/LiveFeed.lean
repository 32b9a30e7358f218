import LiveFeed.Main
import LiveFeed.Proofs.Rank
import LiveFeed.Proofs.Placement
import LiveFeed.Proofs.Mount
import LiveFeed.Proofs.Plans
import LiveFeed.Proofs.Shows
import LiveFeed.Proofs.Mirrored
import LiveFeed.Proofs.MirrorRuns
import LiveFeed.Proofs.RegionOrders
import LiveFeed.Proofs.StableOrder
import LiveFeed.Proofs.Steps
import LiveFeed.Proofs.Views
import LiveFeed.Proofs.Isolation
import LiveFeed.Proofs.Dropped
import LiveFeed.Proofs.Overflow
import LiveFeed.Proofs.Requests
import LiveFeed.Proofs.PostCounts
import LiveFeed.Proofs.FrameLimit
import LiveFeed.Proofs.RoundTrip
import LiveFeed.Proofs.Tracking
import LiveFeed.Proofs.Atomicity
import LiveFeed.Proofs.Interference
import LiveFeed.Proofs.Refusals
import LiveFeed.Proofs.MainView
import LiveFeed.Proofs.Markup
import LiveFeed.Proofs.Decoding
import LiveFeed.Proofs.Moderation
import LiveFeed.Proofs.Statistics
import LiveFeed.Proofs.Replay
import LiveFeed.Proofs.Alike
import LiveFeed.Proofs.Residue
import LiveFeed.Proofs.Handles
import LiveFeed.Proofs.Neighbours
import LiveFeed.Proofs.Verdicts
import LiveFeed.Proofs.Frugality
import LiveFeed.Proofs.WrittenReport
import LiveFeed.Proofs.ReplayProgram
import LiveFeed.Proofs.Arrangement
import LiveFeed.Proofs.LastWritten
import LiveFeed.Proofs.Redelivery
import LiveFeed.Proofs.PlainDecoding
import LiveFeed.Proofs.Labels
import LiveFeed.Proofs.Truncation
import LiveFeed.Proofs.VisibleText
import LiveFeed.Proofs.BalanceGrammar
import LiveFeed.Proofs.ShownBalance
import LiveFeed.Proofs.UniqueIds
import LiveFeed.Proofs.Overrides
import LiveFeed.Proofs.LineBuffer
