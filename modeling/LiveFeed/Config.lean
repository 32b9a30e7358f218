import LiveFeed.SortOrder

namespace LiveFeed

structure FeedConfig where
  /-- Frames with more bytes than this are skipped. -/
  maxFrameBytes : UInt64 := 65536
  /-- Whether every view is emptied when the feed closes or fails. -/
  resetOnDisconnect : Bool := true
  deriving DecidableEq, Repr

structure ViewsConfig where
  /-- The order of the wallets by balance. -/
  walletOrder : SortOrder := .descending
  /-- The stage that the main view shows at first. -/
  openStage : Option String := none
  deriving DecidableEq, Repr

structure LoggingConfig where
  level : String := "info"
  format : String := "pretty"
  deriving DecidableEq, Repr

structure Config where
  feed : FeedConfig := {}
  views : ViewsConfig := {}
  logging : LoggingConfig := {}
  deriving DecidableEq, Repr

end LiveFeed
