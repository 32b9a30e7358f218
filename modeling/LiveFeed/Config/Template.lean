namespace LiveFeed.Config

/-- The lines of a file that sets everything to its default, with a comment on each setting. -/
def templateLines : List String := [
  "# Drum Configuration",
  "#",
  "# Environment variables override these settings:",
  "# - DRUM_MAX_FRAME_BYTES",
  "# - DRUM_RESET_ON_DISCONNECT",
  "# - DRUM_WALLET_ORDER",
  "# - DRUM_OPEN_STAGE",
  "# - DRUM_LOG_LEVEL",
  "# - DRUM_LOG_FORMAT",
  "",
  "[feed]",
  "# Frames longer than this many bytes are skipped",
  "max_frame_bytes = 65536",
  "",
  "# Empty every view when the feed closes or fails",
  "reset_on_disconnect = true",
  "",
  "[views]",
  "# Wallet list order by balance: ascending or descending",
  "wallet_order = \"descending\"",
  "",
  "# Stage shown in the main view at startup",
  "# open_stage = \"aereum\"",
  "",
  "[logging]",
  "# Log level: trace, debug, info, warn, error",
  "level = \"info\"",
  "",
  "# Log format: pretty (for development) or json (for production)",
  "format = \"pretty\""]

/-- A file that sets everything to its default. -/
def template : String := String.join (templateLines.map (· ++ "\n"))

end LiveFeed.Config
