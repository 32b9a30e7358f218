import LiveFeed.Program
import LiveFeed.Proofs.Replay
import LiveFeed.Proofs.WrittenReport

namespace LiveFeed

def Frame.text? : Frame → Option String
  | text content => some content
  | opened | closed _ | failed _ => none

/-- The texts that a source delivers. -/
def Source.texts (s : Source) : List String := s.frames.filterMap Frame.text?

namespace Source

/-- The connection is announced, texts follow, and its loss is the last that is heard of it. -/
structure Closes (s : Source) (last : Frame) : Prop where
  frames_eq : s.frames = .opened :: s.texts.map .text ++ [last]
  lost : last.isDisconnect = true

namespace Closes

variable {s : Source} {last : Frame}

theorem length_eq (h : s.Closes last) : s.frames.length = s.texts.length + 2 := by
  rw [h.frames_eq]
  simp

theorem countP_isDisconnect (h : s.Closes last) : s.frames.countP Frame.isDisconnect = 1 := by
  have htexts := Frame.countP_isDisconnect_texts s.texts
  have hlast : [last].countP Frame.isDisconnect = 1 := by
    rw [List.countP_singleton, if_pos h.lost]
  rw [h.frames_eq, List.countP_append, List.countP_cons, htexts, hlast]
  rfl

theorem countP_isText (h : s.Closes last) : s.frames.countP Frame.isText = s.texts.length := by
  have htexts : (s.texts.map Frame.text).countP Frame.isText = s.texts.length := by
    rw [List.countP_map, List.countP_eq_length]
    exact fun content _ => rfl
  have hlast : [last].countP Frame.isText = 0 := by
    obtain ⟨reason, rfl⟩ | ⟨error, rfl⟩ := Frame.closed_or_failed h.lost
    · rfl
    · rfl
  rw [h.frames_eq, List.countP_append, List.countP_cons, htexts, hlast]
  rfl

end Closes

end Source

theorem LineFeed.texts_eq (max : UInt64) (stream : ByteStream) :
    (Source.lines { maxFrameBytes := max, stream }).texts =
      ByteStream.texts max stream.ending stream.bytes := by
  have hlast : stream.ending.frame.text? = none := by
    cases stream.ending with
    | complete => rfl
    | failure error => rfl
  have htexts (texts : List String) : (texts.map Frame.text).filterMap Frame.text? = texts := by
    rw [List.filterMap_map]
    exact List.filterMap_some
  have hopened : Frame.opened.text? = none := rfl
  rw [Source.texts, (LineFeed.gives max stream).frames_eq, ByteStream.framesOf,
    List.filterMap_append, List.filterMap_cons_none hopened, htexts,
    List.filterMap_cons_none hlast, List.filterMap_nil, List.append_nil]

theorem LineFeed.closes (max : UInt64) (stream : ByteStream) :
    (Source.lines { maxFrameBytes := max, stream }).Closes stream.ending.frame := by
  refine ⟨?_, ?_⟩
  · rw [LineFeed.texts_eq, (LineFeed.gives max stream).frames_eq, ByteStream.framesOf]
  · cases stream.ending with
    | complete => rfl
    | failure error => rfl

namespace Dispatcher

variable {config : Config} {d : Dispatcher config}

theorem Mirrored.under (h : d.Mirrored) (feed : FeedConfig) (s : Statistics) :
    (d.under feed s).Mirrored :=
  ⟨h.wallets, h.stages, h.moderations, h.engagements, h.posts⟩

theorem count_under (d : Dispatcher config) (feed : FeedConfig) (s : Statistics)
    (outcome : Outcome) : ∃ counters, (d.under feed s).count outcome = d.under feed counters := by
  cases outcome with
  | applied => exact ⟨_, rfl⟩
  | rejected e => exact ⟨_, rfl⟩
  | overflowed => exact ⟨s, rfl⟩

/-- Texts in frames come to what they come to on their own, however the feed is treated. -/
theorem run_text_frames (d : Dispatcher config) (feed : FeedConfig) (s : Statistics)
    (texts : List String) :
    ∃ counters,
      (d.under feed s).run (texts.map fun content => .frame (.text content)) =
        (d.run (texts.map .text)).under feed counters ∧
      (d.under feed s).results (texts.map fun content => .frame (.text content)) =
        d.results (texts.map .text) := by
  induction texts generalizing d s with
  | nil => exact ⟨s, rfl, rfl⟩
  | cons content texts ih =>
    have htext := d.handleText_under feed s content
    obtain ⟨counters, hcount⟩ :=
      (d.handleText content).2.count_under feed s (d.handleText content).1
    have hstep : (d.under feed s).step (.frame (.text content)) =
        (d.step (.text content)).under feed counters := by
      rw [step, handleFrame, htext]
      exact hcount
    have hfirst : (d.under feed s).outcome? (.frame (.text content)) =
        d.outcome? (.text content) := by
      rw [outcome?, handleFrame, htext]
      rfl
    obtain ⟨after, hrun, hresults⟩ := ih (d.step (.text content)) counters
    refine ⟨after, ?_, ?_⟩
    · rw [List.map_cons, run, List.foldl_cons, hstep]
      exact hrun
    · rw [List.map_cons, results, hstep, hfirst, hresults]
      rfl

/-- The figures of a session in which a connection came to its end once. -/
structure OneSession (texts : List String) (summary : Summary) : Prop where
  frames : summary.frames = texts.length + 2
  disconnects : summary.disconnects = 1
  texts : summary.applied + summary.dropped = summary.frames - 2

theorem exists_session {source : Source} {last : Frame} (hs : source.Closes last)
    (feed : FeedConfig) (hroom : some .overflowed ∉ (new config).results (source.texts.map .text)) :
    ∃ summary counters, (new { config with feed }).runSession source =
        (some summary,
          (((new config).run (source.texts.map .text)).under feed counters).step (.frame last)) ∧
      OneSession source.texts summary := by
  obtain ⟨counters, hrun, hresults⟩ := (new config).run_text_frames feed {} source.texts
  have hsteps : source.steps =
      .frame .opened :: source.texts.map (fun content => .frame (.text content)) ++
        [.frame last] := by
    rw [Source.steps, hs.frames_eq]
    simp
  have hquiet : (((new config).run (source.texts.map .text)).under feed counters).outcome?
      (.frame last) = none := by
    obtain ⟨reason, rfl⟩ | ⟨error, rfl⟩ := Frame.closed_or_failed hs.lost
    · rfl
    · rfl
  have hnew : new { config with feed } = (new config).under feed {} := rfl
  have hopened : ((new config).under feed {}).step (.frame .opened) =
      (new config).under feed {} := rfl
  have hroom' : some .overflowed ∉ (new { config with feed }).results source.steps := by
    rw [hsteps, hnew, List.cons_append, results, hopened, results_concat, hresults, hrun, hquiet]
    simp [outcome?, handleFrame, hroom]
  obtain ⟨summary, hsession, htells⟩ := exists_runSession hroom'
  refine ⟨summary, counters, ?_, ?_⟩
  · rw [hsession, hsteps, hnew, run_concat, run, List.foldl_cons, hopened]
    exact congrArg (fun d => (some summary, d.step (.frame last))) hrun
  · have hlength := htells.frames.trans hs.length_eq
    refine ⟨hlength, htells.disconnects.trans hs.countP_isDisconnect, ?_⟩
    rw [htells.texts, hs.countP_isText, hlength, Nat.add_sub_cancel]

theorem regionHtml_under (d : Dispatcher config) (feed : FeedConfig) (s : Statistics)
    (region : Region) : (d.under feed s).regionHtml region = d.regionHtml region := by
  cases region with
  | _ => rfl

theorem regionTokens_under (d : Dispatcher config) (feed : FeedConfig) (s : Statistics)
    (region : Region) : (d.under feed s).regionTokens region = d.regionTokens region := by
  cases region with
  | _ => rfl

theorem regionTokens_reset (d : Dispatcher config) (region : Region) :
    d.reset.regionTokens region = [] := by
  cases region with
  | _ => rfl

end Dispatcher

/-- The mount of a region that has no records. -/
def Region.emptyHtml : Region → String
  | wallets => "<div id=\"wallets\"></div>"
  | stages => "<div id=\"mystages\"></div>"
  | moderations => "<div id=\"mymoderation\"></div>"
  | engagements => "<div id=\"myengagements\"></div>"
  | posts => "<div id=\"posts\"></div>"

theorem Mount.toHtml_clear {m : Mount} {region : Region} (h : m.base = region.mountId) :
    m.clear.toHtml = region.emptyHtml := by
  have hnew : m.clear.toHtml = (Mount.new region.mountId).toHtml := by
    rw [toHtml, toHtml, toElement, toElement, ← h]
    rfl
  rw [hnew]
  cases region with
  | _ => rfl

namespace Dispatcher

variable {config : Config} {d : Dispatcher config}

theorem Mirrored.regionHtml_reset (h : d.Mirrored) (region : Region) :
    d.reset.regionHtml region = region.emptyHtml := by
  cases region with
  | wallets => exact Mount.toHtml_clear h.wallets.base_eq
  | stages => exact Mount.toHtml_clear h.stages.base_eq
  | moderations => exact Mount.toHtml_clear h.moderations.base_eq
  | engagements => exact Mount.toHtml_clear h.engagements.base_eq
  | posts => exact Mount.toHtml_clear h.posts.base_eq

/-- What is left in a region when the connection is gone. -/
theorem Mirrored.region_lost (h : d.Mirrored) {last : Frame} (hlast : last.isDisconnect = true)
    (resetOnClose : Bool) (counters : Statistics) (region : Region) :
    let feed := { config.feed with resetOnDisconnect := resetOnClose }
    let left := (d.under feed counters).step (.frame last)
    left.regionHtml region = (if resetOnClose then region.emptyHtml else d.regionHtml region) ∧
      left.regionTokens region = if resetOnClose then [] else d.regionTokens region := by
  intro feed left
  -- the last frame is the only one that the treatment of the feed matters to
  cases resetOnClose with
  | false =>
    have hleft : left = d.under feed counters := step_lost_kept hlast rfl _
    rw [hleft]
    exact ⟨d.regionHtml_under feed counters region, d.regionTokens_under feed counters region⟩
  | true =>
    have hempties : (Step.frame last).empties { config with feed } = true := by
      rw [Step.empties, hlast]
      rfl
    obtain ⟨after, hstep⟩ := (d.under feed counters).step_eq (.frame last)
    rw [after_of_empties hempties] at hstep
    have hleft : left = (d.under feed counters).reset.withStatistics after := hstep
    rw [hleft]
    have hhtml := (h.under feed counters).regionHtml_reset region
    have htokens := (d.under feed counters).regionTokens_reset region
    exact ⟨((regionHtml_under _ _ after region).trans hhtml),
      (regionTokens_under _ _ after region).trans htokens⟩

end Dispatcher

namespace Program

/-- The configuration that a replay starts from, as files and variables have it. -/
def configured (s : Surroundings) : Option String → Except ConfigError Config
  | some path => Config.loadWith s.environment s.files path
  | none => .ok (Config.loadStandard s.environment s.files)

/-- The frames of a feed. -/
def source (c : Config) (stream : ByteStream) : Source :=
  .lines { maxFrameBytes := c.feed.maxFrameBytes, stream }

/--
A stream of a feed, in whatever portions it is read: a dash stands for the standard input, and any
other name for the bytes of that file. A directory can be opened, but the first read of it fails.
-/
inductive Feeds (s : Surroundings) : (feed : String) → ByteStream → Prop where
  | input {stream : ByteStream} (hbytes : stream.bytes = s.input.bytes)
      (hending : stream.ending = s.input.ending) : Feeds s "-" stream
  | file {feed : String} {stream : ByteStream} {bytes : List UInt8} (hfeed : feed ≠ "-")
      (hfile : s.files feed = .ok bytes) (hbytes : stream.bytes = bytes)
      (hending : stream.ending = .complete) : Feeds s feed stream
  | directory {feed : String} {stream : ByteStream} (hfeed : feed ≠ "-")
      (hfile : s.files feed = .error .directory) (hbytes : stream.bytes = [])
      (hending : stream.ending = .failure "Is a directory (os error 21)") : Feeds s feed stream

variable {s : Surroundings} {feed : String} {path : Option String} {c : Config}
  {stream : ByteStream}

/-- The stream that is opened has the same bytes and the same end. -/
theorem exists_feedStream (h : Feeds s feed stream) :
    ∃ opened, feedStream s feed = .ok opened ∧ opened.bytes = stream.bytes ∧
      opened.ending = stream.ending := by
  cases h with
  | input hbytes hending => exact ⟨s.input, if_pos rfl, hbytes.symm, hending.symm⟩
  | file hfeed hfile hbytes hending =>
    have hinput : feed ≠ Command.standardInput := hfeed
    rw [feedStream, if_neg hinput, hfile]
    exact ⟨_, rfl, by rw [hbytes, ByteStream.bytes, List.flatten_singleton], hending.symm⟩
  | directory hfeed hfile hbytes hending =>
    have hinput : feed ≠ Command.standardInput := hfeed
    rw [feedStream, if_neg hinput, hfile]
    exact ⟨_, rfl, hbytes.symm, hending.symm⟩

theorem replayConfig_eq (hc : configured s path = .ok c) (resetOnClose : Bool) :
    replayConfig s path resetOnClose =
      .ok { c with feed.resetOnDisconnect := resetOnClose } := by
  cases path with
  | none =>
    obtain rfl := Except.ok.inj hc
    rfl
  | some path =>
    have hload : Config.loadWith s.environment s.files path = .ok c := hc
    rw [replayConfig, hload]
    rfl

theorem texts_source_eq {opened : ByteStream} (hbytes : opened.bytes = stream.bytes)
    (hending : opened.ending = stream.ending) :
    (source c opened).texts = (source c stream).texts := by
  rw [source, source, LineFeed.texts_eq, LineFeed.texts_eq, hbytes, hending]

theorem exists_replay (hc : configured s path = .ok c) (hfeed : Feeds s feed stream)
    (hroom : some .overflowed ∉
      (Dispatcher.new c).results ((source c stream).texts.map .text))
    (format : OutputFormat) (resetOnClose : Bool) :
    ∃ (summary : Summary)
      (d : Dispatcher { c with feed.resetOnDisconnect := resetOnClose }),
      run s (.ok ⟨.replay feed format resetOnClose, path⟩) = present format summary d ∧
      Dispatcher.OneSession (source c stream).texts summary ∧
      ∀ region,
        d.regionHtml region = (if resetOnClose then region.emptyHtml
          else ((Dispatcher.new c).run ((source c stream).texts.map .text)).regionHtml region) ∧
        d.regionTokens region = if resetOnClose then []
          else ((Dispatcher.new c).run ((source c stream).texts.map .text)).regionTokens region := by
  obtain ⟨opened, hopened, hbytes, hending⟩ := exists_feedStream hfeed
  rw [← texts_source_eq hbytes hending] at hroom ⊢
  have hcloses : (source c opened).Closes opened.ending.frame := LineFeed.closes _ _
  obtain ⟨summary, counters, hsession, hfigures⟩ := Dispatcher.exists_session hcloses
    { c.feed with resetOnDisconnect := resetOnClose } hroom
  have hmirrored := Dispatcher.mirrored_run c ((source c opened).texts.map .text)
  refine ⟨summary, _, ?_, hfigures, hmirrored.region_lost hcloses.lost resetOnClose counters⟩
  have hreplay : replay { c with feed.resetOnDisconnect := resetOnClose } opened = _ := hsession
  simp only [run, runInvocation, replayConfig_eq hc, runReplay, hopened, hreplay]

/-- What replays of a feed with some texts come to, in both formats. -/
structure Replays (s : Surroundings) (feed : String) (path : Option String) (c : Config)
    (texts : List String) : Prop where
  html : run s (.ok ⟨.replay feed .html false, path⟩) = .print (String.join (Region.all.map
    fun region => ((Dispatcher.new c).run (texts.map .text)).regionHtml region ++ "\n"))
  emptied : run s (.ok ⟨.replay feed .html true, path⟩) = .print (String.join (Region.all.map
    fun region => region.emptyHtml ++ "\n"))
  json : ∀ resetOnClose, ∃ report,
    run s (.ok ⟨.replay feed .json resetOnClose, path⟩) = .report report ∧
    report.regions = Region.all.map (fun region => (region, if resetOnClose then []
      else ((Dispatcher.new c).run (texts.map .text)).regionTokens region)) ∧
    report.summary.frames = texts.length + 2 ∧
    report.summary.disconnects = 1 ∧
    report.summary.applied + report.summary.dropped = report.summary.frames - 2 ∧
    (texts.length + 2 < UInt64.size → ∀ stamp,
      Json.Document 3 (report.write stamp).toList (report.value stamp))

/--
A replay shows what the texts of its feed lead to in fresh views, whatever the configuration says
about a lost connection; and if the views are to be emptied at the end, it shows empty ones.
-/
theorem replays_run (hc : configured s path = .ok c) (hfeed : Feeds s feed stream)
    (hroom : some .overflowed ∉
      (Dispatcher.new c).results ((source c stream).texts.map .text)) :
    Replays s feed path c (source c stream).texts where
  html := by
    obtain ⟨summary, d, hrun, -, hregions⟩ := exists_replay hc hfeed hroom .html false
    rw [hrun, present, Dispatcher.page]
    simp only [hregions]
    rfl
  emptied := by
    obtain ⟨summary, d, hrun, -, hregions⟩ := exists_replay hc hfeed hroom .html true
    rw [hrun, present, Dispatcher.page]
    simp only [hregions]
    rfl
  json := by
    intro resetOnClose
    obtain ⟨summary, d, hrun, hfigures, hregions⟩ :=
      exists_replay hc hfeed hroom .json resetOnClose
    refine ⟨_, hrun, ?_, hfigures.frames, hfigures.disconnects, hfigures.texts, ?_⟩
    · rw [Dispatcher.report]
      simp only [hregions]
    · intro hfits stamp
      have hframes : summary.frames < UInt64.size := hfigures.frames ▸ hfits
      have htexts := hfigures.texts
      have hdisconnects := hfigures.disconnects
      exact Report.document_write _ stamp hframes (by simp only [Dispatcher.report]; omega)
        (by simp only [Dispatcher.report]; omega) (by simp only [Dispatcher.report]; omega)

theorem replays_run_wallet_and_stage :
    let messages : List Message := [.newWalletBalance { token := "w", balance := 5 },
      .newStage { token := "s", caption := "c", author := "a", moderation := true, count := 0 }]
    let bytes := messages.flatMap Message.line
    let files : Files := fun path => if path = "feed" then .ok bytes else .error .missing
    let s : Surroundings := { environment := fun _ => none, files, input := { chunks := [] } }
    let stream : ByteStream := { chunks := [bytes.take 40, bytes.drop 40] }
    let texts := (source {} stream).texts
    configured s none = .ok {} ∧
      Feeds s "feed" stream ∧
      some .overflowed ∉ (Dispatcher.new {}).results (texts.map .text) ∧
      Region.all.map ((Dispatcher.new {}).run (texts.map .text)).regionTokens =
        [["w"], ["s"], ["s"], [], []] ∧
      Replays s "feed" none {} texts := by
  intro messages bytes files s stream texts
  have hc : configured s none = .ok {} := rfl
  have hbytes : stream.bytes = bytes := by simp [stream, ByteStream.bytes]
  have hfeed : Feeds s "feed" stream := .file (by decide) rfl hbytes rfl
  have htexts : texts.map Step.text = messages.map fun m => .text m.wire := by
    have hlines : ∀ m ∈ messages, m.line.length ≤ (65536 : UInt64).toNat := by decide +kernel
    have he : texts = messages.map Message.wire := by
      rw [← ByteStream.texts_lines hlines .complete]
      exact (LineFeed.texts_eq _ stream).trans (by rw [hbytes])
    rw [he, List.map_map]
    rfl
  obtain ⟨hrun, hresults⟩ := (Dispatcher.new {}).run_wires messages
  rw [← htexts] at hrun hresults
  have hroom : some .overflowed ∉ (Dispatcher.new {}).results (texts.map .text) := by
    rw [hresults]
    decide +kernel
  refine ⟨hc, hfeed, hroom, ?_, replays_run hc hfeed hroom⟩
  rw [hrun]
  decide +kernel

end Program

end LiveFeed
