import Mathlib.Data.List.Forall2
import LiveFeed.Proofs.MirrorRuns
import LiveFeed.Proofs.StableOrder
import LiveFeed.Proofs.Steps

namespace LiveFeed

/-- A text is the HTML of a region with an element for each record, in the order of the records. -/
def Layout.IsPage {R : Type} (layout : Layout R) (region : Region) (records : List R)
    (html : String) : Prop :=
  ∃ elements,
    List.Forall₂ (fun r e => ∃ node, layout.render r = .ok node ∧
      e = node.withId (region.mountId ++ "-" ++ layout.token r)) records elements ∧
    html = ((Element.div.withId region.mountId).withChildren elements).toHtml

namespace OrderedList

variable {R : Type} {layout : Layout R} {l l' : OrderedList layout}

theorem Mirrored.of_follows {base : String} (h : l.Mirrored base) (hf : l.Follows l') :
    l'.Mirrored base := by
  obtain ⟨ops, rfl⟩ := hf
  exact h.run ops

theorem Ordered.of_follows (ranked : layout.IsRanked) (h : l.Ordered) (hf : l.Follows l') :
    l'.Ordered := by
  obtain ⟨ops, rfl⟩ := hf
  exact h.run ranked ops

theorem mirrored_ofRegion (layout : Layout R) (region : Region) :
    (ofRegion layout region).Mirrored region.mountId :=
  mirrored_clear rfl rfl

theorem ordered_ofRegion (layout : Layout R) (region : Region) :
    (ofRegion layout region).Ordered :=
  .of_nil rfl

theorem Mirrored.isPage {region : Region} (h : l.Mirrored region.mountId) :
    layout.IsPage region l.records l.toHtml := by
  refine ⟨l.mount.elements, ?_, by rw [toHtml, Mount.toHtml, Mount.toElement, h.base_eq]⟩
  have hp : List.Forall₂ (· = ·) (l.records.map (l.nodes.picture layout region.mountId))
      (l.mount.children.map some) := by
    rw [List.forall₂_eq_eq_eq]
    exact h.pictures
  rw [List.forall₂_map_left_iff, List.forall₂_map_right_iff] at hp
  rw [Mount.elements, List.forall₂_map_right_iff]
  refine hp.imp fun r c hc => ?_
  exact (Nodes.picture_eq_some_iff.mp hc).2

end OrderedList

namespace Dispatcher

variable {config : Config} {d d' : Dispatcher config}

/-- The mount of every region shows the records of its list. -/
structure Mirrored (d : Dispatcher config) : Prop where
  wallets : d.wallets.Mirrored Region.wallets.mountId
  stages : d.stages.Mirrored Region.stages.mountId
  moderations : d.moderations.Mirrored Region.moderations.mountId
  engagements : d.engagements.Mirrored Region.engagements.mountId
  posts : d.posts.Mirrored Region.posts.mountId

theorem mirrored_new (config : Config) : (new config).Mirrored where
  wallets := OrderedList.mirrored_ofRegion _ .wallets
  stages := OrderedList.mirrored_ofRegion _ .stages
  moderations := OrderedList.mirrored_ofRegion _ .moderations
  engagements := OrderedList.mirrored_ofRegion _ .engagements
  posts := OrderedList.mirrored_ofRegion _ .posts

theorem Mirrored.of_follows (h : d.Mirrored) (hf : d.Follows d') : d'.Mirrored where
  wallets := h.wallets.of_follows hf.wallets
  stages := h.stages.of_follows hf.stages
  moderations := h.moderations.of_follows hf.moderations
  engagements := h.engagements.of_follows hf.engagements
  posts := h.posts.of_follows hf.posts

theorem mirrored_run (config : Config) (steps : List Step) : ((new config).run steps).Mirrored :=
  (mirrored_new config).of_follows (follows_run _ steps)

/-- Every list but that of the posts, which has no ranks, is sorted. -/
structure Ordered (d : Dispatcher config) : Prop where
  wallets : d.wallets.Ordered
  stages : d.stages.Ordered
  moderations : d.moderations.Ordered
  engagements : d.engagements.Ordered

theorem ordered_new (config : Config) : (new config).Ordered where
  wallets := OrderedList.ordered_ofRegion _ .wallets
  stages := OrderedList.ordered_ofRegion _ .stages
  moderations := OrderedList.ordered_ofRegion _ .moderations
  engagements := OrderedList.ordered_ofRegion _ .engagements

theorem Ordered.of_follows (h : d.Ordered) (hf : d.Follows d') : d'.Ordered where
  wallets := h.wallets.of_follows (Wallet.isRanked _) hf.wallets
  stages := h.stages.of_follows Stage.isRanked hf.stages
  moderations := h.moderations.of_follows Stage.isRanked hf.moderations
  engagements := h.engagements.of_follows Engagement.isRanked hf.engagements

theorem ordered_run (config : Config) (steps : List Step) : ((new config).run steps).Ordered :=
  (ordered_new config).of_follows (follows_run _ steps)

theorem Mirrored.tokens_nodup (h : d.Mirrored) (region : Region) :
    (d.regionTokens region).Nodup := by
  cases region with
  | wallets => exact h.wallets.tokens_nodup
  | stages => exact h.stages.tokens_nodup
  | moderations => exact h.moderations.tokens_nodup
  | engagements => exact h.engagements.tokens_nodup
  | posts => exact h.posts.tokens_nodup

end Dispatcher

end LiveFeed
