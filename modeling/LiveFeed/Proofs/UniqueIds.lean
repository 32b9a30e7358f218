import Mathlib.Data.List.TakeWhile
import LiveFeed.Proofs.Markup

namespace LiveFeed

namespace Outline

/-- The values of all attributes that are called `id`. -/
def idsOf (attributes : List (String × String)) : List String :=
  attributes.filterMap fun (name, value) => if name = "id" then some value else none

mutual

/-- The ids of an element and its descendants, in the order in which they are written. -/
def ids : Outline → List String
  | node _ attributes _ children => idsOf attributes ++ idsOfAll children

def idsOfAll : List Outline → List String
  | [] => []
  | o :: os => o.ids ++ idsOfAll os

end

theorem idsOfAll_append (os more : List Outline) :
    idsOfAll (os ++ more) = idsOfAll os ++ idsOfAll more := by
  induction os with
  | nil => rfl
  | cons o os ih => rw [List.cons_append, idsOfAll, idsOfAll, ih, List.append_assoc]

end Outline

/-- An element that is drawn for a record has its key for an id, and its descendants have none. -/
def Region.KeysOnly {R : Type} (outline : String → R → Outline) : Prop :=
  ∀ key r, (outline key r).ids = [key]

theorem Wallet.keysOnly_outline : Region.KeysOnly Wallet.outline := fun _ _ => rfl

theorem Stage.keysOnly_outline : Region.KeysOnly Stage.outline := fun _ _ => rfl

theorem Engagement.keysOnly_outline : Region.KeysOnly Engagement.outline := fun _ _ => rfl

theorem Post.keysOnly_outline : Region.KeysOnly Post.outline := by
  intro key p
  rw [outline, Outline.ids, Outline.idsOfAll_append]
  split
  next => rfl
  next => rfl

namespace Region

theorem KeysOnly.idsOfAll {R : Type} {outline : String → R → Outline} (h : KeysOnly outline)
    (region : Region) (token : R → String) (records : List R) :
    Outline.idsOfAll (records.map fun r => outline (region.key (token r)) r) =
      (records.map token).map region.key := by
  induction records with
  | nil => rfl
  | cons r records ih =>
    rw [List.map_cons, Outline.idsOfAll, h, ih]
    rfl

/-- What stands in front of the first hyphen of an id. -/
def stem (id : String) : List Char := id.toList.takeWhile (· ≠ '-')

theorem stem_mountId (region : Region) : stem region.mountId = region.mountId.toList := by
  cases region <;> rfl

theorem toList_key (region : Region) (token : String) :
    (region.key token).toList = region.mountId.toList ++ '-' :: token.toList := by
  simp [key]

/-- Whatever hyphens a token has, the first one of a key is that behind the id of the mount. -/
theorem stem_key (region : Region) (token : String) :
    stem (region.key token) = region.mountId.toList := by
  have hmount := List.takeWhile_eq_self_iff.mp region.stem_mountId
  rw [stem, toList_key, List.takeWhile_append_of_pos hmount]
  simp

theorem mountId_injective {region other : Region} (h : region.mountId = other.mountId) :
    region = other := by
  have hall : ∀ a ∈ all, ∀ b ∈ all, a.mountId = b.mountId → a = b := by decide
  exact hall region region.mem_all other other.mem_all h

theorem key_injective (region : Region) : Function.Injective region.key := by
  intro token other h
  have hchars := congrArg String.toList h
  rw [toList_key, toList_key] at hchars
  exact String.toList_injective (List.cons.inj (List.append_cancel_left hchars)).2

theorem mountId_ne_key (region : Region) (token : String) : region.mountId ≠ region.key token := by
  intro h
  have hchars := congrArg String.toList h
  rw [toList_key] at hchars
  simpa using congrArg List.length hchars

/-- The ids that a region with records of these tokens has. -/
def ids (region : Region) (tokens : List String) : List String :=
  region.mountId :: tokens.map region.key

theorem stem_of_mem_ids {region : Region} {tokens : List String} {id : String}
    (h : id ∈ region.ids tokens) : stem id = region.mountId.toList := by
  rcases List.mem_cons.mp h with rfl | hkey
  · exact region.stem_mountId
  · obtain ⟨token, -, rfl⟩ := List.mem_map.mp hkey
    exact region.stem_key token

theorem nodup_ids (region : Region) {tokens : List String} (h : tokens.Nodup) :
    (region.ids tokens).Nodup := by
  refine List.nodup_cons.mpr ⟨?_, h.map region.key_injective⟩
  intro hmount
  obtain ⟨token, -, hkey⟩ := List.mem_map.mp hmount
  exact region.mountId_ne_key token hkey.symm

theorem disjoint_ids {region other : Region} (h : region ≠ other) (tokens others : List String) :
    (region.ids tokens).Disjoint (other.ids others) := by
  intro id hid hother
  have hstem := (stem_of_mem_ids hid).symm.trans (stem_of_mem_ids hother)
  exact h (mountId_injective (String.toList_injective hstem))

end Region

namespace Dispatcher

variable {config : Config}

theorem ids_regionOutline (d : Dispatcher config) (region : Region) :
    (d.regionOutline region).ids = region.ids (d.regionTokens region) := by
  have hpage (children : List Outline) :
      (region.page children).ids = region.mountId :: Outline.idsOfAll children := rfl
  unfold regionOutline
  rw [hpage, Region.ids]
  congr 1
  cases region with
  | wallets => exact Wallet.keysOnly_outline.idsOfAll .wallets Wallet.token _
  | stages => exact Stage.keysOnly_outline.idsOfAll .stages Stage.token _
  | moderations => exact Stage.keysOnly_outline.idsOfAll .moderations Stage.token _
  | engagements => exact Engagement.keysOnly_outline.idsOfAll .engagements Engagement.token _
  | posts => exact Post.keysOnly_outline.idsOfAll .posts Post.token _

/--
The ids that stand anywhere in the markup of a page are those of the mounts and of the records,
and none stands there twice, whatever the tokens are.
-/
theorem unique_ids_run (config : Config) (steps : List Step) :
    let d := (new config).run steps
    (∀ region, (Outline.parse? (d.regionHtml region)).map Outline.ids =
      some (region.ids (d.regionTokens region))) ∧
    (Region.all.flatMap fun region => region.ids (d.regionTokens region)).Nodup := by
  intro d
  have hmirrored : d.Mirrored := mirrored_run config steps
  constructor
  · intro region
    rw [hmirrored.parse?_regionHtml, Option.map_some, ids_regionOutline]
  · refine List.nodup_flatMap.mpr ⟨?_, ?_⟩
    · exact fun region _ => region.nodup_ids (hmirrored.tokens_nodup region)
    · have hall : Region.all.Pairwise (· ≠ ·) := by decide
      exact hall.imp fun hne => Region.disjoint_ids hne _ _

end Dispatcher

end LiveFeed
