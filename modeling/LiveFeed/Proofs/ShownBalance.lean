import LiveFeed.Proofs.BalanceGrammar
import LiveFeed.Proofs.Markup
import LiveFeed.Proofs.WrittenScalars

namespace LiveFeed

namespace Decimal

/-- Digits cut into groups of three, with one in front of them that may be shorter. -/
structure Grouping (ds first : List Char) (groups : List (List Char)) : Prop where
  nonempty : first ≠ []
  short : first.length ≤ 3
  full : ∀ g ∈ groups, g.length = 3
  whole : first ++ groups.flatten = ds

theorem Grouping.length_mod {ds first : List Char} {groups : List (List Char)}
    (h : Grouping ds first groups) : ds.length % 3 = first.length % 3 := by
  have hflatten : groups.flatten.length = groups.length * 3 := by
    rw [List.length_flatten, List.map_eq_replicate_iff.mpr h.full, List.sum_replicate_nat]
  rw [← h.whole, List.length_append, hflatten, Nat.add_mul_mod_self_right]

/-- Commas are set from the left, where the digits that follow make up whole groups. -/
theorem exists_grouping {ds : List Char} (h : ds ≠ []) :
    ∃ first groups, Grouping ds first groups ∧
      group ds = first ++ groups.flatMap (',' :: ·) := by
  fun_induction group ds with
  | case1 => exact absurd rfl h
  | case2 d => exact ⟨[d], [], ⟨by simp, by simp, by simp, rfl⟩, rfl⟩
  | case3 d ds hne hmod ih =>
    obtain ⟨first, groups, hgrouping, htext⟩ := ih hne
    have hfirst : first.length = 3 := by
      have hlength := hgrouping.length_mod
      have hpos := List.length_pos_iff.mpr hgrouping.nonempty
      have hshort := hgrouping.short
      omega
    refine ⟨[d], first :: groups, ⟨by simp, by simp, ?_, ?_⟩, ?_⟩
    · exact List.forall_mem_cons.mpr ⟨hfirst, hgrouping.full⟩
    · simp [hgrouping.whole]
    · simp [htext]
  | case4 d ds hne hmod ih =>
    obtain ⟨first, groups, hgrouping, htext⟩ := ih hne
    have hfirst : first.length < 3 := by
      have hlength := hgrouping.length_mod
      have hshort := hgrouping.short
      omega
    refine ⟨d :: first, groups, ⟨by simp, hfirst, hgrouping.full, ?_⟩, ?_⟩
    · rw [List.cons_append, hgrouping.whole]
    · rw [htext, List.cons_append]

theorem filter_group {keep : Char → Bool} (hcomma : keep ',' = false) {ds : List Char}
    (h : ∀ d ∈ ds, keep d = true) : (group ds).filter keep = ds := by
  fun_induction group ds with
  | case1 => rfl
  | case2 d => exact List.filter_eq_self.mpr h
  | case3 d ds hne hmod ih =>
    obtain ⟨hd, hds⟩ := List.forall_mem_cons.mp h
    rw [List.filter_cons_of_pos hd, List.filter_cons_of_neg (Bool.eq_false_iff.mp hcomma), ih hds]
  | case4 d ds hne hmod ih =>
    obtain ⟨hd, hds⟩ := List.forall_mem_cons.mp h
    rw [List.filter_cons_of_pos hd, ih hds]

theorem isBlank_of_isDigit {c : Char} (h : c.isDigit = true) : Text.isBlank c = false := by
  obtain ⟨hlow, hhigh⟩ : 48 ≤ c.toNat ∧ c.toNat ≤ 57 := Char.isDigit_iff_toNat.mp h
  have hspace : c ≠ ' ' := Json.ne_of_isDigit h rfl
  simp [Text.isBlank, hspace]
  omega

/-- No blank stands among grouped digits. -/
theorem isBlank_of_mem_group {ds : List Char} (h : ∀ d ∈ ds, d.isDigit = true) {c : Char}
    (hc : c ∈ group ds) : Text.isBlank c = false := by
  by_cases hcomma : c = ','
  · subst hcomma
    decide
  · have hne : ∀ d ∈ ds, decide (d ≠ ',') = true :=
      fun d hd => decide_eq_true (Json.ne_of_isDigit (h d hd) rfl)
    have hkept : c ∈ (group ds).filter (· ≠ ',') := by simp [hc, hcomma]
    rw [filter_group (by decide) hne] at hkept
    exact isBlank_of_isDigit (h c hkept)

theorem spells_digits (n : Nat) : Spells (digits n) n := by
  have hnumeral : isNumeral (digits n) = true := by
    simpa [isNumeral, digits_ne_nil] using fun d hd => isDigit_of_mem_digits hd
  have hspells := spells_value hnumeral
  rwa [value_digits] at hspells

end Decimal

namespace Balance

theorem denotes_display (n : UInt64) : Denotes (display n) n.toNat := by
  have hdigit : ∀ d ∈ Decimal.digits n.toNat, d.isDigit = true :=
    fun _ => Decimal.isDigit_of_mem_digits
  have hblank : ∀ c ∈ Decimal.group (Decimal.digits n.toNat), ¬ Text.WhiteSpace c :=
    fun _ hc => Text.isBlank_eq_false_iff.mp (Decimal.isBlank_of_mem_group hdigit hc)
  refine ⟨Decimal.group (Decimal.digits n.toNat), ⟨?_, ?_, [], [], ?_⟩, ?_⟩
  · exact fun c hc => hblank c (List.mem_of_head? hc)
  · exact fun c hc => hblank c (List.mem_of_getLast? hc)
  · simp [display]
  · rw [Decimal.filter_group (by decide)]
    · exact .bare (Decimal.spells_digits n.toNat)
    · intro d hd
      have hne (c : Char) (hc : c.isDigit = false) := Json.ne_of_isDigit (hdigit d hd) hc
      simp [hne ',' rfl, hne '_' rfl, hne ' ' rfl]

theorem parse?_display (n : UInt64) : parse? (display n) = some n :=
  parse?_eq_some_iff.mpr (denotes_display n)

end Balance

namespace Outline

def children : Outline → List Outline
  | node _ _ _ children => children

def text : Outline → String
  | node _ _ text _ => text

/-- The value of the first attribute of that name. -/
def attribute? (name : String) : Outline → Option String
  | node _ attributes _ _ => (attributes.find? (·.1 = name)).map (·.2)

/-- The text of the first child of that class. -/
def textOf? (className : String) (o : Outline) : Option String :=
  (o.children.find? (·.attribute? "class" = some className)).map text

/-- The id of a wallet that is shown, and the balance that its text stands for. -/
def balance? (o : Outline) : Option (String × UInt64) := do
  return (← o.attribute? "id", ← Balance.parse? (← o.textOf? "walletbalance"))

end Outline

theorem Wallet.balance?_outline (w : Wallet) (key : String) :
    (w.outline key).balance? = some (key, w.balance) := by
  have hid : (w.outline key).attribute? "id" = some key := rfl
  have htext : (w.outline key).textOf? "walletbalance" = some (Balance.display w.balance) := rfl
  simp [Outline.balance?, hid, htext, Balance.parse?_display]

namespace Dispatcher

theorem balances_regionOutline {config : Config} (d : Dispatcher config) :
    (d.regionOutline .wallets).children.map Outline.balance? =
      d.wallets.records.map fun w => some (Region.wallets.key w.token, w.balance) := by
  have hchildren : (d.regionOutline .wallets).children =
      d.wallets.records.map fun w => w.outline (Region.wallets.key w.token) := rfl
  rw [hchildren, List.map_map]
  exact List.map_congr_left fun w _ => w.balance?_outline _

/--
A balance is shown in groups of three digits, of which only the first may be shorter, and is read
back from them; so what is shown of the wallets tells what each of them holds.
-/
theorem balances_read_back :
    (∀ n : UInt64,
      (∃ first groups, Decimal.Grouping (toString n).toList first groups ∧
        (Balance.display n).toList = first ++ groups.flatMap (',' :: ·)) ∧
      Balance.parse? (Balance.display n) = some n) ∧
    ∀ config steps,
      let d := (new config).run steps
      (Outline.parse? (d.regionHtml .wallets)).map (·.children.map Outline.balance?) =
        some (d.wallets.records.map fun w => some (Region.wallets.key w.token, w.balance)) := by
  constructor
  · intro n
    obtain ⟨first, groups, hgrouping, htext⟩ :=
      Decimal.exists_grouping (Decimal.digits_ne_nil n.toNat)
    have hnumeral : (toString n).toList = Decimal.digits n.toNat := String.toList_ofList
    have hdisplay : (Balance.display n).toList = Decimal.group (Decimal.digits n.toNat) :=
      String.toList_ofList
    exact ⟨⟨first, groups, hnumeral ▸ hgrouping, hdisplay.trans htext⟩, Balance.parse?_display n⟩
  · intro config steps d
    rw [(mirrored_run config steps).parse?_regionHtml, Option.map_some]
    exact congrArg some d.balances_regionOutline

end Dispatcher

end LiveFeed
