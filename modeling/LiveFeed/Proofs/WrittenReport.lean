import Mathlib.Data.List.Forall2
import LiveFeed.Report
import LiveFeed.Proofs.ValueGrammar
import LiveFeed.Proofs.WrittenScalars

namespace LiveFeed

namespace Json

variable {α : Type} {part : Text → α → Prop}

theorem space_newLine (depth : Nat) : Space (newLine depth) := by
  intro c hc
  rcases List.mem_cons.mp hc with rfl | hc
  · decide
  · rw [List.eq_of_mem_replicate hc]
    decide

theorem writeList_cons (part : List Char) (parts : List (List Char)) :
    writeList (part :: parts) = part ++ parts.flatMap (',' :: ·) := by
  induction parts generalizing part with
  | nil => simp [writeList]
  | cons next parts ih =>
    have hlist := ih next
    rw [List.flatMap_cons, List.cons_append, ← hlist]
    rfl

/-- Parts behind the first, each with its comma on a line of its own. -/
theorem parts_behind {ts : List Text} {as : List α} (h : List.Forall₂ part ts as)
    (depth : Nat) : Parts part false
      (((ts.map (newLine (depth + 1) ++ ·)).flatMap (',' :: ·)) ++ newLine depth) as := by
  induction h with
  | nil => exact .nil (space_newLine depth)
  | @cons t a ts as ht _ ih =>
    have hlead : Lead false ([] ++ ',' :: newLine (depth + 1)) :=
      .comma (List.forall_mem_nil _) (space_newLine (depth + 1))
    have hparts := Parts.cons hlead ht ih
    simpa using hparts

theorem exists_parts_writeSpread {ts : List Text} {as : List α} (h : List.Forall₂ part ts as)
    (depth : Nat) (opening closing : Char) :
    ∃ body, Parts part true body as ∧
      writeSpread depth opening closing ts = opening :: (body ++ [closing]) := by
  cases h with
  | nil => exact ⟨[], .nil (List.forall_mem_nil _), rfl⟩
  | @cons t a ts as ht hrest =>
    have hlead : Lead true (newLine (depth + 1)) := .first (space_newLine (depth + 1))
    refine ⟨_, .cons hlead ht (parts_behind hrest depth), ?_⟩
    have hlist := writeList_cons (newLine (depth + 1) ++ t) (ts.map (newLine (depth + 1) ++ ·))
    rw [writeSpread, List.map_cons, hlist]
    · simp
    · exact List.cons_ne_nil t ts

theorem member_writeSpreadMember {name : String} {t : Text} {a : α} (h : part t a) :
    Member part (writeSpreadMember name t) (name, a) := by
  have hspace : Space [' '] := by
    intro c hc
    rw [List.mem_singleton.mp hc]
    decide
  exact member_writeMember name hspace h

/-- An object with its members in the order of their names. -/
def sortedObject (members : List (String × Value)) : Value :=
  .object (members.mergeSort (fun a b => a.1 ≤ b.1))

theorem composed_writeSpread {part : Text → Value → Prop} {ts : List Text} {items : List Value}
    (h : List.Forall₂ part ts items) (depth : Nat) :
    Composed part (writeSpread depth '[' ']' ts) (.array items) := by
  obtain ⟨body, hparts, hwrite⟩ := exists_parts_writeSpread h depth '[' ']'
  rw [hwrite]
  exact .array hparts

/-- Names with the texts of their values, and the same names with the values. -/
abbrev Written (part : Text → Value → Prop) (texts : List (String × Text))
    (members : List (String × Value)) : Prop :=
  List.Forall₂ (fun t m => t.1 = m.1 ∧ part t.2 m.2) texts members

theorem Written.exists_items {part : Text → Value → Prop} {texts : List (String × Text)}
    {members : List (String × Value)} (h : Written part texts members) :
    ∃ items : List (String × Text × Value),
      texts = items.map (fun item => (item.1, item.2.1)) ∧
      members = items.map (fun item => (item.1, item.2.2)) ∧
      ∀ item ∈ items, part item.2.1 item.2.2 := by
  induction h with
  | nil => exact ⟨[], rfl, rfl, List.forall_mem_nil _⟩
  | @cons t m texts members hfirst _ ih =>
    obtain ⟨items, rfl, rfl, hitems⟩ := ih
    obtain ⟨hname, hpart⟩ := hfirst
    refine ⟨(t.1, t.2, m.2) :: items, rfl, ?_, List.forall_mem_cons.mpr ⟨hpart, hitems⟩⟩
    rw [List.map_cons, hname]

theorem composed_spreadObject {part : Text → Value → Prop} {texts : List (String × Text)}
    {members : List (String × Value)} (h : Written part texts members) (depth : Nat) :
    Composed part (Report.spreadObject depth texts) (sortedObject members) := by
  obtain ⟨items, rfl, rfl, hitems⟩ := h.exists_items
  -- both sides are sorted by the names alone, and so in the same way
  let sorted := items.mergeSort (fun a b => a.1 ≤ b.1)
  have htexts : sorted.map (fun item => (item.1, item.2.1)) =
      (items.map fun item => (item.1, item.2.1)).mergeSort (fun a b => a.1 ≤ b.1) :=
    List.map_mergeSort fun _ _ _ _ => rfl
  have hvalues : sorted.map (fun item => (item.1, item.2.2)) =
      (items.map fun item => (item.1, item.2.2)).mergeSort (fun a b => a.1 ≤ b.1) :=
    List.map_mergeSort fun _ _ _ _ => rfl
  have hmembers : List.Forall₂ (Member part)
      (sorted.map fun item => writeSpreadMember item.1 item.2.1)
      (sorted.map fun item => (item.1, item.2.2)) := by
    rw [List.forall₂_map_left_iff, List.forall₂_map_right_iff, List.forall₂_same]
    intro item hitem
    exact member_writeSpreadMember (hitems item (List.mem_mergeSort.mp hitem))
  obtain ⟨body, hparts, hwrite⟩ := exists_parts_writeSpread hmembers depth '\x7b' '\x7d'
  rw [sortedObject, ← hvalues, Report.spreadObject, ← htexts, List.map_map]
  exact hwrite ▸ .object hparts

theorem scalar_figure {n : Nat} (h : n < UInt64.size) :
    Scalar (toString n).toList (.integer n) := by
  have hn : (UInt64.ofNat n).toNat = n := UInt64.toNat_ofNat_of_lt' h
  have hcount := scalar_count (UInt64.ofNat n)
  rw [hn] at hcount
  have hdigits : (toString n).toList = Decimal.digits n := by
    simp [Decimal.digits, Nat.repr]
  rwa [hdigits]

end Json

open Json (Value Document)

namespace Report

/-- What a report says as a JSON value. -/
def value (r : Report) (stamp : Stamp) : Value :=
  Json.sortedObject [
    ("regions", Json.sortedObject (r.regions.map fun (region, tokens) =>
      (region.mountId, .array (tokens.map .string)))),
    ("session", Json.sortedObject [
      ("session_id", .string stamp.session),
      ("started_at", .string stamp.startedAt),
      ("ended_at", .string stamp.endedAt),
      ("frames", .integer r.summary.frames),
      ("applied", .integer r.summary.applied),
      ("dropped", .integer r.summary.dropped),
      ("disconnects", .integer r.summary.disconnects)])]

theorem isValue_regions (r : Report) :
    Json.IsValue 2
      (spreadObject 1 (r.regions.map fun (region, tokens) =>
        (region.mountId, Json.writeSpread 2 '[' ']' (tokens.map Json.writeString))))
      (Json.sortedObject (r.regions.map fun (region, tokens) =>
        (region.mountId, .array (tokens.map .string)))) := by
  refine Json.composed_spreadObject ?_ 1
  rw [Json.Written, List.forall₂_map_left_iff, List.forall₂_map_right_iff, List.forall₂_same]
  rintro ⟨region, tokens⟩ -
  refine ⟨rfl, Json.composed_writeSpread ?_ 2⟩
  rw [List.forall₂_map_left_iff, List.forall₂_map_right_iff, List.forall₂_same]
  exact fun token _ => Json.scalar_string token

theorem isValue_session (summary : Summary) (stamp : Stamp)
    (hframes : summary.frames < UInt64.size) (happlied : summary.applied < UInt64.size)
    (hdropped : summary.dropped < UInt64.size)
    (hdisconnects : summary.disconnects < UInt64.size) :
    Json.IsValue 2
      (spreadObject 1 [
        ("session_id", Json.writeString stamp.session),
        ("started_at", Json.writeString stamp.startedAt),
        ("ended_at", Json.writeString stamp.endedAt),
        ("frames", (toString summary.frames).toList),
        ("applied", (toString summary.applied).toList),
        ("dropped", (toString summary.dropped).toList),
        ("disconnects", (toString summary.disconnects).toList)])
      (Json.sortedObject [
        ("session_id", .string stamp.session),
        ("started_at", .string stamp.startedAt),
        ("ended_at", .string stamp.endedAt),
        ("frames", .integer summary.frames),
        ("applied", .integer summary.applied),
        ("dropped", .integer summary.dropped),
        ("disconnects", .integer summary.disconnects)]) := by
  have hstring (s : String) : Json.IsValue 1 (Json.writeString s) (.string s) :=
    Json.isValue_of_scalar (Json.scalar_string s) 1
  have hfigure {n : Nat} (h : n < UInt64.size) :
      Json.IsValue 1 (toString n).toList (.integer n) :=
    Json.isValue_of_scalar (Json.scalar_figure h) 1
  refine Json.composed_spreadObject ?_ 1
  simp only [Json.Written, List.forall₂_cons, true_and, List.forall₂_nil_left_iff, and_true]
  exact ⟨hstring _, hstring _, hstring _, hfigure hframes, hfigure happlied, hfigure hdropped,
    hfigure hdisconnects⟩

/-- A report is written as a JSON text, whatever the tokens are. -/
theorem document_write (r : Report) (stamp : Stamp) (hframes : r.summary.frames < UInt64.size)
    (happlied : r.summary.applied < UInt64.size) (hdropped : r.summary.dropped < UInt64.size)
    (hdisconnects : r.summary.disconnects < UInt64.size) :
    Document 3 (r.write stamp).toList (r.value stamp) := by
  have hregions := r.isValue_regions
  have hsession := isValue_session r.summary stamp hframes happlied hdropped hdisconnects
  have hwritten : Json.Written (Json.IsValue 2) [("regions", _), ("session", _)]
      [("regions", _), ("session", _)] :=
    .cons ⟨rfl, hregions⟩ (.cons ⟨rfl, hsession⟩ .nil)
  have hvalue := Json.composed_spreadObject hwritten 0
  refine ⟨[], (r.write stamp).toList, [], List.forall_mem_nil _, ?_, List.forall_mem_nil _, ?_⟩
  · rw [write, String.toList_ofList]
    exact hvalue
  · simp

end Report

end LiveFeed
