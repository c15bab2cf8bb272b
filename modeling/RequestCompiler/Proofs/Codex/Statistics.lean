import RequestCompiler.Listing
import RequestCompiler.Proofs.Codex.Search
import RequestCompiler.Proofs.Codex.Tally

/-!
# Statistics of the codex

The counts of a statistic are those of a tally over the entries, so they can be held against the lookups. A
type is counted once for each entry that a lookup of it answers, and modules and types add up to the number of
entries. A tag is counted once for each time it occurs, so its count is the number of entries that carry it
exactly if no entry carries it twice (`statistics_agree_iff`).

The keys of each statistic are the texts that occur. They are listed in the order of fields, which is that of
code units exactly if no array index among them is above a text that it comes ahead of
(`statistics_keys_iff`).
-/

namespace RequestCompiler.Codex

section Lookups

/-- Of the entries, those that carry a tag are at most as many as its occurrences, and as many exactly if none
of them carries it twice. -/
theorem carriers_le_count (es : List Entry) (t : Text) :
    (es.filter fun e => e.tags.contains t).length ≤ (es.flatMap Entry.tags).count t ∧
      ((es.flatMap Entry.tags).count t = (es.filter fun e => e.tags.contains t).length ↔
        ∀ e ∈ es, e.tags.count t ≤ 1) := by
  induction es with
  | nil => exact ⟨Nat.le_refl 0, iff_of_true rfl nofun⟩
  | cons e es ih =>
    obtain ⟨le, equal⟩ := ih
    rw [List.flatMap_cons, List.count_append, List.forall_mem_cons, ← equal]
    by_cases carries : t ∈ e.tags
    · have some : 0 < e.tags.count t := List.count_pos_iff.2 carries
      rw [List.filter_cons_of_pos (by simpa using carries), List.length_cons]
      omega
    · have none : e.tags.count t = 0 := List.count_eq_zero.2 carries
      rw [List.filter_cons_of_neg (by simpa using carries)]
      omega

/-- Types are counted as often as their lookup answers entries, and modules and types once for each entry in
all. Tags are counted as often as their lookup answers entries exactly if no entry carries them twice. -/
theorem statistics_agree_iff (c : Codex) :
    (∀ t, countOf c.statistics.byTag t = (c.byTag t).length ↔ ∀ e ∈ c.entries, e.tags.count t ≤ 1) ∧
      (∀ t, countOf c.statistics.byType t = (c.byType t).length) ∧
      (c.statistics.byModule.map Prod.snd).sum = c.statistics.total ∧
      (c.statistics.byType.map Prod.snd).sum = c.statistics.total ∧
      c.statistics.total = c.entries.length := by
  have modules : Counted (c.entries.map Entry.moduleName) c.statistics.byModule := counted_tally _
  have types : Counted (c.entries.map Entry.kind) c.statistics.byType := counted_tally _
  have tags : Counted (c.entries.flatMap Entry.tags) c.statistics.byTag := counted_tally _
  refine ⟨?_, ?_, ?_, ?_, rfl⟩
  · intro t
    rw [tags.each]
    exact (carriers_le_count c.entries t).2
  · intro t
    rw [types.each, count_map]
    rfl
  · rw [modules.sum, List.length_map]
    rfl
  · rw [types.sum, List.length_map]
    rfl

/-- A document of one entry with a tag that it has twice. -/
def twiceTaggedDocument : Json :=
  .object [("modules", .arr [.object [("id", .str "x-1"), ("tags", .texts ["Core", "Core"])]])]

theorem not_always_agree : ¬∀ (document : Json) (c : Codex) (t : Text),
    ofDocument document = .ok c → countOf c.statistics.byTag t = (c.byTag t).length := by
  intro always
  have built : ofDocument twiceTaggedDocument = .ok ⟨[tagged "x-1" ["Core", "Core"]]⟩ := by decide +kernel
  have agree := always _ _ "Core" built
  have counted : Counted ["Core", "Core"] (tally ["Core", "Core"]) := counted_tally _
  have twice : countOf (tally ["Core", "Core"]) "Core" = 2 := by
    rw [counted.each]
    decide
  exact absurd (twice.symm.trans agree) (by decide +kernel)

end Lookups

section Keys

/-- The keys of counts are the texts that occur. They ascend exactly if no text that occurs, but comes ahead of
another one as an array index, is above that one. -/
structure KeysTell (counts : Fields Nat) (occurs : Text → Prop) : Prop where
  distinct : (counts.map Prod.fst).Nodup
  occurring : ∀ t, t ∈ counts.map Prod.fst ↔ occurs t
  ascending : (counts.map Prod.fst).Pairwise (· < ·) ↔
    ∀ k l, occurs k → occurs l → Fields.ComesFirst k l → k < l

/-- The lines of counts: their label, and for each key in turn a line with the key and its count. -/
def Shows (label : Text) (counts : Fields Nat) (lines : List Text) : Prop :=
  ∃ rows, lines = (label ++ ":") :: rows ∧
    List.Forall₂ (fun p row => ∃ n, row = Listing.gap ++ p.1 ++ Text.repeated (n + 2) ' ' ++ Text.ofNat p.2)
      counts rows

theorem keysTell_tally {ts : List Text} {occurs : Text → Prop} (same : ∀ t, t ∈ ts ↔ occurs t) :
    KeysTell (tally ts) occurs where
  distinct := (counted_tally ts).distinct
  occurring := by
    intro t
    rw [(counted_tally ts).occurring, same]
  ascending := by
    rw [tally_ascending_iff]
    simp only [same]
    exact ⟨fun h k l hk hl => h k hk l hl, fun h k hk l hl => h k l hk hl⟩

theorem shows_counts (label : Text) (counts : Fields Nat) : Shows label counts (Listing.counts label counts) := by
  refine ⟨_, rfl, ?_⟩
  rw [List.forall₂_map_right_iff, List.forall₂_same]
  intro p _
  have gap : Listing.gap = Text.repeated 2 ' ' := by decide
  refine ⟨Listing.widest (counts.map Prod.fst) - p.1.length, ?_⟩
  rw [Text.padEnd, Text.repeated, Text.repeated, ← List.replicate_append_replicate]
  simp only [List.append_assoc]
  rw [gap]
  rfl

/-- Each statistic has the texts that occur for its keys, in ascending order exactly as far as array indices allow
it. The listing shows the keys in the order of the statistic. -/
theorem statistics_keys_iff (c : Codex) :
    KeysTell c.statistics.byModule (fun t => ∃ e ∈ c.entries, e.moduleName = t) ∧
      KeysTell c.statistics.byType (fun t => ∃ e ∈ c.entries, e.kind = t) ∧
      KeysTell c.statistics.byTag (fun t => ∃ e ∈ c.entries, t ∈ e.tags) ∧
      ∃ modules types tags, Shows "by module" c.statistics.byModule modules ∧
        Shows "by type" c.statistics.byType types ∧ Shows "by tag" c.statistics.byTag tags ∧
        Listing.statistics c.statistics =
          ["total: " ++ Text.ofNat c.statistics.total] ++ modules ++ types ++ tags := by
  refine ⟨keysTell_tally ?_, keysTell_tally ?_, keysTell_tally ?_, ?_⟩
  · exact fun t => List.mem_map
  · exact fun t => List.mem_map
  · exact fun t => List.mem_flatMap
  · exact ⟨_, _, _, shows_counts _ _, shows_counts _ _, shows_counts _ _, rfl⟩

/-- A document of one entry with two tags that are array indices. -/
def indexTaggedDocument : Json :=
  .object [("modules", .arr [.object [("id", .str "x-1"), ("tags", .texts ["10", "9"])]])]

theorem not_always_ascending : ¬∀ (document : Json) (c : Codex),
    ofDocument document = .ok c → (c.statistics.byTag.map Prod.fst).Pairwise (· < ·) := by
  intro always
  have built : ofDocument indexTaggedDocument = .ok ⟨[tagged "x-1" ["10", "9"]]⟩ := by decide +kernel
  have ascending : ((tally ["10", "9"]).map Prod.fst).Pairwise (· < ·) := always _ _ built
  rw [tally_ascending_iff] at ascending
  have first : Fields.ComesFirst "9" "10" := Fields.precedes_iff.1 (by decide +kernel)
  have below : Text.ofString "9" < Text.ofString "10" := by
    apply ascending _ _ _ _ first
    · exact List.mem_cons_of_mem _ List.mem_cons_self
    · exact List.mem_cons_self
  exact absurd below (by decide)

end Keys

end RequestCompiler.Codex
