import RequestCompiler.Codex
import RequestCompiler.Proofs.Text.Joined
import RequestCompiler.Proofs.Text.Lower
import RequestCompiler.Proofs.Text.Occurrence

/-!
# Searching the codex

The loop of a search keeps one invariant: with what it has found it answers that, and then the first hits
among the entries ahead, up to the limit (`collectHits_eq`). So a search for a valid query answers a start of
`hits`, the entries that the query occurs in, and the limit alone says how long a start (`search_eq`,
`search_limits`).

The tags are searched joined, so a query can also be found across tags. `mem_search_iff` tells this apart
from an occurrence in one field, and without a space in the query only the latter is left.
-/

namespace RequestCompiler.Codex

section Bounds

/-- The query is neither blank nor too long once it is trimmed. -/
def ValidQuery (q : Text) : Prop := q.trim ≠ [] ∧ q.trim.length ≤ 200

instance (q : Text) : Decidable (ValidQuery q) := inferInstanceAs (Decidable (_ ∧ _))

/-- The number is the positive integer. -/
def Asks (max : Binary64) (n : Nat) : Prop :=
  max.isFinite = true ∧ max.negative = false ∧ max.numerator = n * max.denominator ∧ 1 ≤ n

instance (max : Binary64) (n : Nat) : Decidable (Asks max n) := inferInstanceAs (Decidable (_ ∧ _))

/-- The text is the other one with blanks before and behind it. -/
def Padded (core t : Text) : Prop :=
  ∃ x y : Text, x.isBlankText = true ∧ y.isBlankText = true ∧ t = x ++ core ++ y

variable {q core : Text} {max : Binary64} {n : Nat}

theorem query_of_valid (valid : ValidQuery q) : query q = .ok q.trim := by
  have short : ¬maxQueryLength < q.trim.length := Nat.not_lt.2 valid.2
  rw [query, if_neg (by simpa using valid.1), if_neg short]

theorem query_of_not_valid (invalid : ¬ValidQuery q) : ∃ e, query q = .error e := by
  unfold query
  split
  · exact ⟨_, rfl⟩
  split
  · exact ⟨_, rfl⟩
  · rename_i solid short
    exact absurd ⟨by simpa using solid, Nat.not_lt.1 short⟩ invalid

/-- A number asks for the positive integer that it is. -/
theorem asks_iff : Asks max n ↔ max.toInt? = some (n : Int) ∧ 1 ≤ n := by
  have some_den : 0 < max.denominator := Nat.two_pow_pos _
  unfold Asks Binary64.toInt? Binary64.floor?
  constructor
  · rintro ⟨finite, unsigned, whole, positive⟩
    have dividing : max.numerator % max.denominator = 0 := by rw [whole, Nat.mul_mod_left]
    rw [if_pos dividing, if_pos finite, unsigned, whole, Nat.mul_div_cancel n some_den]
    exact ⟨rfl, positive⟩
  · rintro ⟨integer, positive⟩
    split at integer
    · rename_i dividing
      split at integer
      · rename_i finite
        have value := Option.some.inj integer
        cases sign : max.negative with
        | true =>
          have magnitude := Int.natCast_nonneg ((max.numerator + max.denominator - 1) / max.denominator)
          rw [sign, if_pos rfl] at value
          omega
        | false =>
          rw [sign, if_neg Bool.false_ne_true, Int.natCast_inj] at value
          refine ⟨finite, rfl, ?_, positive⟩
          rw [← value, Nat.div_mul_cancel (Nat.dvd_of_mod_eq_zero dividing)]
      · nomatch integer
    · nomatch integer

theorem searchLimit_of_asks (asks : Asks max n) : searchLimit max = .ok (min n 100) := by
  obtain ⟨integer, positive⟩ := asks_iff.1 asks
  have least : ¬(n : Int) < 1 := by omega
  simp only [searchLimit, integer, if_neg least, Int.toNat_natCast]
  rfl

theorem searchLimit_of_not_asks (bad : ¬∃ k, Asks max k) :
    searchLimit max = .error (.maxNotPositive max) := by
  unfold searchLimit
  split
  · rename_i i integer
    split
    · rfl
    · have positive : ((i.toNat : Nat) : Int) = i := Int.toNat_of_nonneg (by omega)
      exact absurd ⟨i.toNat, asks_iff.2 ⟨by rw [integer, positive], by omega⟩⟩ bad
  · rfl

theorem Padded.trim_eq {t : Text} (padded : Padded core t) : t.trim = core.trim := by
  obtain ⟨x, y, before, behind, rfl⟩ := padded
  exact Text.trim_surrounded (Text.isBlankText_iff.1 before) (Text.isBlankText_iff.1 behind)

end Bounds

section Hits

/-- The needle occurs in the title, in the description or in the tags joined by spaces, all in lower case. -/
def Hit (needle : Text) (e : Entry) : Prop :=
  needle <:+: e.title.lower ∨ needle <:+: e.description.lower ∨
    needle <:+: Text.join [unit ' '] (e.tags.map Text.lower)

variable {needle : Text} {e : Entry}

theorem isHit_iff : isHit needle e = true ↔ Hit needle e := by
  simp only [isHit, Hit, Bool.or_eq_true, Text.contains_iff, ← Text.lower_join, or_assoc]
  rfl

instance (needle : Text) (e : Entry) : Decidable (Hit needle e) := decidable_of_iff _ isHit_iff

/-- The entries that a query occurs in, in the order of the document. -/
def hits (c : Codex) (q : Text) : List Entry := c.entries.filter fun e => Hit q.trim.lower e

/-- The loop invariant: what is found stays, and the first hits ahead fill what the limit leaves. -/
theorem collectHits_eq {limit : Nat} {found es : List Entry} (room : found.length < limit) :
    collectHits needle limit found es = found ++ (es.filter (isHit needle)).take (limit - found.length) := by
  induction es generalizing found with
  | nil => rw [collectHits, List.filter_nil, List.take_nil, List.append_nil]
  | cons e r ih =>
    by_cases hit : isHit needle e = true
    · obtain ⟨left, rfl⟩ := Nat.exists_eq_add_of_lt room
      have remaining : found.length + left + 1 - found.length = left + 1 := by omega
      rw [collectHits, if_pos hit, List.filter_cons_of_pos hit, remaining, List.take_succ_cons]
      by_cases full : found.length + left + 1 ≤ (found ++ [e]).length
      · have none : left = 0 := by simpa using full
        rw [if_pos full, none, List.take_zero]
      · have ahead : found.length + left + 1 - (found ++ [e]).length = left := by
          rw [List.length_append, List.length_singleton]
          omega
        rw [if_neg full, ih (Nat.not_le.1 full), ahead, List.append_assoc, List.singleton_append]
    · rw [collectHits, if_neg hit, List.filter_cons_of_neg hit]
      exact ih room

variable {c : Codex} {q : Text} {max : Binary64} {n : Nat}

theorem search_eq (valid : ValidQuery q) (asks : Asks max n) :
    c.search q max = .ok ((c.hits q).take (min n 100)) := by
  have room : ([] : List Entry).length < min n 100 := lt_min asks.2.2.2 (by decide)
  have same : c.entries.filter (isHit q.trim.lower) = c.hits q :=
    List.filter_congr fun e _ => Bool.eq_iff_iff.2 (isHit_iff.trans decide_eq_true_iff.symm)
  rw [search, query_of_valid valid, searchLimit_of_asks asks]
  change Except.ok (collectHits q.trim.lower (min n 100) [] c.entries) = _
  rw [collectHits_eq room, same, List.nil_append, List.length_nil, Nat.sub_zero]

theorem search_of_refused (refused : ¬ValidQuery q ∨ ¬∃ k, Asks max k) :
    ∃ e, ∀ c : Codex, c.search q max = .error e := by
  by_cases valid : ValidQuery q
  · have bad := refused.resolve_left (not_not_intro valid)
    refine ⟨.maxNotPositive max, fun c => ?_⟩
    rw [search, query_of_valid valid, searchLimit_of_not_asks bad]
    rfl
  · obtain ⟨e, error⟩ := query_of_not_valid valid
    refine ⟨e, fun c => ?_⟩
    rw [search, error]
    rfl

end Hits

/-- An entry that has only an id and tags. -/
def tagged (id : Text) (tags : List Text) : Entry where
  id := id
  url := []
  title := []
  description := []
  moduleName := []
  kind := []
  tags := tags
  content := []
  createdTime := []
  lastEditedTime := []

section Limits

/-- A search answers the first hits in the order of the document. Of two limits the larger one only goes on
behind the answer of the smaller, twenty is the limit that is taken without one, and blanks around a query do
not matter. A query or a limit out of bounds is an error, whatever the codex. -/
theorem search_limits (c : Codex) {q : Text} (valid : ValidQuery q) {m n : Nat} (le : m ≤ n)
    {low high : Binary64} (asksLow : Asks low m) (asksHigh : Asks high n) :
    c.search q high = .ok ((c.hits q).take (min n 100)) ∧
      (∃ short long, c.search q low = .ok short ∧ c.search q high = .ok long ∧ short <+: long) ∧
      (∀ twenty, Asks twenty 20 → c.search q defaultMaxResults = c.search q twenty) ∧
      (∀ core q', Padded core q → Padded core q' → c.search q' high = c.search q high) ∧
      ∀ q' max, (¬ValidQuery q' ∨ ¬∃ k, Asks max k) → ∃ e, ∀ c' : Codex, c'.search q' max = .error e := by
  have short : c.search q low = .ok ((c.hits q).take (min m 100)) := search_eq valid asksLow
  have long : c.search q high = .ok ((c.hits q).take (min n 100)) := search_eq valid asksHigh
  refine ⟨long, ⟨_, _, short, long, ?_⟩, ?_, ?_, fun _ _ => search_of_refused⟩
  · apply List.take_prefix_take_left
    omega
  · intro twenty asks
    have default : Asks defaultMaxResults 20 := by decide +kernel
    rw [search_eq valid default, search_eq valid asks]
  · intro core q' padded padded'
    have same : q'.trim = q.trim := padded'.trim_eq.trans padded.trim_eq.symm
    rw [search, search, query, query, same]

/-- Three entries of which the first and the last have the tag that is searched for. -/
def taggedCodex : Codex where
  entries := [tagged "x-1" ["Core", "Review"], tagged "x-2" ["Draft"], tagged "x-3" ["CORE"]]

theorem search_limits_tagged :
    taggedCodex.search " core" (Binary64.ofNat 1) = .ok [tagged "x-1" ["Core", "Review"]] ∧
      taggedCodex.search " core" (Binary64.ofNat 2) =
        .ok [tagged "x-1" ["Core", "Review"], tagged "x-3" ["CORE"]] ∧
      ∃ short long, taggedCodex.search " core" (Binary64.ofNat 1) = .ok short ∧
        taggedCodex.search " core" (Binary64.ofNat 2) = .ok long ∧ short <+: long := by
  have valid : ValidQuery " core" := by decide +kernel
  have one : Asks (Binary64.ofNat 1) 1 := by decide +kernel
  have two : Asks (Binary64.ofNat 2) 2 := by decide +kernel
  have hits : taggedCodex.hits " core" = [tagged "x-1" ["Core", "Review"], tagged "x-3" ["CORE"]] := by
    decide +kernel
  obtain ⟨first, -⟩ := search_limits taggedCodex valid le_rfl one one
  obtain ⟨both, cut, -⟩ := search_limits taggedCodex valid (by decide) one two
  rw [hits] at first both
  exact ⟨first, both, cut⟩

end Limits

section Fields

/-- The needle occurs in the title, in the description or in one of the tags, in lower case. -/
def InField (needle : Text) (e : Entry) : Prop :=
  needle <:+: e.title.lower ∨ needle <:+: e.description.lower ∨ ∃ t ∈ e.tags, needle <:+: t.lower

instance (needle : Text) (e : Entry) : Decidable (InField needle e) := inferInstanceAs (Decidable (_ ∨ _))

variable {c : Codex} {q needle : Text} {e : Entry}

theorem hit_iff (solid : needle ≠ []) :
    Hit needle e ↔ InField needle e ∨ Text.Straddles (unit ' ') (e.tags.map Text.lower) needle := by
  rw [Hit, Text.infix_join_iff solid, InField, or_assoc, or_assoc]
  simp only [List.mem_map, exists_exists_and_eq_and]

theorem lower_trim_ne_nil (valid : ValidQuery q) : q.trim.lower ≠ [] := by
  intro none
  obtain ⟨u, r, text⟩ := List.exists_cons_of_ne_nil valid.1
  have blank := Text.blank_of_lower (by rw [none]; nofun) u (text ▸ List.mem_cons_self)
  have solid := Text.isBlank_head_trim u (by rw [text]; rfl)
  exact absurd (blank.symm.trans solid) (by decide)

/-- An entry of a codex that a search can answer whole is found exactly if the query occurs in one of its fields
or goes from one tag to a later one. The latter takes a space in the query. -/
theorem mem_search_iff (few : c.entries.length ≤ 100) (valid : ValidQuery q) (member : e ∈ c.entries) :
    ∃ found, c.search q (Binary64.ofNat 100) = .ok found ∧
      (e ∈ found ↔
        InField q.trim.lower e ∨ Text.Straddles (unit ' ') (e.tags.map Text.lower) q.trim.lower) ∧
      (unit ' ' ∉ q.trim.lower → (e ∈ found ↔ InField q.trim.lower e)) := by
  have asks : Asks (Binary64.ofNat 100) 100 := by decide +kernel
  have all : (c.hits q).take (min 100 100) = c.hits q :=
    List.take_of_length_le ((List.length_filter_le _ _).trans few)
  have found : e ∈ c.hits q ↔
      InField q.trim.lower e ∨ Text.Straddles (unit ' ') (e.tags.map Text.lower) q.trim.lower := by
    rw [hits, List.mem_filter, and_iff_right member, decide_eq_true_iff, hit_iff (lower_trim_ne_nil valid)]
  refine ⟨c.hits q, ?_, found, ?_⟩
  · rw [search_eq valid asks, all]
  · intro single
    rw [found]
    apply or_iff_left
    intro straddles
    exact single straddles.mem_sep

/-- The query is the end of one tag and the start of the next. -/
theorem straddles_tags :
    Text.Straddles (unit ' ') ([Text.ofString "Core", Text.ofString "Review"].map Text.lower)
      (Text.trim "ore REV").lower :=
  ⟨[], "core", [], "review", [], "ore", "rev", by decide +kernel, by decide +kernel, by decide +kernel,
    by decide +kernel⟩

theorem mem_search_iff_tagged :
    (∃ found, taggedCodex.search " review" (Binary64.ofNat 100) = .ok found ∧
      tagged "x-1" ["Core", "Review"] ∈ found ∧ tagged "x-2" ["Draft"] ∉ found) ∧
      ∃ found, taggedCodex.search "ore REV" (Binary64.ofNat 100) = .ok found ∧
        tagged "x-1" ["Core", "Review"] ∈ found ∧
          ¬InField (Text.trim "ore REV").lower (tagged "x-1" ["Core", "Review"]) := by
  have few : taggedCodex.entries.length ≤ 100 := by decide
  constructor
  · have valid : ValidQuery " review" := by decide +kernel
    have word : unit ' ' ∉ (Text.trim " review").lower := by decide +kernel
    have first : InField (Text.trim " review").lower (tagged "x-1" ["Core", "Review"]) := by decide +kernel
    have second : ¬InField (Text.trim " review").lower (tagged "x-2" ["Draft"]) := by decide +kernel
    obtain ⟨found, answer, -, single⟩ := mem_search_iff few valid List.mem_cons_self
    obtain ⟨found', answer', -, single'⟩ :=
      mem_search_iff few valid (List.mem_cons_of_mem _ List.mem_cons_self)
    obtain rfl := Except.ok.inj (answer.symm.trans answer')
    exact ⟨found, answer, (single word).2 first, fun member => second ((single' word).1 member)⟩
  · have valid : ValidQuery "ore REV" := by decide +kernel
    obtain ⟨found, answer, hit, -⟩ := mem_search_iff few valid List.mem_cons_self
    exact ⟨found, answer, hit.2 (.inr straddles_tags), by decide +kernel⟩

/-- A document of one entry with two tags. -/
def taggedDocument : Json :=
  .object [("modules", .arr [.object [("id", .str "x-1"), ("tags", .texts ["Core", "Review"])]])]

theorem not_always_in_field : ¬∀ (document : Json) (c : Codex) (q : Text) (e : Entry),
    ofDocument document = .ok c → c.entries.length ≤ 100 → ValidQuery q → e ∈ c.entries →
      ∃ found, c.search q (Binary64.ofNat 100) = .ok found ∧ (e ∈ found ↔ InField q.trim.lower e) := by
  intro always
  have built : ofDocument taggedDocument = .ok ⟨[tagged "x-1" ["Core", "Review"]]⟩ := by decide +kernel
  obtain ⟨found, answer, same⟩ := always _ _ "core review" _ built (by decide)
    (by decide +kernel) List.mem_cons_self
  have across : (⟨[tagged "x-1" ["Core", "Review"]]⟩ : Codex).search "core review" (Binary64.ofNat 100) =
      .ok [tagged "x-1" ["Core", "Review"]] := by
    decide +kernel
  obtain rfl := Except.ok.inj (across.symm.trans answer)
  have inNone : ¬InField (Text.trim "core review").lower (tagged "x-1" ["Core", "Review"]) := by decide +kernel
  exact inNone (same.1 List.mem_cons_self)

end Fields

end RequestCompiler.Codex
