import RequestCompiler.Listing
import RequestCompiler.Proofs.Codex.Search
import RequestCompiler.Proofs.Text.Context

/-!
# Cut texts

`truncate` cuts by code units, so a cut may fall into a surrogate pair. `truncated` says what is left of any text,
and `wellFormed_truncate_iff` that a text without lone surrogates stays one exactly if the cut is clean
(`CleanCut`). The lines that show an entry are such texts but for its description and its content, which are
cut where they are long (`whole_entry_iff`).
-/

namespace RequestCompiler.Codex

/-- The text is whole under the limit; or it is cut in front of the suffix, or the suffix is cut if the limit
does not exceed it, and the cut goes through no surrogate pair. -/
def CleanCut (t suffix : Text) (limit : Nat) : Prop :=
  t.length ≤ limit ∨
    (suffix.length < limit ∧
      Text.Apart (t.take (limit - suffix.length)) (t.drop (limit - suffix.length))) ∨
    (limit ≤ suffix.length ∧ Text.Apart (suffix.take limit) (suffix.drop limit))

instance (t suffix : Text) (limit : Nat) : Decidable (CleanCut t suffix limit) :=
  inferInstanceAs (Decidable (_ ∨ _))

/-- What a text of at most `limit` units is that stands for `t` and ends in the suffix. -/
structure Truncated (t suffix : Text) (limit : Nat) (cut : Text) : Prop where
  length : cut.length = min t.length limit
  fits : t.length ≤ limit → cut = t
  ends : limit < t.length → suffix.length < limit → ∃ s, s <+: t ∧ cut = s ++ suffix
  short : limit < t.length → limit ≤ suffix.length → cut <+: suffix

section Truncate

variable {t suffix : Text} {limit : Nat}

theorem truncate_of_fits (fits : t.length ≤ limit) : truncate t limit suffix = t :=
  if_pos (by omega)

theorem truncate_of_short (long : limit < t.length) (short : limit ≤ suffix.length) :
    truncate t limit suffix = suffix.take limit := by
  rw [truncate, if_neg (by omega), if_pos (by omega), Int.toNat_natCast]

theorem truncate_of_long (long : limit < t.length) (room : suffix.length < limit) :
    truncate t limit suffix = t.take (limit - suffix.length) ++ suffix := by
  have kept : ((limit : Int) - suffix.length).toNat = limit - suffix.length := by omega
  rw [truncate, if_neg (by omega), if_neg (by omega), kept]

theorem truncated (t suffix : Text) (limit : Nat) : Truncated t suffix limit (truncate t limit suffix) where
  length := by
    rcases Nat.lt_or_ge limit t.length with long | fits
    · rcases Nat.lt_or_ge suffix.length limit with room | short
      · rw [truncate_of_long long room, List.length_append, List.length_take]
        omega
      · rw [truncate_of_short long short, List.length_take]
        omega
    · rw [truncate_of_fits fits, Nat.min_eq_left fits]
  fits := truncate_of_fits
  ends long room := ⟨_, List.take_prefix _ t, truncate_of_long long room⟩
  short long short := truncate_of_short long short ▸ List.take_prefix limit suffix

/-- A start of a text without lone surrogates is without them if the cut goes through no pair. -/
theorem wellFormed_take_iff (whole : t.wellFormed = true) (n : Nat) :
    Text.wellFormed (t.take n) = true ↔ Text.Apart (t.take n) (t.drop n) :=
  Text.wellFormed_left_iff (by rwa [List.take_append_drop])

/-- The suffix takes nothing away: what stands in front of it is as well formed as the whole. -/
theorem wellFormed_append_suffix (whole : suffix.wellFormed = true) :
    (t ++ suffix).wellFormed = true ↔ t.wellFormed = true := by
  constructor
  · intro both
    exact (Text.wellFormed_left_iff both).2 (Text.apart_of_wellFormed whole t []).1
  · intro first
    rw [Text.wellFormed_append first, whole]

/-- A cut leaves a lone surrogate exactly if it goes through a pair. -/
theorem wellFormed_truncate_iff (whole : t.wellFormed = true) (wholeSuffix : suffix.wellFormed = true) :
    (truncate t limit suffix).wellFormed = true ↔ CleanCut t suffix limit := by
  unfold CleanCut
  rcases Nat.lt_or_ge limit t.length with long | fits
  · rcases Nat.lt_or_ge suffix.length limit with room | short
    · rw [truncate_of_long long room, wellFormed_append_suffix wholeSuffix, wellFormed_take_iff whole]
      simp [Nat.not_le.2 long, room, Nat.not_le.2 room]
    · rw [truncate_of_short long short, wellFormed_take_iff wholeSuffix]
      simp [Nat.not_le.2 long, Nat.not_lt.2 short, short]
  · rw [truncate_of_fits fits, whole]
    simp [fits]

end Truncate

/-- The texts of the entry that are shown hold no lone surrogate. -/
structure Entry.Whole (e : Entry) : Prop where
  title : e.title.wellFormed = true
  moduleName : e.moduleName.wellFormed = true
  kind : e.kind.wellFormed = true
  tags : ∀ t ∈ e.tags, t.wellFormed = true
  url : e.url.wellFormed = true
  description : e.description.wellFormed = true
  content : e.content.wellFormed = true

section Lines

theorem wellFormed_orDash {t : Text} (whole : t.wellFormed = true) : (Listing.orDash t).wellFormed = true := by
  unfold Listing.orDash
  split
  · rfl
  · exact whole

theorem wellFormed_paragraph_iff {t : Text} (limit : Nat) :
    (∀ line ∈ Listing.paragraph t limit, line.wellFormed = true) ↔
      (truncate t limit ellipsis).wellFormed = true := by
  unfold Listing.paragraph
  split
  · rename_i empty
    obtain rfl := List.isEmpty_iff.1 empty
    rw [truncate_of_fits (Nat.zero_le limit)]
    exact iff_of_true nofun rfl
  · simp [Text.wellFormed]

/-- All lines that show an entry are well formed exactly if its description and its content are cut cleanly. -/
theorem whole_entry_iff {e : Entry} (whole : e.Whole) :
    (∀ line ∈ Listing.entry e, line.wellFormed = true) ↔
      CleanCut e.description ellipsis 320 ∧ CleanCut e.content ellipsis 4000 := by
  have heading : ∀ line ∈ [e.title, e.moduleName ++ " · " ++ Listing.orDash e.kind],
      line.wellFormed = true := by
    have dot : Text.wellFormed " · " = true := by decide
    have second : (e.moduleName ++ " · " ++ Listing.orDash e.kind).wellFormed = true := by
      rw [List.append_assoc, Text.wellFormed_append whole.moduleName, Text.wellFormed_append dot,
        wellFormed_orDash whole.kind]
    exact List.forall_mem_cons.2 ⟨whole.title, List.forall_mem_singleton.2 second⟩
  have tags : ∀ line ∈ (if e.tags.isEmpty then [] else [Text.ofString "tags: " ++ Text.join ", " e.tags]),
      line.wellFormed = true := by
    have label : Text.wellFormed "tags: " = true := by decide
    have between : Text.wellFormed ", " = true := by decide
    have joined := Text.wellFormed_join between whole.tags
    split
    · exact nofun
    · simpa [Text.wellFormed_append label] using joined
  have url : ∀ line ∈ (if e.url.isEmpty then [] else [e.url]), line.wellFormed = true := by
    split
    · exact nofun
    · simpa using whole.url
  have description := wellFormed_paragraph_iff (t := e.description) 320
  have content := wellFormed_paragraph_iff (t := e.content) 4000
  rw [wellFormed_truncate_iff whole.description (by decide)] at description
  rw [wellFormed_truncate_iff whole.content (by decide)] at content
  rw [Listing.entry, List.forall_mem_append, List.forall_mem_append, List.forall_mem_append,
    List.forall_mem_append, Listing.descriptionLimit, Listing.contentLimit, ← description, ← content]
  constructor
  · rintro ⟨⟨-, shown⟩, rest⟩
    exact ⟨shown, rest⟩
  · rintro ⟨shown, rest⟩
    exact ⟨⟨⟨⟨heading, tags⟩, url⟩, shown⟩, rest⟩

end Lines

/-- A cut text has the length that the limit leaves it, and is the text, or a start of it in front of the whole
suffix, or a start of the suffix. Without lone surrogates in the text and the suffix there is one in the cut text
exactly if a pair is cut; and so it is for the lines that show an entry. -/
theorem truncated_clean_iff :
    (∀ (t suffix : Text) (limit : Nat), t.wellFormed = true → suffix.wellFormed = true →
      Truncated t suffix limit (truncate t limit suffix) ∧
        ((truncate t limit suffix).wellFormed = true ↔ CleanCut t suffix limit)) ∧
      ∀ e : Entry, e.Whole → ((∀ line ∈ Listing.entry e, line.wellFormed = true) ↔
        CleanCut e.description ellipsis 320 ∧ CleanCut e.content ellipsis 4000) := by
  refine ⟨?_, fun e whole => whole_entry_iff whole⟩
  intro t suffix limit whole wholeSuffix
  exact ⟨truncated t suffix limit, wellFormed_truncate_iff whole wholeSuffix⟩

/-- Three characters of two units each. -/
def paired : Text := "😀😀😀"

/-- An entry that has only an id and a description. -/
def described (text : Text) : Entry := { tagged "x-1" [] with description := text }

theorem whole_described {text : Text} (whole : text.wellFormed = true) : (described text).Whole :=
  ⟨rfl, rfl, rfl, nofun, rfl, whole, rfl⟩

theorem truncated_clean_iff_paired :
    (truncate paired 5 ellipsis).length = 5 ∧ (truncate paired 5 ellipsis).wellFormed = true ∧
      ∀ line ∈ Listing.entry (described paired), line.wellFormed = true := by
  obtain ⟨cut, shown⟩ := truncated_clean_iff
  have whole : paired.wellFormed = true := by decide
  obtain ⟨left, clean⟩ := cut paired ellipsis 5 whole (by decide)
  exact ⟨left.length, clean.2 (by decide), (shown _ (whole_described whole)).2 ⟨by decide, by decide⟩⟩

/-- A text that is cut within its only character of two units where a description is cut. -/
def torn : Text := Text.repeated 316 'a' ++ "😀" ++ Text.repeated 3 'a'

theorem not_always_whole :
    (¬∀ (t suffix : Text) (limit : Nat), t.wellFormed = true → suffix.wellFormed = true →
      (truncate t limit suffix).wellFormed = true) ∧
      ¬∀ e : Entry, e.Whole → ∀ line ∈ Listing.entry e, line.wellFormed = true := by
  constructor
  · intro always
    have halved : (truncate paired 4 ellipsis).wellFormed = false := by decide
    exact nomatch halved.symm.trans (always paired ellipsis 4 (by decide) (by decide))
  · intro always
    have whole : (described torn).Whole := whole_described (by decide +kernel)
    have halved : ¬∀ line ∈ Listing.entry (described torn), line.wellFormed = true := by decide +kernel
    exact halved (always _ whole)

end RequestCompiler.Codex
