import RequestCompiler.Proofs.Codex.Search
import RequestCompiler.Proofs.Except
import RequestCompiler.Proofs.Json.KeyOrder
import RequestCompiler.Proofs.Table
import RequestCompiler.Proofs.Text.Words

/-!
# Looking up entries by id

A document that becomes a codex has one item for each entry, with the id of the entry, and no two entries
share an id (`ofDocument_eq_ok`). So the index has each entry under its id (`get?_index_iff`), and a lookup
can only miss an entry because it refuses blank ids before it asks the index (`entry_eq`), while the document
may have them. `entry_own_iff` says that this is the one exception.
-/

namespace RequestCompiler.Codex

section Document

variable {document : Json} {c : Codex}

theorem field?_of_textField {item : Json} {field : Text} (solid : textField item field ≠ []) :
    item.field? field = some (.str (textField item field)) := by
  unfold textField at solid ⊢
  split
  · assumption
  · rename_i other
    split at solid
    · rename_i t value
      exact absurd value (other t)
    · exact absurd rfl solid

/-- An entry has the id that its item has. -/
theorem field?_of_readEntry {index : Nat} {item : Json} {e : Entry} (read : readEntry index item = .ok e) :
    item.field? "id" = some (.str e.id) := by
  unfold readEntry at read
  split at read
  · nomatch read
  split at read
  · nomatch read
  · rename_i solid
    obtain rfl := Except.ok.inj read
    exact field?_of_textField (by simpa using solid)

theorem items_of_readEntries {index : Nat} {items : List Json} {es : List Entry}
    (read : readEntries index items = .ok es) :
    List.Forall₂ (fun item e => item.field? "id" = some (.str e.id)) items es := by
  induction items generalizing index es with
  | nil =>
    obtain rfl := Except.ok.inj read
    exact .nil
  | cons item items ih =>
    rw [readEntries, bind_eq_ok_iff] at read
    obtain ⟨e, first, read⟩ := read
    rw [bind_eq_ok_iff] at read
    obtain ⟨es, rest, read⟩ := read
    obtain rfl := Except.ok.inj read
    exact .cons (field?_of_readEntry first) (ih rest)

/-- No id is found to be repeated exactly if all are distinct, from each other and from those seen before. -/
theorem repeatedId?_eq_none_iff {seen : List Text} {es : List Entry} :
    repeatedId? seen es = none ↔ (es.map Entry.id).Nodup ∧ ∀ e ∈ es, e.id ∉ seen := by
  induction es generalizing seen with
  | nil => exact iff_of_true rfl ⟨.nil, nofun⟩
  | cons e es ih =>
    rw [List.map_cons, List.nodup_cons, List.forall_mem_cons, repeatedId?]
    by_cases known : e.id ∈ seen
    · rw [if_pos (by simpa using known)]
      exact iff_of_false nofun fun fresh => fresh.2.1 known
    · rw [if_neg (by simpa using known), ih]
      simp only [List.mem_append, List.mem_singleton, not_or, List.mem_map]
      constructor
      · rintro ⟨distinct, fresh⟩
        refine ⟨⟨?_, distinct⟩, known, fun f member => (fresh f member).1⟩
        rintro ⟨f, member, same⟩
        exact (fresh f member).2 same
      · rintro ⟨⟨other, distinct⟩, -, fresh⟩
        exact ⟨distinct, fun f member => ⟨fresh f member, fun same => other ⟨f, member, same⟩⟩⟩

theorem ofDocument_eq_ok (built : ofDocument document = .ok c) :
    (∃ items, document.field? "modules" = some (.arr items) ∧
      List.Forall₂ (fun item e => item.field? "id" = some (.str e.id)) items c.entries) ∧
      (c.entries.map Entry.id).Nodup := by
  unfold ofDocument at built
  split at built
  · rename_i items list
    obtain ⟨es, read, built⟩ := bind_eq_ok_iff.1 built
    split at built
    · nomatch built
    · rename_i fresh
      obtain rfl := Except.ok.inj built
      exact ⟨⟨items, list, items_of_readEntries read⟩, (repeatedId?_eq_none_iff.1 fresh).1⟩
  · nomatch built

end Document

section Index

variable {c : Codex} {id : Text} {e : Entry}

theorem index_eq (distinct : (c.entries.map Entry.id).Nodup) : c.index = c.entries.map fun e => (e.id, e) := by
  apply Table.ofList_eq_self
  rw [List.map_map]
  exact distinct

/-- Under distinct ids, the index has exactly the entries, each under its id. -/
theorem get?_index_iff (distinct : (c.entries.map Entry.id).Nodup) :
    Fields.get? c.index id = some e ↔ e ∈ c.entries ∧ e.id = id := by
  have keys : ((c.entries.map fun e => (e.id, e)).map Prod.fst).Nodup := by
    rw [List.map_map]
    exact distinct
  rw [index_eq distinct, Fields.get?_eq_some_iff keys, List.mem_map]
  constructor
  · rintro ⟨f, member, same⟩
    obtain ⟨rfl, rfl⟩ := Prod.mk.inj same
    exact ⟨member, rfl⟩
  · rintro ⟨member, rfl⟩
    exact ⟨e, member, rfl⟩

theorem entry_of_blank (blank : id.trim = []) : c.entry id = .error (.query .blankId) := by
  rw [entry, if_pos (by simpa using blank)]

theorem entry_of_solid (solid : id.trim ≠ []) :
    c.entry id = (Fields.get? c.index id).elim (.error (.codex (.notFound id))) .ok := by
  rw [entry, if_neg (by simpa using solid)]
  cases Fields.get? c.index id <;> rfl

theorem content_of_entry (found : c.entry id = .ok e) : c.content id = .ok e.content := by
  rw [content, found]
  rfl

end Index

/-- An entry of a document's codex is found under its id, and its content with it, exactly if the id is not
blank. An id that no entry has is refused if it is blank and not found otherwise. The ids are distinct, and the
entries stand in the order of the document's items. -/
theorem entry_own_iff {document : Json} {c : Codex} (built : ofDocument document = .ok c) :
    (∀ e ∈ c.entries, c.entry e.id = .ok e ∧ c.content e.id = .ok e.content ↔ e.id.trim ≠ []) ∧
      (∀ id, (∀ e ∈ c.entries, e.id ≠ id) →
        c.entry id = .error (if id.trim = [] then .query .blankId else .codex (.notFound id))) ∧
      (c.entries.map Entry.id).Nodup ∧
      ∃ items, document.field? "modules" = some (.arr items) ∧
        List.Forall₂ (fun item e => item.field? "id" = some (.str e.id)) items c.entries := by
  obtain ⟨order, distinct⟩ := ofDocument_eq_ok built
  refine ⟨?_, ?_, distinct, order⟩
  · intro e member
    constructor
    · rintro ⟨found, -⟩ blank
      exact nomatch (entry_of_blank blank).symm.trans found
    · intro solid
      have indexed : Fields.get? c.index e.id = some e := (get?_index_iff distinct).2 ⟨member, rfl⟩
      have found : c.entry e.id = .ok e := by
        rw [entry_of_solid solid, indexed]
        rfl
      exact ⟨found, content_of_entry found⟩
  · intro id unknown
    split
    · rename_i blank
      exact entry_of_blank blank
    · rename_i solid
      have missing : Fields.get? c.index id = none := by
        rw [Option.eq_none_iff_forall_ne_some]
        intro e indexed
        obtain ⟨member, same⟩ := (get?_index_iff distinct).1 indexed
        exact unknown e member same
      rw [entry_of_solid solid, missing]
      rfl

/-- A document of two entries, the first of which has a blank id. -/
def blankIdDocument : Json :=
  .object [("modules", .arr [.object [("id", .str " ")], .object [("id", .str "x-1")]])]

def blankIdCodex : Codex where
  entries := [tagged " " [], tagged "x-1" []]

theorem ofDocument_blankIdDocument : ofDocument blankIdDocument = .ok blankIdCodex := by decide +kernel

theorem entry_own_iff_blank :
    ofDocument blankIdDocument = .ok blankIdCodex ∧
      ¬(blankIdCodex.entry " " = .ok (tagged " " []) ∧ blankIdCodex.content " " = .ok []) ∧
      (blankIdCodex.entry "x-1" = .ok (tagged "x-1" []) ∧ blankIdCodex.content "x-1" = .ok []) ∧
      blankIdCodex.entry "x-2" = .error (.codex (.notFound "x-2")) := by
  obtain ⟨own, unknown, -⟩ := entry_own_iff ofDocument_blankIdDocument
  have blank : ¬(tagged " " []).id.trim ≠ [] := by decide
  have solid : (tagged "x-1" []).id.trim ≠ [] := by decide
  have fresh : ∀ e ∈ blankIdCodex.entries, e.id ≠ Text.ofString "x-2" := by decide
  refine ⟨ofDocument_blankIdDocument, ?_, ?_, ?_⟩
  · intro found
    exact blank ((own _ List.mem_cons_self).1 found)
  · exact (own _ (List.mem_cons_of_mem _ List.mem_cons_self)).2 solid
  · exact unknown _ fresh

theorem not_always_own_entry : ¬∀ (document : Json) (c : Codex) (e : Entry),
    ofDocument document = .ok c → e ∈ c.entries → c.entry e.id = .ok e := by
  intro always
  have found := always _ _ (tagged " " []) ofDocument_blankIdDocument List.mem_cons_self
  have refused : blankIdCodex.entry (tagged " " []).id = .error (.query .blankId) := entry_of_blank (by decide)
  exact nomatch refused.symm.trans found

end RequestCompiler.Codex
