import RequestCompiler.Proofs.Codex.Search
import RequestCompiler.Proofs.Codex.Tally

/-!
# Entries by module

A lookup by module takes some names for others: a letter, of either case, and a full name with blanks around it
stand for the module of the catalog, while entries keep the text that the document has. `Alias` is what such a
name is. Every other name is looked up as it is (`byModule_of_not_alias`), so an entry is found under its own
module, and the count of the module is the number of entries found, unless the module is an alias
(`mem_byModule_own_iff`, `byModule_own`).
-/

namespace RequestCompiler.Codex

/-- The name is that of a module of the catalog: but for blanks around it, the full name, or the letter in either
case. -/
def Named (name : Text) (m : CatalogModule) : Prop :=
  m ∈ catalog ∧ (name.trim = m.fullName ∨ ∃ u, name.trim = [u] ∧ m.letter = [capitalUnit u])

/-- The name is that of a module whose full name is another text. -/
def Alias (name : Text) : Prop := ∃ m, Named name m ∧ m.fullName ≠ name

section Catalog

variable {name : Text} {m : CatalogModule}

theorem catalog_letters_distinct : (catalog.map CatalogModule.letter).Nodup := by decide +kernel

theorem catalog_fullNames_distinct : (catalog.map CatalogModule.fullName).Nodup := by decide +kernel

theorem fullName_ne_single (u : UInt16) (member : m ∈ catalog) : m.fullName ≠ [u] := by
  have longer : ∀ m ∈ catalog, 1 < m.fullName.length := by decide +kernel
  intro single
  have shorter : m.fullName.length = 1 := by rw [single, List.length_singleton]
  exact absurd (longer m member) (by omega)

theorem resolveModule?_eq_some_iff : resolveModule? name = some m ↔ Named name m := by
  unfold resolveModule? Named
  split
  · rename_i u text
    constructor
    · intro found
      have letter : m.letter = [capitalUnit u] := by simpa using List.find?_some found
      exact ⟨List.mem_of_find?_eq_some found, .inr ⟨u, text, letter⟩⟩
    · rintro ⟨member, full | ⟨v, single, letter⟩⟩
      · exact absurd (full.symm.trans text) (fullName_ne_single u member)
      · obtain rfl := List.singleton_inj.1 (single.symm.trans text)
        rw [← letter]
        exact find?_key_eq_some catalog_letters_distinct member
  · rename_i other
    constructor
    · intro found
      have full : m.fullName = name.trim := by simpa using List.find?_some found
      exact ⟨List.mem_of_find?_eq_some found, .inl full.symm⟩
    · rintro ⟨member, full | ⟨u, single, -⟩⟩
      · rw [full]
        exact find?_key_eq_some catalog_fullNames_distinct member
      · exact absurd single (other u)

theorem alias_iff : Alias name ↔ (resolveModule? name).any (fun m => m.fullName != name) = true := by
  simp only [Alias, ← resolveModule?_eq_some_iff, Option.any_eq_true, bne_iff_ne]

instance (name : Text) : Decidable (Alias name) := decidable_of_iff _ alias_iff.symm

/-- A letter of the catalog, capital or small, is the name of its module. -/
theorem named_letter {u : UInt16} (member : m ∈ catalog) (letter : m.letter = [u] ∨ m.letter = [u - 32]) :
    Named [u] m := by
  have each : ∀ m ∈ catalog, (m.letter.all fun v => [v, v + 32].all fun u =>
      capitalUnit u == v && !Text.isBlank u) = true := by
    decide +kernel
  have own : ∀ v, m.letter = [v] → u ∈ [v, v + 32] → Named [u] m := by
    intro v letter either
    have facts := List.all_eq_true.1 (List.all_eq_true.1 (each m member) v (letter ▸ List.mem_cons_self)) u either
    rw [Bool.and_eq_true, beq_iff_eq, Bool.not_eq_true'] at facts
    obtain ⟨capital, solid⟩ := facts
    have trimmed : Text.trim [u] = [u] := Text.trim_eq_self_of_solid (List.forall_mem_singleton.2 solid)
    exact ⟨member, .inr ⟨u, trimmed, by rw [letter, capital]⟩⟩
  rcases letter with letter | letter
  · exact own u letter List.mem_cons_self
  · apply own (u - 32) letter
    rw [UInt16.sub_add_cancel]
    exact List.mem_cons_of_mem _ List.mem_cons_self

end Catalog

section Lookups

variable {c : Codex} {name : Text} {m : CatalogModule} {e : Entry}

theorem byModule_of_named (named : Named name m) :
    c.byModule name = c.entries.filter fun e => e.moduleName == m.fullName := by
  rw [byModule, resolveModule?_eq_some_iff.2 named]
  rfl

theorem byModule_of_not_alias (plain : ¬Alias name) :
    c.byModule name = c.entries.filter fun e => e.moduleName == name := by
  cases found : resolveModule? name with
  | none =>
    rw [byModule, found]
    rfl
  | some m =>
    have named := resolveModule?_eq_some_iff.1 found
    have own : m.fullName = name := by
      by_contra other
      exact plain ⟨m, named, other⟩
    rw [byModule_of_named named, own]

/-- An entry is found under its own module exactly if that is no alias. -/
theorem mem_byModule_own_iff (member : e ∈ c.entries) :
    e ∈ c.byModule e.moduleName ↔ ¬Alias e.moduleName := by
  constructor
  · rintro found ⟨m, named, other⟩
    rw [byModule_of_named named, List.mem_filter, beq_iff_eq] at found
    exact other found.2.symm
  · intro plain
    rw [byModule_of_not_alias plain]
    exact List.mem_filter.2 ⟨member, beq_self_eq_true _⟩

/-- Unless the name of a module is an alias, its entries are found under it, as many as the statistics count. A
letter of the catalog, capital or small, stands for the entries of its module. -/
theorem byModule_own (c : Codex) :
    (∀ e ∈ c.entries, ¬Alias e.moduleName → e ∈ c.byModule e.moduleName) ∧
      (∀ name n, (name, n) ∈ c.statistics.byModule → ¬Alias name → (c.byModule name).length = n) ∧
      ∀ m ∈ catalog, ∀ u, m.letter = [u] ∨ m.letter = [u - 32] →
        c.byModule [u] = c.entries.filter fun e => e.moduleName == m.fullName := by
  refine ⟨?_, ?_, ?_⟩
  · intro e member plain
    exact (mem_byModule_own_iff member).2 plain
  · intro name n shown plain
    have counted : Counted (c.entries.map Entry.moduleName) c.statistics.byModule := counted_tally _
    rw [byModule_of_not_alias plain, ← count_map]
    exact (counted.mem_iff.1 shown).2
  · intro m member u letter
    exact byModule_of_named (named_letter member letter)

/-- An entry that has only an id and a module. -/
def filed (id moduleName : Text) : Entry := { tagged id [] with moduleName := moduleName }

/-- Entries under a full name, under a letter and under a name that is not in the catalog. -/
def filedCodex : Codex where
  entries := [filed "x-1" "Module B: Programming", filed "x-2" "b", filed "x-3" "Notes"]

theorem byModule_own_filed :
    filed "x-1" "Module B: Programming" ∈ filedCodex.byModule "Module B: Programming" ∧
      (filedCodex.byModule "Notes").length = 1 ∧
      filedCodex.byModule "b" = [filed "x-1" "Module B: Programming"] := by
  obtain ⟨own, counted, letters⟩ := byModule_own filedCodex
  have full : ¬Alias "Module B: Programming" := by decide +kernel
  have outside : ¬Alias "Notes" := by decide +kernel
  have shown : (Text.ofString "Notes", 1) ∈ filedCodex.statistics.byModule :=
    (counted_tally _).mem_iff.2 (by decide)
  refine ⟨own _ List.mem_cons_self full, counted _ _ shown outside, ?_⟩
  exact letters ⟨"B", "Programming"⟩ (by decide) (unit 'b') (by decide)

/-- A document of one entry whose module is a letter. -/
def letteredDocument : Json :=
  .object [("modules", .arr [.object [("id", .str "x-1"), ("module", .str "B")]])]

theorem not_always_own_module : ¬∀ (document : Json) (c : Codex) (e : Entry),
    ofDocument document = .ok c → e ∈ c.entries → e ∈ c.byModule e.moduleName := by
  intro always
  have built : ofDocument letteredDocument = .ok ⟨[filed "x-1" "B"]⟩ := by decide +kernel
  have found := always _ _ _ built List.mem_cons_self
  have letter : Alias (filed "x-1" "B").moduleName := by decide +kernel
  exact (mem_byModule_own_iff List.mem_cons_self).1 found letter

end Lookups

end RequestCompiler.Codex
