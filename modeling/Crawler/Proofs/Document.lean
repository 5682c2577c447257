import Crawler.Proofs.Statement
import Crawler.Setting.Document

/-! The text of a settings document. What is written for a document is read as the same document, of
the current format version. -/
namespace Crawler.Setting

open Toml (Entries Writes updateAt assign line)

def Stored.InRange : Stored → Prop
  | .integer n => Int64.minValue.toInt ≤ n ∧ n ≤ Int64.maxValue.toInt
  | _ => True

def Stored.toToml : Stored → Toml
  | .bool b => .boolean b
  | .integer n => .integer n
  | .float x => .float x

namespace Document

variable {document : Document} {name : String} {value : Stored} {entries : List (String × Stored)}

structure Tidy (document : Document) : Prop where
  sorted : document.entries.Pairwise (·.1 < ·.1)
  ranged : ∀ entry ∈ document.entries, entry.2.InRange

theorem fresh_tidy : fresh.Tidy := by
  exact ⟨.nil, nofun⟩

section Entries

private theorem mem_insertEntry {entry : String × Stored}
    (inside : entry ∈ insertEntry name value entries) :
    entry = (name, value) ∨ entry ∈ entries := by
  induction entries with
  | nil => exact .inl (List.mem_singleton.mp inside)
  | cons other rest ih =>
    unfold insertEntry at inside
    grind

private theorem insertEntry_sorted (sorted : entries.Pairwise (·.1 < ·.1)) :
    (insertEntry name value entries).Pairwise (·.1 < ·.1) := by
  induction entries with
  | nil => exact List.pairwise_singleton _ _
  | cons entry rest ih =>
    obtain ⟨other, old⟩ := entry
    obtain ⟨above, others⟩ := List.pairwise_cons.mp sorted
    unfold insertEntry
    split
    · next same => exact List.pairwise_cons.mpr ⟨same ▸ above, others⟩
    split
    · next below =>
      refine List.pairwise_cons.mpr ⟨fun entry inside => ?_, sorted⟩
      rcases List.mem_cons.mp inside with rfl | inside
      · exact below
      · exact String.lt_trans below (above entry inside)
    · next apart higher =>
      have below : other < name := by
        by_contra upper
        exact apart (String.le_antisymm (String.not_lt.mp upper) (String.not_lt.mp higher))
      refine List.pairwise_cons.mpr ⟨fun entry inside => ?_, ih others⟩
      rcases mem_insertEntry inside with rfl | inside
      · exact below
      · exact above entry inside

/-- A name above all others comes last. -/
theorem insertEntry_last (above : ∀ entry ∈ entries, entry.1 < name) :
    insertEntry name value entries = entries ++ [(name, value)] := by
  induction entries with
  | nil => rfl
  | cons entry rest ih =>
    have below := above entry List.mem_cons_self
    have apart : name ≠ entry.1 := fun same => String.lt_irrefl name (same ▸ below)
    unfold insertEntry
    rw [if_neg apart, if_neg (String.lt_asymm below),
      ih fun other inside => above other (List.mem_cons_of_mem entry inside)]
    rfl

theorem Tidy.insert (tidy : document.Tidy) (name : String) (ranged : value.InRange) :
    (document.insert name value).Tidy := by
  refine ⟨insertEntry_sorted tidy.sorted, fun entry inside => ?_⟩
  rcases mem_insertEntry inside with rfl | inside
  · exact ranged
  · exact tidy.ranged entry inside

private theorem ofEntries_tidy (complete : Bool) (ranged : ∀ entry ∈ entries, entry.2.InRange) :
    (ofEntries complete entries).Tidy := by
  have step (document : Document) (tidy : document.Tidy) :
      (entries.foldl (fun document entry => document.insert entry.1 entry.2) document).Tidy := by
    induction entries generalizing document with
    | nil => exact tidy
    | cons entry rest ih =>
      exact ih (fun other inside => ranged other (List.mem_cons_of_mem entry inside)) _
        (tidy.insert entry.1 (ranged entry List.mem_cons_self))
  exact step _ ⟨.nil, nofun⟩

private theorem foldl_insert_sorted {complete : Bool} {done : List (String × Stored)}
    (sorted : (done ++ entries).Pairwise (·.1 < ·.1)) :
    entries.foldl (fun document entry => document.insert entry.1 entry.2) (⟨complete, done⟩ : Document) =
      ⟨complete, done ++ entries⟩ := by
  induction entries generalizing done with
  | nil => exact congrArg (Document.mk complete) (List.append_nil done).symm
  | cons entry rest ih =>
    have above := (List.pairwise_append.mp sorted).2.2
    have last : insertEntry entry.1 entry.2 done = done ++ [entry] :=
      insertEntry_last fun other inside => above other inside entry List.mem_cons_self
    rw [List.append_cons] at sorted ⊢
    rw [← ih sorted, ← last]
    rfl

private theorem ofEntries_sorted (complete : Bool) (sorted : entries.Pairwise (·.1 < ·.1)) :
    ofEntries complete entries = ⟨complete, entries⟩ := by
  exact @foldl_insert_sorted entries complete [] sorted

end Entries

section Text

private theorem writeStored_writes (ranged : value.InRange) : Writes (writeStored value) value.toToml := by
  cases value with
  | bool b => exact Toml.writeBool_writes b
  | integer n =>
    have least : (-2 ^ 127 : ℤ) ≤ Int64.minValue.toInt := by decide
    have greatest : Int64.maxValue.toInt < 2 ^ 128 := by decide
    exact Toml.writeInteger_writes (least.trans ranged.1) (ranged.2.trans_lt greatest)
  | float x => exact Toml.writeFloat_writes x

private theorem stored_toToml (ranged : value.InRange) : stored? value.toToml = some value := by
  cases value with
  | integer n => exact if_pos ranged
  | bool _ | float _ => rfl

private theorem inRange_of_stored {read : Toml} (stored : stored? read = some value) : value.InRange := by
  unfold stored? at stored
  split at stored
  · cases stored
    trivial
  · split at stored
    · next ranged =>
      cases stored
      exact ranged
    · split at stored
      · cases stored
        trivial
      · cases stored
  · cases stored
    trivial
  · cases stored

/-- All that a table of settings holds is scalars, and so is all that is read of it. -/
theorem entries_of_table {origin : Toml.Origin} {settings : Entries}
    (read : entries? (some (.table origin settings)) = some entries) :
    (∀ entry ∈ settings, (stored? entry.2).isSome) ∧ ∀ entry ∈ entries, entry.2.InRange := by
  change settings.mapM (fun entry => (stored? entry.2).map (entry.1, ·)) = some entries at read
  induction settings generalizing entries with
  | nil =>
    cases read
    exact ⟨nofun, nofun⟩
  | cons entry rest ih =>
    rw [List.mapM_cons] at read
    obtain ⟨here, first, read⟩ := Option.bind_eq_some_iff.mp read
    obtain ⟨others, left, read⟩ := Option.bind_eq_some_iff.mp read
    obtain ⟨value, stored, rfl⟩ := Option.map_eq_some_iff.mp first
    cases read
    obtain ⟨scalars, ranged⟩ := ih left
    refine ⟨fun other inside => ?_, fun other inside => ?_⟩
    · rcases List.mem_cons.mp inside with rfl | inside
      · exact Option.isSome_of_eq_some stored
      · exact scalars other inside
    · rcases List.mem_cons.mp inside with rfl | inside
      · exact inRange_of_stored stored
      · exact ranged other inside

private theorem ranged_of_entries {settings : Option Toml} (read : entries? settings = some entries) :
    ∀ entry ∈ entries, entry.2.InRange := by
  cases settings with
  | none =>
    cases read
    nofun
  | some value =>
    cases value with
    | table origin settings => exact (entries_of_table read).2
    | _ => cases read

def outline (complete : Bool) (settings : Entries) : Entries :=
  [("version", .integer formatVersion), ("seeded", .boolean complete), ("settings", .table .header settings)]

private theorem updateAt_outline {settings : Entries} (complete : Bool) (value : Toml)
    (unused : ∀ entry ∈ settings, entry.1 ≠ name) :
    updateAt (assign [] name value) ["settings"] (outline complete settings) =
      some (outline complete (settings ++ [(name, value)])) := by
  have absent : Toml.entry? name settings = none := by
    unfold Toml.entry?
    rw [List.find?_eq_none.mpr fun entry inside => by simpa using unused entry inside]
    rfl
  change (assign [] name value settings).map _ = _
  unfold assign
  rw [absent]
  rfl

def tomlEntries (entries : List (String × Stored)) : Entries :=
  entries.map fun entry => (entry.1, entry.2.toToml)

private theorem statements_entries (complete : Bool) {done : Entries} {fuel : ℕ}
    (enough : entries.length < fuel)
    (sorted : entries.Pairwise (·.1 < ·.1)) (ranged : ∀ entry ∈ entries, entry.2.InRange)
    (unused : ∀ entry ∈ entries, ∀ other ∈ done, other.1 ≠ entry.1) :
    Toml.statements? fuel ⟨outline complete done, ["settings"]⟩ (entries.flatMap writeEntry) =
      some ⟨outline complete (done ++ tomlEntries entries), ["settings"]⟩ := by
  induction entries generalizing done fuel with
  | nil =>
    obtain ⟨fuel, rfl⟩ := Nat.exists_eq_succ_of_ne_zero enough.ne'
    rw [show done ++ tomlEntries [] = done from List.append_nil done]
    rfl
  | cons entry rest ih =>
    obtain ⟨fuel, rfl⟩ := Nat.exists_eq_succ_of_ne_zero (Nat.zero_lt_of_lt enough).ne'
    obtain ⟨above, others⟩ := List.pairwise_cons.mp sorted
    have writes := writeStored_writes (ranged entry List.mem_cons_self)
    have assigned := updateAt_outline complete entry.2.toToml (unused entry List.mem_cons_self)
    rw [List.flatMap_cons]
    change Toml.statements? (fuel + 1) _ (line entry.1 (writeStored entry.2) ++ _) = _
    rw [Toml.statements_line entry.1 writes assigned, ih (Nat.lt_of_succ_lt_succ enough) others
      fun other inside => ranged other (List.mem_cons_of_mem entry inside)]
    · rw [List.append_assoc]
      rfl
    · intro other inside old used
      rcases List.mem_append.mp used with used | used
      · exact unused other (List.mem_cons_of_mem entry inside) old used
      · rw [List.mem_singleton.mp used]
        exact fun same => String.lt_irrefl other.1 (same ▸ above other inside)

private theorem entries_tomlEntries (ranged : ∀ entry ∈ entries, entry.2.InRange) :
    entries? (some (.table .header (tomlEntries entries))) = some entries := by
  change (tomlEntries entries).mapM (fun entry => (stored? entry.2).map (entry.1, ·)) = _
  induction entries with
  | nil => rfl
  | cons entry rest ih =>
    have here := stored_toToml (ranged entry List.mem_cons_self)
    have others := ih fun other inside => ranged other (List.mem_cons_of_mem entry inside)
    rw [tomlEntries, List.map_cons, List.mapM_cons]
    rw [tomlEntries] at others
    rw [here, others]
    rfl

private theorem write_lines (document : Document) :
    document.write.toList =
      line "version" (Toml.writeInteger formatVersion) ++
        (line "seeded" (Toml.writeBool document.complete) ++
          ("\n[settings]\n".toList ++ document.entries.flatMap writeEntry)) := by
  have head : s!"version = {formatVersion}\nseeded = ".toList ++ Toml.writeBool document.complete ++
      "\n\n[settings]\n".toList =
        line "version" (Toml.writeInteger formatVersion) ++
          (line "seeded" (Toml.writeBool document.complete) ++ "\n[settings]\n".toList) := by
    cases document.complete <;> decide +kernel
  unfold write
  rw [String.toList_ofList, head, List.append_assoc, List.append_assoc]

private theorem length_entries (entries : List (String × Stored)) :
    entries.length ≤ (entries.flatMap writeEntry).length := by
  induction entries with
  | nil => exact Nat.le_refl 0
  | cons entry rest ih =>
    have here : 1 ≤ (writeEntry entry).length := by
      unfold writeEntry
      rw [List.length_append]
      exact Nat.le_add_left 1 _
    rw [List.flatMap_cons, List.length_append, List.length_cons]
    omega

private theorem read_toml (tidy : document.Tidy) :
    Toml.read? document.write = some (outline document.complete (tomlEntries document.entries)) := by
  obtain ⟨tail, started⟩ : ∃ tail, document.write.toList = 'v' :: tail := ⟨_, write_lines document⟩
  obtain ⟨fuel, length, enough⟩ : ∃ fuel, document.write.toList.length + 1 = fuel + 1 + 1 + 1 ∧
      document.entries.length < fuel := by
    have least := length_entries document.entries
    have length := congrArg List.length (write_lines document)
    simp only [List.length_append] at length
    have header : "\n[settings]\n".toList.length = 12 := rfl
    refine ⟨document.write.toList.length - 2, ?_, ?_⟩ <;> omega
  have version : updateAt (assign [] "version" (.integer formatVersion)) [] [] =
    some [("version", .integer formatVersion)] := rfl
  have seeded : updateAt (assign [] "seeded" (.boolean document.complete)) []
    [("version", .integer formatVersion)] =
      some [("version", .integer formatVersion), ("seeded", .boolean document.complete)] := rfl
  have settings (rest : List Char) : Toml.statements? (fuel + 1)
      ⟨[("version", .integer formatVersion), ("seeded", .boolean document.complete)], []⟩
      ("\n[settings]\n".toList ++ rest) =
    Toml.statements? fuel ⟨outline document.complete [], ["settings"]⟩ rest := rfl
  unfold Toml.read?
  rw [started]
  change (Toml.statements? (('v' :: tail).length + 1) ⟨[], []⟩ ('v' :: tail)).map _ = _
  rw [← started, length, write_lines,
    Toml.statements_line "version" (Toml.writeInteger_writes (by decide) (by decide)) version,
    Toml.statements_line "seeded" (Toml.writeBool_writes _) seeded, settings,
    statements_entries document.complete enough tidy.sorted tidy.ranged
      fun _ _ _ inside => absurd inside List.not_mem_nil]
  rfl

/-- What is written for a document is read as it. -/
theorem read_write (tidy : document.Tidy) : read? document.write = some ⟨formatVersion, document⟩ := by
  have others : Toml.othersReadable ["version", "seeded", "settings"]
      (outline document.complete (tomlEntries document.entries)) = true := rfl
  have version : version? (Toml.entry? "version"
      (outline document.complete (tomlEntries document.entries))) = some formatVersion := rfl
  have complete : complete? (Toml.entry? "seeded"
      (outline document.complete (tomlEntries document.entries))) = some document.complete := rfl
  have settings : entries? (Toml.entry? "settings"
      (outline document.complete (tomlEntries document.entries))) = some document.entries :=
    entries_tomlEntries tidy.ranged
  unfold read?
  rw [read_toml tidy]
  simp only [Option.bind_eq_bind, Option.bind_some, others, version, complete, settings, guard_true,
    ofEntries_sorted document.complete tidy.sorted]
  rfl

theorem read_tidy {content : String} {found : Versioned} (read : read? content = some found) :
    found.document.Tidy := by
  obtain ⟨table, _, read⟩ := Option.bind_eq_some_iff.mp read
  obtain ⟨_, _, read⟩ := Option.bind_eq_some_iff.mp read
  obtain ⟨version, _, read⟩ := Option.bind_eq_some_iff.mp read
  obtain ⟨complete, _, read⟩ := Option.bind_eq_some_iff.mp read
  obtain ⟨entries, settings, read⟩ := Option.bind_eq_some_iff.mp read
  cases read
  exact ofEntries_tidy complete (ranged_of_entries settings)

end Text

end Document

end Crawler.Setting
