import Crawler.CommandLine.Session
import Crawler.Proofs.Durability
import Crawler.Proofs.Run

/-! Which runs of the service change the settings. All runs open the settings file; where it is complete,
only a run that sets or restores settings writes to it, so that the others could as well not have been. -/
namespace Crawler

open Crawler.Action
open Files (Prepares Way)
open Setting (Document Fault Store Write)

variable {configPath : Option String} {path content : String} {files made files' : Files}

/-! ### Where the settings are -/

namespace Configuration

def defaultPath : String := default.settingsPath

private theorem settingsPath_of_scalars {settings : Option Toml} {entries : List (String × Setting.Stored)}
    (scalars : Document.entries? settings = some entries)
    (pointed : orDefault defaultPath settingsPath? settings = some path) : path = defaultPath := by
  cases settings with
  | none =>
    cases pointed
    rfl
  | some value =>
    cases value with
    | table origin settings =>
      obtain ⟨field, fields, pointed⟩ := Option.bind_eq_some_iff.mp pointed
      change (if Toml.othersReadable ["path"] settings then some fun name => Toml.entry? name settings
        else none) = some field at fields
      split at fields
      · cases fields
        change orDefault defaultPath text? (Toml.entry? "path" settings) = some path at pointed
        cases there : Toml.entry? "path" settings with
        | none =>
          rw [there] at pointed
          cases pointed
          rfl
        | some value =>
          obtain ⟨entry, found, rfl⟩ := Option.map_eq_some_iff.mp there
          have stored := (Document.entries_of_table scalars).1 entry (List.mem_of_find?_eq_some found)
          rw [there] at pointed
          change text? entry.2 = some path at pointed
          unfold text? at pointed
          split at pointed
          · next text =>
            rw [text] at stored
            cases stored
          · cases pointed
      · cases fields
    | _ => cases scalars

private theorem settingsPath_of_read {c : Configuration} (configured : read? content = some c) :
    ∃ table, Toml.read? content = some table ∧
      orDefault defaultPath settingsPath? (Toml.entry? "settings" table) = some c.settingsPath := by
  obtain ⟨table, parsed, configured⟩ := Option.bind_eq_some_iff.mp configured
  obtain ⟨_, _, configured⟩ := Option.bind_eq_some_iff.mp configured
  obtain ⟨_, _, configured⟩ := Option.bind_eq_some_iff.mp configured
  obtain ⟨path, pointed, configured⟩ := Option.bind_eq_some_iff.mp configured
  obtain ⟨_, _, configured⟩ := Option.bind_eq_some_iff.mp configured
  obtain ⟨_, _, configured⟩ := Option.bind_eq_some_iff.mp configured
  obtain ⟨_, _, configured⟩ := Option.bind_eq_some_iff.mp configured
  obtain ⟨_, _, configured⟩ := Option.bind_eq_some_iff.mp configured
  cases configured
  exact ⟨table, parsed, pointed⟩

/-- A settings document that is taken for a configuration names no other place for the settings: what it
has under that heading is scalars, none of which is a text. -/
theorem settingsPath_of_document {c : Configuration} {found : Document.Versioned}
    (configured : read? content = some c) (settings : Document.read? content = some found) :
    c.settingsPath = defaultPath := by
  obtain ⟨table, parsed, pointed⟩ := settingsPath_of_read configured
  obtain ⟨table', parsed', settings⟩ := Option.bind_eq_some_iff.mp settings
  obtain ⟨_, _, settings⟩ := Option.bind_eq_some_iff.mp settings
  obtain ⟨_, _, settings⟩ := Option.bind_eq_some_iff.mp settings
  obtain ⟨_, _, settings⟩ := Option.bind_eq_some_iff.mp settings
  obtain ⟨entries, scalars, _⟩ := Option.bind_eq_some_iff.mp settings
  rw [parsed] at parsed'
  cases parsed'
  exact settingsPath_of_scalars scalars pointed

/-- What is configured by a text, if anything, keeps the settings at a path, and still would if settings
were kept in its place. -/
structure Points (path content : String) : Prop where
  configuration : ∀ c, read? content = some c → c.settingsPath = path
  settings : ∀ found, Document.read? content = some found → path = defaultPath

private theorem points_of_read {c : Configuration} (configured : read? content = some c) :
    Points c.settingsPath content := by
  refine ⟨fun c' again => ?_, fun found settings => settingsPath_of_document configured settings⟩
  rw [configured] at again
  cases again
  rfl

private theorem points_of_document {found : Document.Versioned}
    (settings : Document.read? content = some found)
    (standard : path = defaultPath) : Points path content := by
  refine ⟨fun _ configured => ?_, fun _ _ => standard⟩
  exact (settingsPath_of_document configured settings).trans standard.symm

end Configuration

namespace CommandLine

open Crawler.Configuration (defaultPath Points points_of_read points_of_document)

def Configured (files : Files) : Option String → String → Prop
  | none, path => path = defaultPath
  | some place, path => ∃ content, files.find place = .ok (.text content) ∧ Points path content

private theorem configuration_ok {place : String} {c : Configuration}
    (configured : configuration files (some place) = .ok c) :
    ∃ content, files.find place = .ok (.text content) ∧ Configuration.read? content = some c := by
  obtain ⟨c', loaded, checked⟩ := except_bind_eq_ok.mp configured
  obtain ⟨_, _, same⟩ := except_bind_eq_ok.mp checked
  cases same
  unfold Configuration.load at loaded
  split at loaded
  · cases loaded
  · next content found =>
    split at loaded
    · next read =>
      cases loaded
      exact ⟨content, found, read⟩
    · cases loaded
  · cases loaded

private theorem configured_of_ok {c : Configuration} (configured : configuration files configPath = .ok c) :
    Configured files configPath c.settingsPath := by
  cases configPath with
  | none =>
    cases configured
    rfl
  | some place =>
    obtain ⟨content, found, read⟩ := configuration_ok configured
    exact ⟨content, found, points_of_read read⟩

private theorem Configured.settingsPath {c : Configuration} (configured : Configured files configPath path)
    (read : configuration files configPath = .ok c) : c.settingsPath = path := by
  cases configPath with
  | none =>
    cases read
    exact configured.symm
  | some place =>
    obtain ⟨content, found, points⟩ := configured
    obtain ⟨content', found', read⟩ := configuration_ok read
    rw [found] at found'
    cases found'
    exact points.configuration c read

private theorem Configured.prepares (configured : Configured files configPath path)
    (prepares : Prepares files made) : Configured made configPath path := by
  cases configPath with
  | none => exact configured
  | some place =>
    obtain ⟨content, found, points⟩ := configured
    exact ⟨content, prepares.find found, points⟩

/-- A document that takes the place of another one leaves the settings where they are, even where the
file with the settings is the one with the configuration. -/
theorem Configured.writes (configured : Configured files configPath path)
    (home : files.node? files.home = some .directory) {found : Document.Versioned}
    (settings : files.find path = .ok (.text content)) (read : Document.read? content = some found)
    {document : Document} (tidy : document.Tidy)
    (written : files.writeText path document.write = (true, files')) :
    Configured files' configPath path := by
  cases configPath with
  | none => exact configured
  | some place =>
    obtain ⟨text, configuration, points⟩ := configured
    obtain ⟨directory, made, name, way, rfl⟩ := Files.way_of_written written
    have kept {other : List String} (there : files.node? other = some .directory) :=
      way.directories document.write (way.prepares.kept there)
    have stays : (made.put name (some (.text document.write))).home = files.home := way.prepares.home
    obtain ⟨other, _, there, leads⟩ := Files.find_kept configuration stays kept
    by_cases same : other = name
    · subst same
      obtain ⟨_, named, there'⟩ := Files.find_place settings
      rw [way.place home] at named
      cases named
      rw [there] at there'
      cases there'
      have standard := points.settings found read
      exact ⟨_, leads _ (way.there _), points_of_document (Document.read_write tidy) standard⟩
    · have left := way.elsewhere document.write same (way.prepares.kept there)
      exact ⟨text, leads _ left, points⟩

structure Served (configPath : Option String) (path : String) (store : Store) : Prop where
  medium : store.medium = .file path
  home : store.files.node? store.files.home = some .directory
  configured : Configured store.files configPath path
  settings : ∃ content, store.files.find path = .ok (.text content) ∧
    Document.read? content = some ⟨Document.formatVersion, store.document⟩
  complete : store.isComplete = true

private theorem write_served {change : Write} (ranged : change.Ranged) :
    Preserves (Served configPath path) (Store.write change) := by
  rintro ⟨document, medium, files⟩ ⟨file, home, configured, ⟨content, found, read⟩, complete⟩
  dsimp only at file home configured found read
  subst file
  have tidy := ranged.tidy (Document.read_tidy read)
  change Served _ _ (Store.commit (change.apply document) ⟨document, .file path, files⟩).2
  unfold Store.commit
  dsimp only
  split
  · next files' written =>
    obtain ⟨found', _, home'⟩ := Files.writeText_found home written
    exact ⟨rfl, home', configured.writes home found read tidy written,
      ⟨_, found', Document.read_write tidy⟩, change.apply_complete complete⟩
  · next made failed =>
    have prepares := Files.writeText_failed failed
    exact ⟨rfl, prepares.home ▸ prepares.kept home, configured.prepares prepares,
      ⟨content, prepares.find found, read⟩, complete⟩

end CommandLine

/-! ### Commands and runs -/

namespace Machine

def Command.edits : Command → Bool
  | .enterSetting _ _ | .restoreSettings => true
  | _ => false

section Execute

variable {P : Store → Prop}

/-- What a command does to the settings is to write values, and only one that is there for it does. -/
theorem execute_keeps {command : Command} (upheld : command.edits = true → Store.Upheld P) :
    Preserves (fun m => P m.store) (execute command) := by
  have told (severity : Severity) (text : String) : Preserves (fun m => P m.store) (tell severity text) :=
    fun _ held => held
  have gated (motion : Action Drives MotionFault Receipt) : Preserves (fun m => P m.store) (gated motion) :=
    preserves_gated (fun _ _ held => held) (fun _ _ held => held) (fun _ held => held) fun _ held => held
  cases command with
  | drive request =>
    refine preserves_map (preserves_bind preserves_read fun _ => ?_)
    exact preserves_reporting told (gated _)
  | depth request =>
    refine preserves_map (preserves_bind preserves_read fun _ => ?_)
    exact preserves_reporting told (gated _)
  | home => exact preserves_map (preserves_home told fun _ _ _ held => held)
  | status => exact preserves_map (preserves_status fun _ held => held)
  | emergencyStop => exact fun _ held => held
  | spindle request =>
    exact preserves_map (fun _ held => useSpindle_keeps told (fun _ _ _ _ _ held => held)
      (fun _ _ _ _ held => held) held)
  | showSettings => exact preserves_map (preserves_readStore _)
  | showSetting key => exact preserves_map (preserves_readStore _)
  | enterSetting key text =>
    have entered : Preserves (fun m => P m.store) (onStore (Store.setText key text)) :=
      fun m held => Store.setText_keeps (upheld rfl) key text m.store held
    exact preserves_map (preserves_enterSetting told entered)
  | restoreSettings =>
    have restored : Preserves (fun m => P m.store) (onStore Store.restoreDefaults) :=
      fun m held => Store.restoreDefaults_keeps (upheld rfl) m.store held
    exact preserves_map (preserves_restoreSettings told restored)

end Execute

end Machine

namespace CommandLine

def edits (words : List String) : Bool :=
  match Invocation.parse? words with
  | some (.execute _ command) => command.edits
  | _ => false

def uses (configPath : Option String) (words : List String) : Bool :=
  match Invocation.parse? words with
  | some (.execute place _) => place = configPath
  | _ => true

structure Seeded (configPath : Option String) (files : Files) : Prop where
  home : files.node? files.home = some .directory
  settings : ∀ c, configuration files configPath = .ok c → ∃ content document,
    files.find c.settingsPath = .ok (.text content) ∧
      Document.read? content = some ⟨Document.formatVersion, document⟩ ∧ document.complete = true

private theorem Served.seeded {store : Store} (served : Served configPath path store) :
    Seeded configPath store.files := by
  refine ⟨served.home, fun c configured => ?_⟩
  obtain ⟨content, found, read⟩ := served.settings
  rw [served.configured.settingsPath configured]
  exact ⟨content, _, found, read, served.complete⟩

/-- A complete settings file is opened as it is. -/
theorem Seeded.opens {c : Configuration} (seeded : Seeded configPath files)
    (configured : configuration files configPath = .ok c) :
    ∃ store, Store.open (.file c.settingsPath) files = (.ok store, files) ∧ store.files = files ∧
      Served configPath c.settingsPath store := by
  obtain ⟨content, document, found, read, complete⟩ := seeded.settings c configured
  have loaded : Store.readDocument files c.settingsPath = .ok document := by
    unfold Store.readDocument
    rw [found]
    simp only [read]
    rfl
  have connected : Store.connect (.file c.settingsPath) files =
      .ok ⟨document, .file c.settingsPath, files⟩ := by
    unfold Store.connect
    simp only [loaded]
    rfl
  exact ⟨_, Setting.open_of_fill connected (if_pos complete), rfl,
    ⟨rfl, seeded.home, configured_of_ok configured, ⟨content, found, read⟩, complete⟩⟩

variable {words : List String}

/-- No run spoils the settings file, and what is no edit leaves all files as they are. -/
theorem run_seeded (seeded : Seeded configPath files) (used : uses configPath words = true) :
    Seeded configPath (run words files).2 ∧ (edits words = false → (run words files).2 = files) := by
  unfold uses at used
  unfold run edits
  cases parsed : Invocation.parse? words with
  | none => exact ⟨seeded, fun _ => rfl⟩
  | some invocation =>
    cases invocation with
    | help | version => exact ⟨seeded, fun _ => rfl⟩
    | execute place command =>
      rw [parsed] at used
      obtain rfl : place = configPath := of_decide_eq_true used
      dsimp only
      cases configured : configuration files place with
      | error fault => exact ⟨seeded, fun _ => rfl⟩
      | ok c =>
        obtain ⟨store, opened, same, served⟩ := seeded.opens configured
        simp only [opened]
        constructor
        · have left : Preserves (fun m => Served place c.settingsPath m.store) (Machine.execute command) :=
            Machine.execute_keeps fun _ _ _ suits => write_served suits.ranged _
          exact (left (machine c store) served).seeded
        · intro plain
          have kept : Preserves (fun m => m.store = store) (Machine.execute command) :=
            Machine.execute_keeps (P := (· = store)) fun edits => absurd (edits.symm.trans plain) nofun
          exact (congrArg Store.files (kept (machine c store) rfl)).trans same

def runAll : List (List String) → Files → List Outcome × Files
  | [], files => ([], files)
  | words :: rest, files =>
    let (outcome, files) := run words files
    let (outcomes, files) := runAll rest files
    (outcome :: outcomes, files)

private theorem runAll_seeded {runs : List (List String)} (seeded : Seeded configPath files)
    (used : ∀ words ∈ runs, uses configPath words = true) : Seeded configPath (runAll runs files).2 := by
  induction runs generalizing files with
  | nil => exact seeded
  | cons words rest ih =>
    exact ih (run_seeded seeded (used words List.mem_cons_self)).1 fun later inside =>
      used later (List.mem_cons_of_mem words inside)

def kept {α : Type} (items : List (α × Bool)) : List α := (items.filter (·.2)).map (·.1)

variable {script : List (List String × Bool)}

/-- Runs that are no edits can be taken out: the others answer the same and leave the same files. -/
theorem runAll_kept (seeded : Seeded configPath files)
    (used : ∀ entry ∈ script, uses configPath entry.1 = true)
    (plain : ∀ entry ∈ script, entry.2 = false → edits entry.1 = false) :
    runAll (kept script) files =
      (kept ((runAll (script.map (·.1)) files).1.zip (script.map (·.2))),
        (runAll (script.map (·.1)) files).2) := by
  induction script generalizing files with
  | nil => rfl
  | cons entry rest ih =>
    obtain ⟨words, mark⟩ := entry
    obtain ⟨next, same⟩ := run_seeded seeded (used _ List.mem_cons_self)
    have later := ih next (fun entry inside => used entry (List.mem_cons_of_mem _ inside))
      fun entry inside => plain entry (List.mem_cons_of_mem _ inside)
    cases mark with
    | true =>
      change ((run words files).1 :: (runAll (kept rest) (run words files).2).1,
        (runAll (kept rest) (run words files).2).2) = _
      rw [later]
      rfl
    | false =>
      have left := same (plain _ List.mem_cons_self rfl)
      change runAll (kept rest) files = (kept ((runAll (rest.map (·.1)) (run words files).2).1.zip
        (rest.map (·.2))), (runAll (rest.map (·.1)) (run words files).2).2)
      rw [left] at later ⊢
      exact later

/-- Only edits change the settings file or any other. All other runs can be taken out of a list of runs:
the rest answer the same and leave the same files. -/
theorem edits_alone (seeded : Seeded configPath files)
    (used : ∀ entry ∈ script, uses configPath entry.1 = true)
    (plain : ∀ entry ∈ script, entry.2 = false → edits entry.1 = false) :
    (∀ before words after, script.map (·.1) = before ++ words :: after → edits words = false →
        (run words (runAll before files).2).2 = (runAll before files).2) ∧
      runAll (kept script) files =
        (kept ((runAll (script.map (·.1)) files).1.zip (script.map (·.2))),
          (runAll (script.map (·.1)) files).2) := by
  refine ⟨fun before words after split leaves => ?_, runAll_kept seeded used plain⟩
  have used (other : List String) (inside : other ∈ before ++ words :: after) :
      uses configPath other = true := by
    rw [← split] at inside
    obtain ⟨entry, among, rfl⟩ := List.mem_map.mp inside
    exact used entry among
  have seeded := runAll_seeded seeded fun other inside => used other (List.mem_append_left _ inside)
  exact (run_seeded seeded (used words (List.mem_append_right _ List.mem_cons_self))).2 leaves

def factorySettings : Document :=
  (Setting.defaultWrites ++ [Write.complete]).foldl (fun document change => change.apply document) .fresh

def workshop : Files where
  nodes := [(Files.key ["work"], .directory),
    (Files.key ["work", "trak_settings.toml"], .text factorySettings.write)]
  home := ["work"]

private theorem workshop_seeded : Seeded none workshop := by
  refine ⟨rfl, fun c configured => ?_⟩
  cases configured
  have parts : Files.parts "trak_settings.toml" = ["trak_settings.toml"] := by
    unfold Files.parts String.splitOn
    rw [if_neg (by decide)]
    -- one step for each character
    iterate 18
      unfold String.splitOnAux
      rw [if_neg (by decide), if_neg (by decide)]
    unfold String.splitOnAux
    rfl
  have found : workshop.find "trak_settings.toml" = .ok (.text factorySettings.write) := by
    unfold Files.find
    rw [parts]
    rfl
  have tidy : factorySettings.Tidy := Setting.tidy_writes Setting.filling_ranged Document.fresh_tidy
  exact ⟨_, factorySettings, found, Document.read_write tidy, by decide +kernel⟩

def visit : List (List String × Bool) :=
  [(["status"], false), (["settings", "set", "$20", "1"], true),
    (["drive", "-d", "forward", "--distance", "10", "--feed", "100"], false),
    (["settings", "get", "$20"], true)]

theorem visit_edits :
    (run ["status"] workshop).2 = workshop ∧
      runAll [["settings", "set", "$20", "1"], ["settings", "get", "$20"]] workshop =
        (kept ((runAll (visit.map (·.1)) workshop).1.zip [false, true, false, true]),
          (runAll (visit.map (·.1)) workshop).2) := by
  have used : ∀ entry ∈ visit, uses none entry.1 = true := by decide +kernel
  have plain : ∀ entry ∈ visit, entry.2 = false → edits entry.1 = false := by decide +kernel
  obtain ⟨unchanged, same⟩ := edits_alone workshop_seeded used plain
  exact ⟨unchanged [] ["status"] _ rfl (by decide +kernel), same⟩

end CommandLine

end Crawler
