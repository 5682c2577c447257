import Crawler.Proofs.Document
import Crawler.Proofs.Files
import Crawler.Proofs.Store

/-! What the writes of a store keep. A document is not marked as complete before every setting is in it,
and after each write that is made, the document is what one would find. -/
namespace Crawler.Setting

open Crawler.Action
open Files (Prepares)

variable {document : Document} {change : Write} {changes : List Write}

section Documents

def Document.Whole (document : Document) : Prop :=
  ∀ key : Key, ∃ stored value, document.load? key.text = some stored ∧
    Value.ofStored key.kind stored = .ok value

structure Document.Sound (document : Document) : Prop extends Tidy document where
  whole : document.complete = true → document.Whole

theorem Document.fresh_sound : Document.fresh.Sound := by
  exact ⟨fresh_tidy, nofun⟩

theorem Value.toStored_inRange (value : Value) : value.toStored.InRange := by
  cases value with
  | int n =>
    have least : Int64.minValue.toInt ≤ Int32.minValue.toInt := by decide
    have greatest : Int32.maxValue.toInt ≤ Int64.maxValue.toInt := by decide
    exact ⟨least.trans n.minValue_le_toInt, n.toInt_le.trans greatest⟩
  | short n =>
    have least : Int64.minValue.toInt ≤ Int16.minValue.toInt := by decide
    have greatest : Int16.maxValue.toInt ≤ Int64.maxValue.toInt := by decide
    exact ⟨least.trans n.minValue_le_toInt, n.toInt_le.trans greatest⟩
  | bool _ | float _ => trivial

def Write.Suits : Write → Document → Prop
  | .put key stored, _ => ∃ value : Value, value.kind = key.kind ∧ stored = value.toStored
  | .complete, document => document.Whole

def Suit : List Write → Document → Prop
  | [], _ => True
  | change :: rest, document => change.Suits document ∧ Suit rest (change.apply document)

def Document.Legible (document : Document) (key : Key) : Prop :=
  ∃ stored value, document.load? key.text = some stored ∧ Value.ofStored key.kind stored = .ok value

/-- What a call writes takes no setting away. -/
theorem Write.Suits.legible {key : Key} (suits : change.Suits document) (legible : document.Legible key) :
    (change.apply document).Legible key := by
  cases change with
  | put other stored =>
    obtain ⟨value, kind, rfl⟩ := suits
    change ∃ stored read, (document.insert other.text value.toStored).load? key.text = some stored ∧ _
    rw [Document.load_insert]
    by_cases same : key = other
    · subst same
      rw [if_pos rfl]
      exact ⟨_, value, rfl, kind ▸ value.ofStored_toStored⟩
    · have apart : key.text ≠ other.text := fun texts => same (Key.text_injective texts)
      rw [if_neg apart]
      exact legible
  | complete => exact legible

private theorem Write.Suits.sound (suits : change.Suits document) (sound : document.Sound) :
    (change.apply document).Sound := by
  cases change with
  | put key stored =>
    refine ⟨?_, fun complete other => suits.legible (sound.whole complete other)⟩
    obtain ⟨value, _, rfl⟩ := suits
    exact sound.toTidy.insert key.text value.toStored_inRange
  | complete => exact ⟨⟨sound.sorted, sound.ranged⟩, fun _ => suits⟩

theorem suit_take (suit : Suit changes document) (n : ℕ) : Suit (changes.take n) document := by
  induction changes generalizing document n with
  | nil => rwa [List.take_nil]
  | cons change rest ih =>
    cases n with
    | zero => trivial
    | succ n => exact ⟨suit.1, ih suit.2 n⟩

private theorem suit_append {more : List Write} (suit : Suit changes document)
    (others : Suit more (changes.foldl (fun document change => change.apply document) document)) :
    Suit (changes ++ more) document := by
  induction changes generalizing document with
  | nil => exact others
  | cons change rest ih => exact ⟨suit.1, ih suit.2 others⟩

theorem suit_defaults (document : Document) : Suit defaultWrites document := by
  unfold defaultWrites
  generalize Key.all = keys
  induction keys generalizing document with
  | nil => trivial
  | cons key rest ih => exact ⟨⟨key.default, rfl, rfl⟩, ih _⟩

private theorem suit_fill (document : Document) : Suit (defaultWrites ++ [.complete]) document := by
  refine suit_append (suit_defaults document) ⟨fun key => ?_, trivial⟩
  refine ⟨key.default.toStored, key.default, ?_, key.default.ofStored_toStored⟩
  unfold defaultWrites
  rw [Store.load_puts fun key => key.default.toStored, if_pos (Key.mem_all key)]

end Documents

section Stores

def Store.persistence (store : Store) : Persistence :=
  match store.medium with
  | .memory writesLeft => .memory store.document writesLeft
  | .file path => .file path

/-- There is a working directory, and what the path names, whether or not the directories on the way are
there, is no file or one with a document that can be read. If that has the current version and is marked
as complete, it is whole. -/
structure Holds (files : Files) (path : String) : Prop where
  home : files.node? files.home = some .directory
  noBytes : ∀ name, files.place? path = some name → files.node? name ≠ some .binary
  text : ∀ name content, files.place? path = some name → files.node? name = some (.text content) →
    ∃ found, Document.read? content = some found ∧
      (found.version = Document.formatVersion → found.document.complete = true → found.document.Whole)

def Persistence.Sound (files : Files) : Persistence → Prop
  | .memory document _ => document.Sound
  | .file path => Holds files path

structure Store.Kept (store : Store) : Prop where
  document : store.document.Sound
  persistence : store.persistence.Sound store.files

/-- What is kept is what one would find. -/
def Store.Current (store : Store) : Prop := connect store.persistence store.files = .ok store

variable {store store' : Store} {files made : Files} {path content : String} {persistence : Persistence}

theorem holds_empty (path : String) : Holds .empty path := by
  refine ⟨rfl, fun _ _ there => ?_, fun _ _ _ there => ?_⟩ <;> cases Files.node_empty there

theorem Holds.prepares (holds : Holds files path) (prepares : Prepares files made) : Holds made path := by
  have start : made.place? path = files.place? path := by
    unfold Files.place? Files.start
    rw [prepares.home]
  refine ⟨?_, fun name place bytes => ?_, fun name content place text => ?_⟩
  · rw [prepares.home]
    exact prepares.kept holds.home
  · rw [start] at place
    rcases prepares.new bytes with before | directory
    · exact holds.noBytes name place before
    · cases directory
  · rw [start] at place
    rcases prepares.new text with before | directory
    · exact holds.text name content place before
    · cases directory

private theorem Holds.writeText {files' : Files} (holds : Holds files path) (sound : document.Sound)
    (written : files.writeText path document.write = (true, files')) : Holds files' path := by
  obtain ⟨found, _, home⟩ := Files.writeText_found holds.home written
  obtain ⟨place, named, there⟩ := Files.find_place found
  refine ⟨home, fun name same bytes => ?_, fun name content same text => ?_⟩
  · rw [named] at same
    cases same
    rw [there] at bytes
    cases bytes
  · rw [named] at same
    cases same
    rw [there] at text
    cases text
    exact ⟨_, Document.read_write sound.toTidy, fun _ => sound.whole⟩

private theorem readDocument_cases (holds : Holds files path) :
    (∃ document, Store.readDocument files path = .ok document ∧ document.Sound) ∨
      Store.readDocument files path = .error (.unreadable path) ∧ files.find path = .ok .directory := by
  unfold Store.readDocument
  cases found : files.find path with
  | error _ => exact .inl ⟨.fresh, rfl, Document.fresh_sound⟩
  | ok node =>
    obtain ⟨name, place, there⟩ := Files.find_place found
    cases node with
    | directory => exact .inr ⟨rfl, rfl⟩
    | binary => exact absurd there (holds.noBytes name place)
    | text content =>
      obtain ⟨versioned, read, whole⟩ := holds.text name content place there
      simp only [read]
      by_cases current : versioned.version = Document.formatVersion
      · rw [if_pos current]
        exact .inl ⟨_, rfl, Document.read_tidy read, whole current⟩
      · rw [if_neg current]
        exact .inl ⟨_, rfl, Document.fresh_sound⟩

namespace Store

theorem connect_cases (sound : persistence.Sound files) :
    (∃ store, connect persistence files = .ok store ∧ store.Kept ∧ store.Current ∧ store.files = files ∧
        ∀ path, persistence = .file path → store.medium = .file path) ∨
      ∃ path, persistence = .file path ∧ files.find path = .ok .directory ∧
        connect persistence files = .error (.unreadable path) := by
  cases persistence with
  | memory document writesLeft => exact .inl ⟨_, rfl, ⟨sound, sound⟩, rfl, rfl, nofun⟩
  | file path =>
    rcases readDocument_cases sound with ⟨document, read, whole⟩ | ⟨read, directory⟩
    · have connected : connect (.file path) files = .ok ⟨document, .file path, files⟩ := by
        unfold connect
        simp only [read]
        rfl
      refine .inl ⟨_, connected, ⟨whole, sound⟩, connected, rfl, ?_⟩
      rintro _ ⟨⟩
      rfl
    · refine .inr ⟨path, rfl, directory, ?_⟩
      unfold connect
      simp only [read]
      rfl

private theorem commit_kept (sound : document.Sound) (kept : store.Kept) :
    ((commit document).run store).2.Kept := by
  obtain ⟨old, medium, files⟩ := store
  cases medium with
  | memory writesLeft =>
    cases writesLeft with
    | none => exact ⟨sound, sound⟩
    | some n =>
      cases n with
      | zero => exact kept
      | succ n => exact ⟨sound, sound⟩
  | file path =>
    have holds : Holds files path := kept.persistence
    change (commit document ⟨old, .file path, files⟩).2.Kept
    unfold commit
    dsimp only
    split
    · next written => exact ⟨sound, holds.writeText sound written⟩
    · next failed => exact ⟨kept.document, holds.prepares (Files.writeText_failed failed)⟩

/-- A document that was written to a file is what one would find there. -/
theorem current_of_written {files' : Files} (tidy : document.Tidy)
    (home : files.node? files.home = some .directory)
    (written : files.writeText path document.write = (true, files')) :
    (Store.mk document (.file path) files').Current := by
  have found := (Files.writeText_found home written).1
  have read : readDocument files' path = .ok document := by
    unfold readDocument
    rw [found]
    simp only [Document.read_write tidy]
    rfl
  unfold Current
  change (readDocument files' path).map _ = _
  rw [read]
  rfl

private theorem commit_current (sound : document.Sound) (kept : store.Kept)
    (done : (commit document).run store = (.ok (), store')) : store'.Current := by
  obtain ⟨old, medium, files⟩ := store
  cases medium with
  | memory writesLeft =>
    cases writesLeft with
    | none =>
      cases done
      rfl
    | some n =>
      cases n with
      | zero => cases done
      | succ n =>
        cases done
        rfl
  | file path =>
    have holds : Holds files path := kept.persistence
    change commit document ⟨old, .file path, files⟩ = _ at done
    unfold commit at done
    dsimp only at done
    split at done
    · next files' written =>
      cases done
      exact current_of_written sound.toTidy holds.home written
    · cases done

private theorem commit_medium (document : Document) (there : store.medium = .file path) :
    ((commit document).run store).2.medium = .file path := by
  change (commit document store).2.medium = _
  unfold commit
  rw [there]
  dsimp only
  split <;> rfl

/-- Writes that suit a kept store keep it, however far they come; if all are made, they are what one
would find. -/
theorem writeAll_kept (suit : Suit changes store.document) (kept : store.Kept) :
    ((writeAll changes).run store).2.Kept ∧
      (store.Current → ((writeAll changes).run store).1 = .ok () →
        ((writeAll changes).run store).2.Current) ∧
      ∀ path, store.medium = .file path → ((writeAll changes).run store).2.medium = .file path := by
  induction changes generalizing store with
  | nil => exact ⟨kept, fun current _ => current, fun _ there => there⟩
  | cons change rest ih =>
    have sound := suit.1.sound kept.document
    have next := commit_kept sound kept
    have medium := fun path => @commit_medium store path (change.apply store.document)
    unfold writeAll
    rcases write_cases change store with ⟨store', written, document⟩ | ⟨cause, store', failed, _⟩
    · have same : (commit (change.apply store.document)).run store = (.ok (), store') := written
      rw [same] at next medium
      rw [run_bind_ok written]
      have others : Suit rest store'.document := document ▸ suit.2
      obtain ⟨kept', current, medium'⟩ := ih others next
      exact ⟨kept', fun _ => current (commit_current sound kept same),
        fun path there => medium' path (medium path there)⟩
    · have same : (commit (change.apply store.document)).run store =
        (.error (.commit cause), store') := failed
      rw [same] at next medium
      rw [run_bind_error failed]
      refine ⟨next, fun _ done => ?_, medium⟩
      cases done

def fillWrites (store : Store) : List Write :=
  if store.isComplete then [] else defaultWrites ++ [.complete]

private theorem fill_writes (store : Store) : fill.run store = (writeAll store.fillWrites).run store := by
  change fill store = _
  unfold fill fillWrites
  split <;> rfl

theorem suit_fillWrites (store : Store) : Suit store.fillWrites store.document := by
  unfold fillWrites
  split
  · trivial
  · exact suit_fill store.document

theorem fill_complete (done : fill.run store = (.ok (), store')) : store'.isComplete = true := by
  rw [fill_writes] at done
  unfold fillWrites at done
  split at done
  · next complete =>
    cases done
    exact complete
  · rcases writeAll_cases (defaultWrites ++ [.complete]) store with
      ⟨left, written, document⟩ | ⟨_, _, failed⟩
    · rw [written] at done
      cases done
      unfold isComplete
      rw [document, List.foldl_append]
      rfl
    · rw [failed] at done
      cases done

/-- A store opens if its writes are all made, and is then complete and what one would find. Else one of
them has failed, or the path leads to a directory. -/
theorem open_cases (sound : persistence.Sound files) :
    (∃ store left, connect persistence files = .ok store ∧
        (writeAll store.fillWrites).run store = (.ok (), left) ∧
        Store.open persistence files = (.ok left, left.files) ∧
        left.isComplete = true ∧ left.Kept ∧ left.Current) ∨
      (∃ store cause left, connect persistence files = .ok store ∧
        (writeAll store.fillWrites).run store = (.error (.commit cause), left) ∧
        Store.open persistence files = (.error (.commit cause), left.files) ∧
        persistence.Sound left.files) ∨
      ∃ path, persistence = .file path ∧ files.find path = .ok .directory ∧
        connect persistence files = .error (.unreadable path) ∧
        Store.open persistence files = (.error (.unreadable path), files) := by
  unfold Store.open
  rcases connect_cases sound with
    ⟨store, connected, kept, current, same, medium⟩ | ⟨path, file, directory, unreadable⟩
  · obtain ⟨kept', current', medium'⟩ := writeAll_kept store.suit_fillWrites kept
    have filled : fill store = (writeAll store.fillWrites).run store := fill_writes store
    rcases writeAll_cases store.fillWrites store with ⟨left, written, _⟩ | ⟨cause, left, failed⟩
    · rw [written] at filled kept' current'
      simp only [connected, filled]
      exact .inl ⟨store, left, rfl, written, rfl, fill_complete filled, kept', current' current rfl⟩
    · rw [failed] at filled kept' medium'
      simp only [connected, filled]
      refine .inr (.inl ⟨store, cause, left, rfl, failed, rfl, ?_⟩)
      cases persistence with
      | memory document writesLeft => exact sound
      | file path =>
        have there := kept'.persistence
        unfold Store.persistence at there
        rwa [medium' path (medium path rfl)] at there
  · simp only [unreadable]
    exact .inr (.inr ⟨path, file, directory, rfl, rfl⟩)

section Keeps

variable {P : Store → Prop}

def Upheld (P : Store → Prop) : Prop :=
  ∀ change store, Write.Suits change store.document → P store → P ((write change).run store).2

theorem set_keeps (upheld : Upheld P) (key : Key) (kind : Kind) (value : Value) :
    Preserves P (set key kind value) := by
  intro store held
  unfold set
  cases checked : checkValue key kind value with
  | error fault => exact held
  | ok u => exact upheld _ store ⟨value, kind_of_checkValue checked, rfl⟩ held

theorem setText_keeps (upheld : Upheld P) (key : Key) (text : String) :
    Preserves P (setText key text) := by
  refine preserves_bind (preserves_ofExcept _) fun value => ?_
  exact preserves_map (set_keeps upheld key key.kind value)

private theorem writeAll_keeps (upheld : Upheld P) (suit : Suit changes store.document) (held : P store) :
    P ((writeAll changes).run store).2 := by
  induction changes generalizing store with
  | nil => exact held
  | cons change rest ih =>
    have next := upheld change store suit.1 held
    unfold writeAll
    rcases write_cases change store with ⟨store', made, document⟩ | ⟨cause, store', failed, _⟩
    · rw [made] at next
      rw [run_bind_ok made]
      exact ih (document ▸ suit.2) next
    · rw [failed] at next
      rw [run_bind_error failed]
      exact next

theorem restoreDefaults_keeps (upheld : Upheld P) : Preserves P restoreDefaults := by
  intro store
  exact writeAll_keeps upheld (suit_defaults store.document)

end Keeps

end Store

end Stores

end Crawler.Setting
