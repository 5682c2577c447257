import Crawler.Proofs.Upkeep

/-! Documents of settings over the calls of any number of stores. A document that is marked as complete
holds every setting, however the calls that wrote it went: each write may fail, and a process may stop
after any of them. -/
namespace Crawler.Setting

open Crawler.Action

variable {document : Document} {changes : List Write}

inductive Edit where
  | set (key : Key) (kind : Kind) (value : Value)
  | setText (key : Key) (text : String)
  | restoreDefaults

def Edit.action : Edit → Action Store Fault Unit
  | set key kind value => Store.set key kind value
  | setText key text => do
    let _ ← Store.setText key text
  | restoreDefaults => Store.restoreDefaults

def Edit.writes : Edit → List Write
  | set key kind value => setWrites key kind value
  | setText key text =>
    match Value.parse key.kind text with
    | .ok value => setWrites key key.kind value
    | .error _ => []
  | restoreDefaults => defaultWrites
where
  setWrites (key : Key) (kind : Kind) (value : Value) : List Write :=
    match Store.checkValue key kind value with
    | .ok () => [.put key value.toStored]
    | .error _ => []

inductive Call where
  | «open»
  | edit (handle : ℕ) (edit : Edit)

/-- Why a call came no further: its next write failed, where directories may have been made already, or
the process stopped. -/
inductive Break where
  | failure (readied : Bool)
  | stop

inductive Event where
  | call (call : Call)
  /-- A call of which only the first writes were made. -/
  | broken (call : Call) (writes : ℕ) (cause : Break)

structure World where
  persistence : Persistence
  files : Files
  handles : List Document

def Store.readied (store : Store) : Store :=
  match store.medium with
  | .memory _ => store
  | .file path =>
    let above := Files.above (Files.parts path)
    { store with files := (store.files.makeDirectories (store.files.start path) above).2 }

def Break.leave : Break → Store → Store
  | failure true, store => store.readied
  | _, store => store

namespace World

/-- An open store: it sees the files as they are, but the document as it was when it last changed it. -/
def store (world : World) (document : Document) : Store :=
  match world.persistence with
  | .memory _ writesLeft => ⟨document, .memory writesLeft, world.files⟩
  | .file path => ⟨document, .file path, world.files⟩

def begun? (world : World) : Call → Option (Store × List Write)
  | .open =>
    match Store.connect world.persistence world.files with
    | .ok store => some (store, store.fillWrites)
    | .error _ => none
  | .edit handle edit => world.handles[handle]?.map fun document => (world.store document, edit.writes)

def left (world : World) (call : Call) (cause : Break) (document : Document) : List Document :=
  match call, cause with
  | .open, _ => world.handles
  | .edit handle _, .failure _ => world.handles.set handle document
  | .edit handle _, .stop => world.handles.eraseIdx handle

def step (world : World) : Event → World
  | .call .open =>
    match Store.open world.persistence world.files with
    | (.ok store, files) => ⟨store.persistence, files, world.handles ++ [store.document]⟩
    | (.error _, files) => { world with files }
  | .call (.edit handle edit) =>
    match world.handles[handle]? with
    | none => world
    | some document =>
      let store := (edit.action.run (world.store document)).2
      ⟨store.persistence, store.files, world.handles.set handle store.document⟩
  | .broken call writes cause =>
    match world.begun? call with
    | none => world
    | some (store, changes) =>
      let store := cause.leave ((Store.writeAll (changes.take writes)).run store).2
      ⟨store.persistence, store.files, world.left call cause store.document⟩

def run (world : World) (events : List Event) : World := events.foldl step world

structure Sound (world : World) : Prop where
  persistence : world.persistence.Sound world.files
  handles : ∀ document ∈ world.handles, document.Sound

/-- Nothing is open yet, and a document that is there is not complete or is whole. -/
structure Starts (world : World) : Prop where
  persistence : world.persistence.Sound world.files
  closed : world.handles = []

structure Settled (world : World) : Prop where
  /-- A complete document is opened as it is, and every setting in it can be read. -/
  whole : ∀ store, Store.connect world.persistence world.files = .ok store → store.isComplete = true →
    Store.open world.persistence world.files = (.ok store, world.files) ∧
      ∀ key : Key, (store.load? key).isSome = true ∧ ∃ value, store.get key key.kind = .ok value
  /-- A store whose writes are all made is complete, and so is the document that one would find. -/
  opens : ∀ store left, Store.connect world.persistence world.files = .ok store →
    (Store.writeAll store.fillWrites).run store = (.ok (), left) →
      Store.open world.persistence world.files = (.ok left, left.files) ∧ left.isComplete = true ∧
        Store.connect left.persistence left.files = .ok left
  /-- Else one of its writes has failed, or the path leads to a directory. -/
  fails : ∀ fault files, Store.open world.persistence world.files = (.error fault, files) →
    (∃ store left, Store.connect world.persistence world.files = .ok store ∧
        (Store.writeAll store.fillWrites).run store = (.error fault, left)) ∨
      ∃ path, world.persistence = .file path ∧ fault = .unreadable path ∧
        world.files.find path = .ok .directory

private theorem store_kept {world : World} (sound : world.Sound) (whole : document.Sound) :
    (world.store document).Kept := by
  have persistence := sound.persistence
  unfold store
  split
  · exact ⟨whole, whole⟩
  · next same =>
    rw [same] at persistence
    exact ⟨whole, persistence⟩

end World

private theorem Store.readied_kept {store : Store} (kept : store.Kept) : store.readied.Kept := by
  obtain ⟨document, medium, files⟩ := store
  cases medium with
  | memory _ => exact kept
  | file path =>
    have holds : Holds files path := kept.persistence
    exact ⟨kept.document, holds.prepares (Files.makeDirectories_prepares ..)⟩

private theorem Break.leave_kept {store : Store} (kept : store.Kept) (cause : Break) :
    (cause.leave store).Kept := by
  unfold leave
  split
  · exact Store.readied_kept kept
  · exact kept

private theorem setWrites_suit (key : Key) (kind : Kind) (value : Value) (document : Document) :
    Suit (Edit.writes.setWrites key kind value) document := by
  unfold Edit.writes.setWrites
  split
  · next checked => exact ⟨⟨value, Store.kind_of_checkValue checked, rfl⟩, trivial⟩
  · trivial

private theorem Edit.writes_suit (edit : Edit) (document : Document) : Suit edit.writes document := by
  cases edit with
  | set key kind value => exact setWrites_suit key kind value document
  | setText key text =>
    change Suit (match Value.parse key.kind text with | .ok value => _ | .error _ => _) document
    split
    · exact setWrites_suit ..
    · trivial
  | restoreDefaults => exact suit_defaults document

private theorem set_writes (key : Key) (kind : Kind) (value : Value) (store : Store) :
    ((Store.set key kind value).run store).2 =
      ((Store.writeAll (Edit.writes.setWrites key kind value)).run store).2 := by
  unfold Edit.writes.setWrites Store.set
  cases checked : Store.checkValue key kind value with
  | ok u =>
    have passed : (Action.ofExcept (.ok u) : Action Store Fault Unit).run store = (.ok u, store) := rfl
    rw [run_bind_ok passed]
    dsimp only
    unfold Store.writeAll
    rcases Store.write_cases (.put key value.toStored) store with ⟨_, written, _⟩ | ⟨_, _, failed, _⟩
    · rw [run_bind_ok written, written]
      rfl
    · rw [run_bind_error failed, failed]
  | error fault => rfl

/-- An edit does its writes and nothing else. -/
theorem Edit.action_writes (edit : Edit) (store : Store) :
    (edit.action.run store).2 = ((Store.writeAll edit.writes).run store).2 := by
  cases edit with
  | set key kind value => exact set_writes key kind value store
  | setText key text =>
    change ((do let _ ← Store.setText key text : Action Store Fault Unit).run store).2 =
      ((Store.writeAll (match Value.parse key.kind text with | .ok value => _ | .error _ => _)).run store).2
    unfold Store.setText
    cases Value.parse key.kind text with
    | error cause => rfl
    | ok value =>
      dsimp only
      rw [← set_writes]
      change (((Store.set key key.kind value >>= fun _ => pure value) >>= fun _ => pure () :
        Action Store Fault Unit).run store).2 = _
      cases done : (Store.set key key.kind value).run store with
      | mk result left =>
        cases result with
        | ok _ =>
          have told : (Store.set key key.kind value >>= fun _ => pure value).run store =
              (.ok value, left) := run_bind_ok done
          rw [run_bind_ok told]
          rfl
        | error _ => rw [run_bind_error (run_bind_error done)]
  | restoreDefaults => rfl

namespace World

variable {world : World}

private theorem begun_kept (sound : world.Sound) {call : Call} {store : Store}
    (begun : world.begun? call = some (store, changes)) : store.Kept ∧ Suit changes store.document := by
  cases call with
  | «open» =>
    change (match Store.connect world.persistence world.files with
      | .ok store => _
      | .error _ => _) = _ at begun
    rcases Store.connect_cases sound.persistence with
      ⟨found, connected, kept, _⟩ | ⟨_, _, _, unreadable⟩
    · rw [connected] at begun
      cases begun
      exact ⟨kept, store.suit_fillWrites⟩
    · rw [unreadable] at begun
      cases begun
  | edit handle edit =>
    obtain ⟨document, there, same⟩ := Option.map_eq_some_iff.mp begun
    cases same
    exact ⟨store_kept sound (sound.handles document (List.mem_of_getElem? there)), edit.writes_suit _⟩

private theorem left_sound (sound : world.Sound) (call : Call) (cause : Break) (whole : document.Sound) :
    ∀ other ∈ world.left call cause document, other.Sound := by
  intro other inside
  unfold left at inside
  split at inside
  · exact sound.handles other inside
  · rcases List.mem_or_eq_of_mem_set inside with inside | rfl
    · exact sound.handles other inside
    · exact whole
  · exact sound.handles other (List.mem_of_mem_eraseIdx inside)

/-- Whatever happens, what is kept stays sound. -/
theorem step_sound (sound : world.Sound) (event : Event) : (world.step event).Sound := by
  unfold step
  split
  · rcases Store.open_cases sound.persistence with
      ⟨_, _, _, _, opened, _, kept, _⟩ | ⟨_, _, _, _, _, failed, persistence⟩ | ⟨_, _, _, _, unreadable⟩
    · rw [opened]
      refine ⟨kept.persistence, fun document inside => ?_⟩
      rcases List.mem_append.mp inside with inside | inside
      · exact sound.handles document inside
      · rw [List.mem_singleton.mp inside]
        exact kept.document
    · rw [failed]
      exact ⟨persistence, sound.handles⟩
    · rw [unreadable]
      exact sound
  · next handle edit =>
    split
    · exact sound
    · next document there =>
      have kept := store_kept sound (sound.handles document (List.mem_of_getElem? there))
      obtain ⟨kept, _⟩ := Store.writeAll_kept (edit.writes_suit _) kept
      rw [← edit.action_writes] at kept
      exact ⟨kept.persistence, left_sound sound (.edit handle edit) (.failure false) kept.document⟩
  · next call writes cause =>
    split
    · exact sound
    · next store changes begun =>
      obtain ⟨kept, suit⟩ := begun_kept sound begun
      have kept := Break.leave_kept (Store.writeAll_kept (suit_take suit writes) kept).1 cause
      exact ⟨kept.persistence, left_sound sound call cause kept.document⟩

private theorem run_sound (sound : world.Sound) (events : List Event) : (world.run events).Sound := by
  induction events generalizing world with
  | nil => exact sound
  | cons event rest ih => exact ih (step_sound sound event)

private theorem Sound.settled (sound : world.Sound) : world.Settled := by
  refine ⟨fun store connected complete => ?_, fun store left connected written => ?_,
    fun fault files failed => ?_⟩
  · rcases Store.connect_cases sound.persistence with
      ⟨found, here, kept, _, files, _⟩ | ⟨_, _, _, unreadable⟩
    · rw [connected] at here
      cases here
      have filled : Store.fill store = (.ok (), store) := if_pos complete
      have opened : Store.open world.persistence world.files = (.ok store, store.files) := by
        unfold Store.open
        simp only [connected, filled]
      refine ⟨files ▸ opened, fun key => ?_⟩
      obtain ⟨stored, value, there, fits⟩ := kept.document.whole complete key
      have there : store.load? key = some stored := there
      rw [there]
      exact ⟨rfl, value, Store.get_of_load there fits⟩
    · rw [connected] at unreadable
      cases unreadable
  · rcases Store.open_cases sound.persistence with
      ⟨_, _, here, made, opened, complete, _, current⟩ | ⟨_, _, _, here, made, _⟩ | ⟨_, _, _, here, _⟩
    all_goals
      rw [connected] at here
      cases here
    · rw [written] at made
      cases made
      exact ⟨opened, complete, current⟩
    · rw [written] at made
      cases made
  · rcases Store.open_cases sound.persistence with
      ⟨_, _, _, _, opened, _⟩ | ⟨store, _, left, connected, made, stopped, _⟩ |
        ⟨path, file, directory, _, unreadable⟩
    · rw [failed] at opened
      cases opened
    · rw [failed] at stopped
      cases stopped
      exact .inl ⟨store, left, connected, made⟩
    · rw [failed] at unreadable
      cases unreadable
      exact .inr ⟨path, file, rfl, directory⟩

/-- However calls went, a document that is complete has every setting, and a store that opens is
complete. -/
theorem run_settled (starts : world.Starts) (events : List Event) : (world.run events).Settled := by
  have sound : world.Sound := by
    refine ⟨starts.persistence, fun document inside => ?_⟩
    rw [starts.closed] at inside
    cases inside
  exact (run_sound sound events).settled

theorem run_settled_interrupted :
    Starts ⟨.file "settings.toml", .empty, []⟩ ∧
      Settled (run ⟨.file "settings.toml", .empty, []⟩
        [.broken .open 10 (.failure true), .call .open, .broken (.edit 0 .restoreDefaults) 3 .stop]) ∧
      Starts ⟨.memory .fresh (some 60), .empty, []⟩ ∧
      Settled (run ⟨.memory .fresh (some 60), .empty, []⟩ [.broken .open 20 .stop, .call .open]) ∧
      (run ⟨.memory .fresh (some 60), .empty, []⟩ [.broken .open 20 .stop, .call .open]).handles.map
        Document.complete = [true] := by
  have file : Starts ⟨.file "settings.toml", .empty, []⟩ := ⟨holds_empty "settings.toml", rfl⟩
  have memory : Starts ⟨.memory .fresh (some 60), .empty, []⟩ := ⟨Document.fresh_sound, rfl⟩
  exact ⟨file, run_settled file _, memory, run_settled memory _, by decide +kernel⟩

end World

end Crawler.Setting
