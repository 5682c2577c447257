import Crawler.Proofs.Atomicity

/-! Restoring the defaults. Whatever the table held, it is whole afterwards, and what is no setting of it
stays. If a write fails on the way, the settings before it have their defaults and nothing else changed. -/
namespace Crawler.Setting.Store

open Crawler.Action

variable {store store' between : Store} {changes : List Write} {document : Document}

/-- Writes are all made, or they are made up to one that fails. -/
theorem writeAll_stops (changes : List Write) (store : Store) :
    (∃ store', (writeAll changes).run store = (.ok (), store')) ∨
      ∃ made change rest cause between store', changes = made ++ change :: rest ∧
        (writeAll made).run store = (.ok (), between) ∧
        (write change).run between = (.error (.commit cause), store') ∧
        (writeAll changes).run store = (.error (.commit cause), store') := by
  induction changes generalizing store with
  | nil => exact .inl ⟨store, rfl⟩
  | cons change rest ih =>
    have first {next : Store} (written : (write change).run store = (.ok (), next)) (others : List Write) :
        (writeAll (change :: others)).run store = (writeAll others).run next := run_bind_ok written
    rcases write_cases change store with ⟨next, written, _⟩ | ⟨cause, store', failed, _⟩
    · rcases ih next with
        ⟨store', others⟩ | ⟨made, last, left, cause, between, store', split, before, failed, stopped⟩
      · exact .inl ⟨store', (first written rest).trans others⟩
      · exact .inr ⟨change :: made, last, left, cause, between, store', by rw [split, List.cons_append],
          (first written made).trans before, failed, (first written rest).trans stopped⟩
    · exact .inr ⟨[], change, rest, cause, store, store', rfl, rfl, failed, run_bind_error failed⟩

private theorem writeAll_document (written : (writeAll changes).run store = (.ok (), store')) :
    store'.document = changes.foldl (fun document change => change.apply document) store.document := by
  rcases writeAll_cases changes store with ⟨_, same, document⟩ | ⟨_, _, failed⟩
  · rw [written] at same
    cases same
    exact document
  · rw [written] at failed
    cases failed

private theorem load_puts_elsewhere (values : Key → Stored) (keys : List Key) (document : Document)
    {name : String}
    (elsewhere : name ∉ keys.map Key.text) :
    ((keys.map fun key => Write.put key (values key)).foldl
        (fun document change => change.apply document) document).load? name = document.load? name := by
  induction keys generalizing document with
  | nil => rfl
  | cons key rest ih =>
    rw [List.map_cons, List.mem_cons, not_or] at elsewhere
    rw [List.map_cons, List.foldl_cons, ih _ elsewhere.2]
    change (document.insert key.text (values key)).load? name = _
    rw [Document.load_insert, if_neg elsewhere.1]

section Kept

def Filed (store : Store) : Prop :=
  ∀ path, store.medium = .file path → store.files.find path = .ok (.text store.document.write)

def Homed (store : Store) : Prop := store.files.node? store.files.home = some .directory

private theorem write_filed {change : Write} (homed : Homed store)
    (written : (write change).run store = (.ok (), store')) : Homed store' ∧ Filed store' := by
  change commit (change.apply store.document) store = _ at written
  unfold commit at written
  split at written
  · next medium =>
    cases written
    exact ⟨homed, fun path file => by cases medium.symm.trans file⟩
  · cases written
  · next medium =>
    cases written
    exact ⟨homed, nofun⟩
  · next path medium =>
    split at written
    · next files made =>
      cases written
      obtain ⟨found, _, home⟩ := Files.writeText_found homed made
      refine ⟨home, fun other file => ?_⟩
      cases medium.symm.trans file
      exact found
    · cases written

private theorem writeAll_filed (homed : Homed store)
    (written : (writeAll changes).run store = (.ok (), store')) :
    Homed store' ∧ (changes ≠ [] → Filed store') := by
  induction changes generalizing store with
  | nil =>
    cases written
    exact ⟨homed, absurd rfl⟩
  | cons change rest ih =>
    obtain ⟨_, next, made, others⟩ := run_bind_eq_ok.mp written
    obtain ⟨home, filed⟩ := write_filed homed made
    obtain ⟨home', filed'⟩ := ih home others
    refine ⟨home', fun _ => ?_⟩
    cases rest with
    | nil =>
      cases others
      exact filed
    | cons change rest => exact filed' (List.cons_ne_nil _ _)

private theorem unwritten_filed (unwritten : Unwritten store store') (filed : Filed store) :
    Filed store' := by
  intro path file
  rw [unwritten.document]
  rw [unwritten.medium] at file
  exact (unwritten.files path file).found _ (filed path file)

end Kept

/-- Restored defaults are what the table lists, in its order. If the write after the first `k` fails, they
are in place for the first `k` settings. Everything else is as it was, and from the first write on the
file of the store holds the document of the store. -/
theorem restore_cases (store : Store) :
    (∃ store', restoreDefaults.run store = (.ok (), store') ∧
        store'.list = .ok (Key.all.map fun key => ⟨key, key.default⟩) ∧
        (∀ name ∉ Key.all.map Key.text, store'.document.load? name = store.document.load? name) ∧
        (Homed store → Filed store')) ∨
      ∃ k change cause between store', defaultWrites[k]? = some change ∧
        (writeAll (defaultWrites.take k)).run store = (.ok (), between) ∧
        (write change).run between = (.error (.commit cause), store') ∧
        restoreDefaults.run store = (.error (.commit cause), store') ∧
        (∀ key ∈ Key.all.take k, store'.value key = .ok key.default) ∧
        (∀ name ∉ (Key.all.take k).map Key.text,
          store'.document.load? name = store.document.load? name) ∧
        Unwritten between store' ∧ (Homed store → 0 < k → Filed store') := by
  have defaults (k : ℕ) : defaultWrites.take k =
      (Key.all.take k).map fun key => .put key key.default.toStored := List.map_take.symm
  rcases writeAll_stops defaultWrites store with
    ⟨store', written⟩ | ⟨made, change, rest, cause, between, store', split, before, failed, stopped⟩
  · have document := writeAll_document written
    refine .inl ⟨store', written, list_of_value fun key => value_of_defaults document (Key.mem_all key),
      fun name elsewhere => ?_, fun homed => (writeAll_filed homed written).2 nofun⟩
    rw [document]
    exact load_puts_elsewhere (fun key => key.default.toStored) _ _ elsewhere
  · have first : made = defaultWrites.take made.length := by rw [split, List.take_left]
    have unwritten := commit_unwritten failed
    have document := writeAll_document before
    rw [← unwritten.document, first, defaults] at document
    refine .inr ⟨made.length, change, cause, between, store', ?_, first ▸ before, failed, stopped,
      fun key inside => value_of_defaults document inside, fun name elsewhere => ?_, unwritten,
      fun homed some => unwritten_filed unwritten ?_⟩
    · rw [split, List.getElem?_append_right (Nat.le_refl _), Nat.sub_self]
      rfl
    · rw [document]
      exact load_puts_elsewhere (fun key => key.default.toStored) _ _ elsewhere
    · exact (writeAll_filed homed before).2 (List.length_pos_iff.mp some)

end Crawler.Setting.Store
