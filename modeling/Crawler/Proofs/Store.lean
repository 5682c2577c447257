import Crawler.Proofs.Action
import Crawler.Proofs.Single
import Crawler.Setting.Store

/-! The settings store under its writes. A write puts one entry and leaves the others, or fails and
leaves the document; what was put can be read again, so that no value that was written is refused. -/
namespace Crawler.Setting

open Crawler.Action

namespace Document

private theorem find_insertEntry (name : String) (value : Stored) (entries : List (String × Stored))
    (other : String) :
    ((insertEntry name value entries).find? (·.1 = other)).map (·.2) =
      if other = name then some value else (entries.find? (·.1 = other)).map (·.2) := by
  induction entries with
  | nil =>
    unfold insertEntry
    by_cases same : name = other
    · simp [same]
    · simp [same, Ne.symm same]
  | cons entry rest ih =>
    obtain ⟨here, old⟩ := entry
    unfold insertEntry
    by_cases same : name = other
    · subst same
      rw [if_pos rfl] at ih ⊢
      split
      · simp
      · next apart =>
        split
        · simp
        · simpa [List.find?_cons, Ne.symm apart] using ih
    · rw [if_neg (Ne.symm same)] at ih ⊢
      split
      · next found => simp [same, ← found]
      · split
        · simp [List.find?_cons, same]
        · by_cases found : here = other
          · simp [found]
          · simpa [List.find?_cons, found] using ih

theorem load_insert (document : Document) (name : String) (value : Stored) (other : String) :
    (document.insert name value).load? other =
      if other = name then some value else document.load? other := by
  exact find_insertEntry name value document.entries other

end Document

theorem Key.text_injective {k l : Key} (same : k.text = l.text) : k = l := by
  have apart : ∀ k ∈ Key.all, ∀ l ∈ Key.all, k.text = l.text → k = l := by decide +kernel
  exact apart k (mem_all k) l (mem_all l) same

/-- What a value is stored as stands for it. -/
theorem Value.ofStored_toStored (v : Value) : ofStored v.kind v.toStored = .ok v := by
  cases v with
  | int n =>
    simp only [kind, toStored, ofStored, int32?]
    rw [if_pos ⟨n.minValue_le_toInt, n.toInt_le⟩, Int32.ofInt_toInt]
  | short n =>
    simp only [kind, toStored, ofStored, int16?]
    rw [if_pos ⟨n.minValue_le_toInt, n.toInt_le⟩, Int16.ofInt_toInt]
  | bool b => rfl
  | float x => exact congrArg (fun x => Except.ok (Value.float x)) (Number.narrow_widen x)

namespace Store

variable {store store' : Store} {key : Key}

theorem write_cases (change : Write) (store : Store) :
    (∃ store', (write change).run store = (.ok (), store') ∧
        store'.document = change.apply store.document) ∨
      ∃ cause store', (write change).run store = (.error (.commit cause), store') ∧
        store'.document = store.document := by
  change (∃ store', commit (change.apply store.document) store = _ ∧ _) ∨
    ∃ cause store', commit (change.apply store.document) store = _ ∧ _
  unfold commit
  split
  · exact .inl ⟨_, rfl, rfl⟩
  · exact .inr ⟨_, _, rfl, rfl⟩
  · exact .inl ⟨_, rfl, rfl⟩
  · split
    · exact .inl ⟨_, rfl, rfl⟩
    · exact .inr ⟨_, _, rfl, rfl⟩

theorem writeAll_cases (changes : List Write) (store : Store) :
    (∃ store', (writeAll changes).run store = (.ok (), store') ∧
        store'.document = changes.foldl (fun document change => change.apply document) store.document) ∨
      ∃ cause store', (writeAll changes).run store = (.error (.commit cause), store') := by
  induction changes generalizing store with
  | nil => exact .inl ⟨store, rfl, rfl⟩
  | cons change rest ih =>
    unfold writeAll
    rcases write_cases change store with ⟨next, written, document⟩ | ⟨cause, store', failed, _⟩
    · rw [run_bind_ok written, List.foldl_cons, ← document]
      exact ih next
    · exact .inr ⟨cause, store', run_bind_error failed⟩

theorem load_puts (values : Key → Stored) (keys : List Key) (document : Document) (key : Key) :
    ((keys.map fun k => Write.put k (values k)).foldl
        (fun document change => change.apply document) document).load? key.text =
      if key ∈ keys then some (values key) else document.load? key.text := by
  induction keys generalizing document with
  | nil => rfl
  | cons k rest ih =>
    rw [List.map_cons, List.foldl_cons, ih]
    change (if key ∈ rest then _ else (document.insert k.text (values k)).load? key.text) = _
    rw [Document.load_insert]
    by_cases same : key = k
    · subst same
      simp
    · have apart : key.text ≠ k.text := fun texts => same (Key.text_injective texts)
      simp [same, apart]

theorem get_of_load {stored : Stored} {value : Value} (there : store.load? key = some stored)
    (fits : Value.ofStored key.kind stored = .ok value) : store.get key key.kind = .ok value := by
  unfold get checkKind decode
  rw [if_pos rfl, there]
  change (Value.ofStored key.kind stored).mapError _ = _
  rw [fits]
  rfl

theorem value_of_load {value : Value} (kind : value.kind = key.kind)
    (there : store.load? key = some value.toStored) : store.value key = .ok value := by
  refine get_of_load there ?_
  exact kind ▸ value.ofStored_toStored

/-- A value that passes has the kind of its setting. -/
theorem kind_of_checkValue {kind : Kind} {value : Value} {u : Unit}
    (checked : checkValue key kind value = .ok u) : value.kind = key.kind := by
  obtain ⟨_, _, passed⟩ := except_bind_eq_ok.mp checked
  obtain ⟨_, matched, _⟩ := except_bind_eq_ok.mp passed
  unfold checkKind at matched
  split at matched
  · next same => exact same.symm
  · cases matched

/-- A setting that was entered can be read. -/
theorem setText_cases (key : Key) (text : String) (store : Store) :
    (∃ value store', (setText key text).run store = (.ok value, store') ∧
        store'.value key = .ok value) ∨
      (∃ fault, (setText key text).run store = (.error fault, store)) ∨
      ∃ cause store', (setText key text).run store = (.error (.commit cause), store') := by
  unfold setText
  cases parsed : (Value.parse key.kind text).mapError (Fault.invalid key) with
  | error fault => exact .inr (.inl ⟨fault, rfl⟩)
  | ok value =>
    have told : (Action.ofExcept (.ok value) : Action Store Fault Value).run store = (.ok value, store) :=
      rfl
    rw [run_bind_ok told]
    unfold set
    cases checked : checkValue key key.kind value with
    | error fault => exact .inr (.inl ⟨fault, rfl⟩)
    | ok u =>
      have kind := kind_of_checkValue checked
      rcases write_cases (.put key value.toStored) store with
        ⟨store', written, document⟩ | ⟨cause, store', failed, _⟩
      · have there : store'.load? key = some value.toStored := by
          unfold load?
          rw [document]
          change (store.document.insert key.text value.toStored).load? key.text = _
          rw [Document.load_insert, if_pos rfl]
        exact .inl ⟨value, store', run_bind_ok written, value_of_load kind there⟩
      · exact .inr (.inr ⟨cause, store', run_bind_error failed⟩)

theorem list_of_value {value : Key → Value} (readable : ∀ key, store.value key = .ok (value key)) :
    store.list = .ok (Key.all.map fun key => ⟨key, value key⟩) := by
  unfold list
  generalize Key.all = keys
  induction keys with
  | nil => rfl
  | cons key rest ih =>
    have read := readable key
    unfold Store.value at read
    rw [List.mapM_cons, ih, read]
    rfl

/-- Defaults that were put in a document are read from it. -/
theorem value_of_defaults {keys : List Key} {document : Document}
    (put : store.document = (keys.map fun key => Write.put key key.default.toStored).foldl
      (fun document change => change.apply document) document) (inside : key ∈ keys) :
    store.value key = .ok key.default := by
  have there : store.load? key = some key.default.toStored := by
    unfold load?
    rw [put, load_puts fun key => key.default.toStored, if_pos inside]
  exact value_of_load rfl there

/-- After the defaults were restored every setting can be read. -/
theorem restoreDefaults_cases (store : Store) :
    (∃ store' entries, restoreDefaults.run store = (.ok (), store') ∧ store'.list = .ok entries) ∨
      ∃ cause store', restoreDefaults.run store = (.error (.commit cause), store') := by
  rcases writeAll_cases defaultWrites store with ⟨store', written, document⟩ | failed
  · exact .inl ⟨store', _, written,
      list_of_value fun key => value_of_defaults document (Key.mem_all key)⟩
  · exact .inr failed

end Store

end Crawler.Setting
