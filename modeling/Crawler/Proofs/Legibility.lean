import Crawler.Proofs.Edits

/-! Settings that stay readable. A write puts a value of the kind of its setting, so that a setting that
can be read once can be read from then on, as long as the settings are changed by writes alone. -/
namespace Crawler

open Crawler.Action

namespace Setting

namespace Value

theorem kind_of_ofStored {kind : Kind} {stored : Stored} {value : Value}
    (read : ofStored kind stored = .ok value) : value.kind = kind := by
  unfold ofStored at read
  split at read
  · split at read <;> cases read
    rfl
  · split at read <;> cases read
    rfl
  all_goals cases read
  all_goals rfl

end Value

namespace Store

variable {store : Store} {key : Key}

private theorem get_legible {kind : Kind} {value : Value} (read : store.get key kind = .ok value) :
    store.document.Legible key := by
  obtain ⟨_, matched, read⟩ := except_bind_eq_ok.mp read
  unfold checkKind at matched
  split at matched
  · next same =>
    subst same
    split at read
    · cases read
    · next stored there => exact ⟨stored, value, there, except_mapError_eq_ok.mp read⟩
  · cases matched

private theorem get_of_legible (legible : store.document.Legible key) :
    ∃ value, store.get key key.kind = .ok value ∧ value.kind = key.kind := by
  obtain ⟨stored, value, there, read⟩ := legible
  exact ⟨value, get_of_load there read, Value.kind_of_ofStored read⟩

/-- A query takes every value of the kind that it asks for. -/
theorem query_iff {α : Type} {take : Value → Except Fault α}
    (takes : ∀ value : Value, value.kind = key.kind → ∃ a, take value = .ok a) :
    (∃ a, store.get key key.kind >>= take = .ok a) ↔ store.document.Legible key := by
  constructor
  · rintro ⟨_, read⟩
    obtain ⟨_, read, _⟩ := except_bind_eq_ok.mp read
    exact get_legible read
  · intro legible
    obtain ⟨value, read, kind⟩ := get_of_legible legible
    obtain ⟨a, taken⟩ := takes value kind
    exact ⟨a, except_bind_eq_ok.mpr ⟨value, read, taken⟩⟩

private theorem int_iff (int : key.kind = .int) :
    (∃ n, store.int key = .ok n) ↔ store.document.Legible key := by
  rw [← query_iff fun value kind => ?_, int]
  · rfl
  · rw [int] at kind
    cases value <;> cases kind
    exact ⟨_, rfl⟩

private theorem flag_iff (bool : key.kind = .bool) :
    (∃ b, store.flag key = .ok b) ↔ store.document.Legible key := by
  rw [← query_iff fun value kind => ?_, bool]
  · rfl
  · rw [bool] at kind
    cases value <;> cases kind
    exact ⟨_, rfl⟩

private theorem upheld_legible (key : Key) : Upheld fun store => store.document.Legible key := by
  intro change store suits legible
  rcases write_cases change store with ⟨store', written, document⟩ | ⟨_, store', failed, document⟩
  · rw [written]
    dsimp only
    rw [document]
    exact suits.legible legible
  · rw [failed]
    dsimp only
    rwa [document]

private theorem action_keeps {P : Store → Prop} (upheld : Upheld P) (operation : Operation) :
    Preserves P operation.action := by
  cases operation with
  | set key kind value => exact preserves_map (set_keeps upheld key kind value)
  | setText key text => exact preserves_map (setText_keeps upheld key text)
  | restoreDefaults => exact preserves_map (restoreDefaults_keeps upheld)
  | get | value | float | int | flag | number | list => exact fun _ held => held

private theorem answers_keeps {P : Store → Prop} (upheld : Upheld P) (operations : List Operation)
    (held : P store) :
    P (store.answers operations).2 := by
  induction operations generalizing store with
  | nil => exact held
  | cons operation rest ih => exact ih (action_keeps upheld operation store held)

end Store

end Setting

namespace Spindle

def keys : List Setting.Key := [.spindleMaxRpm, .spindleMinRpm, .laserMode]

private theorem settings_iff {store : Setting.Store} :
    (∃ settings, Spindle.settings store = .ok settings) ↔ ∀ key ∈ keys, store.document.Legible key := by
  have most : (∃ n, store.int .spindleMaxRpm = .ok n) ↔ _ := Setting.Store.int_iff rfl
  have least : (∃ n, store.int .spindleMinRpm = .ok n) ↔ _ := Setting.Store.int_iff rfl
  have laser : (∃ b, store.flag .laserMode = .ok b) ↔ _ := Setting.Store.flag_iff rfl
  constructor
  · rintro ⟨settings, asked⟩
    obtain ⟨_, read, asked⟩ := except_bind_eq_ok.mp asked
    obtain ⟨_, read', asked⟩ := except_bind_eq_ok.mp asked
    obtain ⟨_, flag, _⟩ := except_bind_eq_ok.mp asked
    simp only [keys, List.forall_mem_cons]
    exact ⟨most.mp ⟨_, read⟩, least.mp ⟨_, read'⟩, laser.mp ⟨_, flag⟩, nofun⟩
  · intro legible
    simp only [keys, List.forall_mem_cons] at legible
    obtain ⟨_, read⟩ := most.mpr legible.1
    obtain ⟨_, read'⟩ := least.mpr legible.2.1
    obtain ⟨_, flag⟩ := laser.mpr legible.2.2.1
    unfold Spindle.settings
    rw [read, read', flag]
    exact ⟨_, rfl⟩

end Spindle

namespace Machine

variable {m : Machine} {P : Setting.Store → Prop}

def Stimulus.Orderly (m : Machine) : Stimulus → Prop
  | .reconfigure store => ∃ operations, store = (m.store.answers operations).2
  | _ => True

def Orderly : List Stimulus → Machine → Prop
  | [], _ => True
  | stimulus :: rest, m => stimulus.Orderly m ∧ Orderly rest ((respond stimulus).run m).2

private theorem respond_upheld (upheld : Setting.Store.Upheld P) {stimulus : Stimulus}
    (orderly : stimulus.Orderly m) (held : P m.store) : P ((respond stimulus).run m).2.store := by
  cases stimulus with
  | command command =>
    have kept : Preserves (fun m => P m.store) (respond (.command command)) :=
      preserves_map (execute_keeps fun _ => upheld)
    exact kept m held
  | wait =>
    have kept : Preserves (fun m => P m.store) (respond .wait) :=
      preserves_map (fun _ held => held)
    exact kept m held
  | reconfigure store =>
    obtain ⟨operations, rfl⟩ := orderly
    exact Setting.Store.answers_keeps upheld operations held
  | advance | advanceUntil | failNext | overrideLevel | edge => exact held

/-- Settings of the spindle that can be read stay so. -/
theorem respond_settings {stimulus : Stimulus} (orderly : stimulus.Orderly m)
    (asked : ∃ settings, Spindle.settings m.store = .ok settings) :
    ∃ settings, Spindle.settings ((respond stimulus).run m).2.store = .ok settings := by
  rw [Spindle.settings_iff] at asked ⊢
  exact fun key inside => respond_upheld (Setting.Store.upheld_legible key) orderly (asked key inside)

end Machine

end Crawler
