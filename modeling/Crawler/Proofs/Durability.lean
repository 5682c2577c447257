import Crawler.Proofs.Upkeep

/-! Settings over sessions. A store that keeps its document in a file is closed and opened again any number
of times; as long as the file can be written, it answers like a store in memory that stays open. -/
namespace Crawler.Setting

open Crawler.Action

inductive Operation where
  | get (key : Key) (kind : Kind)
  | value (key : Key)
  | float (key : Key)
  | int (key : Key)
  | flag (key : Key)
  | number (key : Key)
  | list
  | set (key : Key) (kind : Kind) (value : Value)
  | setText (key : Key) (text : String)
  | restoreDefaults
deriving DecidableEq, Repr

inductive Answer where
  | value (value : Value)
  | float (x : Float)
  | int (n : Int32)
  | flag (b : Bool)
  | entries (entries : List Entry)
  | done
deriving DecidableEq, Repr

namespace Operation

def ask {α : Type} (query : Store → Except Fault α) (answer : α → Answer) : Action Store Fault Answer :=
  fun store => ((query store).map answer, store)

def action : Operation → Action Store Fault Answer
  | get key kind => ask (·.get key kind) .value
  | value key => ask (·.value key) .value
  | float key => ask (·.float key) .float
  | int key => ask (·.int key) .int
  | flag key => ask (·.flag key) .flag
  | number key => ask (·.number key) .float
  | list => ask (·.list) .entries
  | set key kind given => do
    Store.set key kind given
    return .done
  | setText key text => return .value (← Store.setText key text)
  | restoreDefaults => do
    Store.restoreDefaults
    return .done

end Operation

namespace Store

def answers : List Operation → Store → List (Except Fault Answer) × Store
  | [], store => ([], store)
  | operation :: rest, store =>
    let (answer, store) := operation.action.run store
    let (answers, store) := answers rest store
    (answer :: answers, store)

def session (path : String) (operations : List Operation) :
    Action Files Fault (List (Except Fault Answer)) := do
  let store ← Store.open (.file path)
  let (answers, store) := answers operations store
  .modify fun _ => store.files
  return answers

def sessions (path : String) : List (List Operation) → Action Files Fault (List (Except Fault Answer))
  | [] => pure []
  | operations :: rest => do
    let answers ← session path operations
    let others ← sessions path rest
    return answers ++ others

end Store

section Twins

/-- A store on a file that can be written and a store in memory that hold the same document. The one in
the file is what one would find. -/
structure Twins (path : String) (s t : Store) : Prop where
  document : s.document = t.document
  tidy : s.document.Tidy
  file : s.medium = .file path
  memory : t.medium = .memory none
  home : s.files.node? s.files.home = some .directory
  writable : s.files.Writable path
  current : s.Current

structure Mirrors (path : String) (s t : Store) : Prop extends Twins path s t where
  complete : s.isComplete = true

def Write.Ranged : Write → Prop
  | .put _ value => value.InRange
  | .complete => True

variable {path : String} {s t : Store} {document : Document} {change : Write} {changes : List Write}

theorem Write.Suits.ranged (suits : change.Suits document) : change.Ranged := by
  cases change with
  | put key stored =>
    obtain ⟨value, _, rfl⟩ := suits
    exact value.toStored_inRange
  | complete => trivial

theorem Write.Ranged.tidy (ranged : change.Ranged) (tidy : document.Tidy) : (change.apply document).Tidy := by
  cases change with
  | put key value => exact tidy.insert key.text ranged
  | complete => exact ⟨tidy.sorted, tidy.ranged⟩

theorem tidy_writes (ranged : ∀ change ∈ changes, change.Ranged) (tidy : document.Tidy) :
    (changes.foldl (fun document change => change.apply document) document).Tidy := by
  induction changes generalizing document with
  | nil => exact tidy
  | cons change rest ih =>
    exact ih (fun later inside => ranged later (List.mem_cons_of_mem change inside))
      ((ranged change List.mem_cons_self).tidy tidy)

private theorem defaultWrites_ranged : ∀ change ∈ defaultWrites, change.Ranged := by
  intro change inside
  obtain ⟨key, _, rfl⟩ := List.mem_map.mp inside
  exact key.default.toStored_inRange

theorem filling_ranged : ∀ change ∈ defaultWrites ++ [.complete], change.Ranged := by
  intro change inside
  rcases List.mem_append.mp inside with default | last
  · exact defaultWrites_ranged change default
  · rw [List.mem_singleton.mp last]
    trivial

theorem Write.apply_complete (change : Write) (complete : document.complete = true) :
    (change.apply document).complete = true := by
  cases change with
  | put key value => exact complete
  | complete => rfl

/-- Both are written, and stay twins. -/
theorem Twins.write (twins : Twins path s t) (ranged : change.Ranged) :
    ∃ s' t', (Store.write change).run s = (.ok (), s') ∧ (Store.write change).run t = (.ok (), t') ∧
      Twins path s' t' ∧ (s.isComplete = true → s'.isComplete = true) := by
  obtain ⟨document, medium, files⟩ := s
  obtain ⟨other, medium', others⟩ := t
  obtain ⟨same, tidy, file, memory, home, writable, _⟩ := twins
  dsimp only at same tidy file memory home writable
  subst same file memory
  have tidy := ranged.tidy tidy
  obtain ⟨left, written⟩ := writable.writes (change.apply document).write
  obtain ⟨_, _, stays⟩ := Files.writeText_found home written
  have committed : (Store.write change).run ⟨document, .file path, files⟩ =
      (.ok (), ⟨change.apply document, .file path, left⟩) := by
    change Store.commit (change.apply document) ⟨document, .file path, files⟩ = _
    unfold Store.commit
    simp only [written]
  exact ⟨_, _, committed, rfl, ⟨rfl, tidy, rfl, rfl, stays, Files.writable_of_written written,
    Store.current_of_written tidy home written⟩, change.apply_complete⟩

private theorem Twins.writeAll (twins : Twins path s t) (ranged : ∀ change ∈ changes, change.Ranged) :
    ∃ s' t', (Store.writeAll changes).run s = (.ok (), s') ∧
      (Store.writeAll changes).run t = (.ok (), t') ∧
      Twins path s' t' ∧ (s.isComplete = true → s'.isComplete = true) := by
  induction changes generalizing s t with
  | nil => exact ⟨s, t, rfl, rfl, twins, id⟩
  | cons change rest ih =>
    obtain ⟨u, v, here, also, between, kept⟩ := twins.write (ranged change List.mem_cons_self)
    obtain ⟨s', t', others, also', left, kept'⟩ :=
      ih between fun later inside => ranged later (List.mem_cons_of_mem change inside)
    refine ⟨s', t', ?_, ?_, left, kept' ∘ kept⟩
    · unfold Store.writeAll
      rw [run_bind_ok here, others]
    · unfold Store.writeAll
      rw [run_bind_ok also, also']

end Twins

section Agreement

variable {path : String} {s t : Store} {files : Files}

private theorem writeAll_agrees {changes : List Write} (ranged : ∀ change ∈ changes, change.Ranged) :
    Agrees (Mirrors path) (Store.writeAll changes) := by
  intro s t mirrors
  obtain ⟨s', t', here, also, twins, kept⟩ := mirrors.toTwins.writeAll ranged
  rw [here, also]
  exact ⟨rfl, twins, kept mirrors.complete⟩

private theorem write_agrees {change : Write} (ranged : change.Ranged) :
    Agrees (Mirrors path) (Store.write change) := by
  intro s t mirrors
  obtain ⟨s', t', here, also, twins, kept⟩ := mirrors.toTwins.write ranged
  rw [here, also]
  exact ⟨rfl, twins, kept mirrors.complete⟩

private theorem set_agrees (key : Key) (kind : Kind) (value : Value) :
    Agrees (Mirrors path) (Store.set key kind value) := by
  refine agrees_bind (agrees_ofExcept _) fun _ => ?_
  exact write_agrees value.toStored_inRange

private theorem setText_agrees (key : Key) (text : String) :
    Agrees (Mirrors path) (Store.setText key text) := by
  refine agrees_bind (agrees_ofExcept _) fun _ => ?_
  exact agrees_map (set_agrees _ _ _)

namespace Operation

/-- What is read of a store is read of its document. -/
theorem ask_agrees {α : Type} {query : Store → Except Fault α} {answer : α → Answer}
    (same : ∀ s t : Store, s.document = t.document → query s = query t) :
    Agrees (Mirrors path) (ask query answer) := by
  intro s t mirrors
  refine ⟨?_, mirrors⟩
  change (query s).map answer = (query t).map answer
  rw [same s t mirrors.document]

private theorem get_same (key : Key) (kind : Kind) (same : s.document = t.document) :
    s.get key kind = t.get key kind := by
  unfold Store.get Store.load?
  rw [same]

private theorem action_agrees (operation : Operation) : Agrees (Mirrors path) operation.action := by
  cases operation with
  | get key kind => exact ask_agrees fun _ _ same => get_same key kind same
  | value key => exact ask_agrees fun _ _ same => get_same key key.kind same
  | float key =>
    refine ask_agrees fun _ _ same => ?_
    unfold Store.float
    rw [get_same key .float same]
  | int key =>
    refine ask_agrees fun _ _ same => ?_
    unfold Store.int
    rw [get_same key .int same]
  | flag key =>
    refine ask_agrees fun _ _ same => ?_
    unfold Store.flag
    rw [get_same key .bool same]
  | number key =>
    refine ask_agrees fun _ _ same => ?_
    unfold Store.number Store.value
    rw [get_same key key.kind same]
  | list =>
    refine ask_agrees fun _ _ same => ?_
    unfold Store.list
    simp only [get_same _ _ same]
  | set key kind value => exact agrees_map (set_agrees key kind value)
  | setText key text => exact agrees_map (setText_agrees key text)
  | restoreDefaults => exact agrees_map (writeAll_agrees defaultWrites_ranged)

end Operation

private theorem answers_agree (operations : List Operation) (mirrors : Mirrors path s t) :
    (s.answers operations).1 = (t.answers operations).1 ∧
      Mirrors path (s.answers operations).2 (t.answers operations).2 := by
  induction operations generalizing s t with
  | nil => exact ⟨rfl, mirrors⟩
  | cons operation rest ih =>
    obtain ⟨here, between⟩ := operation.action_agrees s t mirrors
    obtain ⟨others, left⟩ := ih between
    exact ⟨congrArg₂ List.cons here others, left⟩

private theorem answers_cons (operation : Operation) (rest : List Operation) (store : Store) :
    store.answers (operation :: rest) =
      ((operation.action.run store).1 :: ((operation.action.run store).2.answers rest).1,
        ((operation.action.run store).2.answers rest).2) := rfl

private theorem answers_append (operations more : List Operation) (store : Store) :
    store.answers (operations ++ more) =
      ((store.answers operations).1 ++ ((store.answers operations).2.answers more).1,
        ((store.answers operations).2.answers more).2) := by
  induction operations generalizing store with
  | nil => rfl
  | cons operation rest ih =>
    rw [List.cons_append, answers_cons, ih]
    rfl

end Agreement

section Sessions

variable {path : String} {s t : Store} {files : Files}

def Stands (path : String) (files : Files) (t : Store) : Prop :=
  ∃ s, (Store.open (.file path)).run files = (.ok s, s.files) ∧ Mirrors path s t

theorem open_of_fill {persistence : Persistence} (connected : Store.connect persistence files = .ok s)
    (filled : Store.fill s = (.ok (), t)) : (Store.open persistence).run files = (.ok t, t.files) := by
  change Store.open persistence files = _
  unfold Store.open
  simp only [connected, filled]

/-- A complete store that is closed is opened as it was. -/
theorem Mirrors.stands (mirrors : Mirrors path s t) : Stands path s.files t := by
  have connected : Store.connect (.file path) s.files = .ok s := by
    have current := mirrors.current
    unfold Store.Current Store.persistence at current
    rwa [mirrors.file] at current
  have filled : Store.fill s = (.ok (), s) := if_pos mirrors.complete
  exact ⟨s, open_of_fill connected filled, mirrors⟩

/-- Where there is no file, the defaults are written to it. -/
theorem open_stands {fault : PathFault} (home : files.node? files.home = some .directory)
    (absent : files.find path = .error fault) (writable : files.Writable path) (others : Files) :
    ∃ t, (Store.open (.memory .fresh none)).run others = (.ok t, t.files) ∧ Stands path files t := by
  have read : Store.readDocument files path = .ok .fresh := by
    unfold Store.readDocument
    rw [absent]
  have connected : Store.connect (.file path) files = .ok ⟨.fresh, .file path, files⟩ := by
    unfold Store.connect
    simp only [read]
    rfl
  have twins : Twins path ⟨.fresh, .file path, files⟩ ⟨.fresh, .memory none, others⟩ :=
    ⟨rfl, Document.fresh_tidy, rfl, rfl, home, writable, connected⟩
  obtain ⟨s, t, written, also, left, _⟩ := twins.writeAll filling_ranged
  have filled : Store.fill ⟨.fresh, .file path, files⟩ = (.ok (), s) := written
  have filled' : Store.fill ⟨.fresh, .memory none, others⟩ = (.ok (), t) := also
  refine ⟨t, ?_, s, ?_, left, Store.fill_complete filled⟩
  · exact open_of_fill rfl filled'
  · exact open_of_fill connected filled

private theorem session_stands (operations : List Operation) (stands : Stands path files t) :
    ∃ left, (Store.session path operations).run files = (.ok (t.answers operations).1, left) ∧
      Stands path left (t.answers operations).2 := by
  obtain ⟨s, opened, mirrors⟩ := stands
  obtain ⟨same, left⟩ := answers_agree operations mirrors
  refine ⟨(s.answers operations).2.files, ?_, left.stands⟩
  unfold Store.session
  rw [run_bind_ok opened, ← same]
  rfl

private theorem sessions_stand (sessions : List (List Operation)) (stands : Stands path files t) :
    ∃ left, (Store.sessions path sessions).run files = (.ok (t.answers sessions.flatten).1, left) ∧
      Stands path left (t.answers sessions.flatten).2 := by
  induction sessions generalizing files t with
  | nil => exact ⟨files, rfl, stands⟩
  | cons operations rest ih =>
    obtain ⟨between, here, stands⟩ := session_stands operations stands
    obtain ⟨left, others, ends⟩ := ih stands
    rw [List.flatten_cons, answers_append]
    refine ⟨left, ?_, ends⟩
    unfold Store.sessions
    rw [run_bind_ok here, run_bind_ok others]
    rfl

private theorem checkValue_ok {key : Key} {value : Value} (kind : value.kind = key.kind)
    (finite : ∀ x, value = .float x → x.isFinite = true) :
    Store.checkValue key key.kind value = .ok () := by
  have matched : Store.checkKind key key.kind = .ok () := if_pos rfl
  have also : Store.checkKind key value.kind = .ok () := if_pos kind.symm
  unfold Store.checkValue
  rw [matched, also]
  cases value with
  | float x => exact if_pos (finite x rfl)
  | int _ | short _ | bool _ => rfl

/-- What is set is what is read then. -/
theorem Mirrors.set_get (mirrors : Mirrors path s t) {key : Key} {value : Value}
    (kind : value.kind = key.kind) (finite : ∀ x, value = .float x → x.isFinite = true) :
    (t.answers [.set key key.kind value, .get key key.kind]).1 = [.ok .done, .ok (.value value)] := by
  have ranged : (Write.put key value.toStored).Ranged := value.toStored_inRange
  obtain ⟨_, t', _, written, _⟩ := mirrors.toTwins.write ranged
  have checked : (Action.ofExcept (Store.checkValue key key.kind value) : Action Store Fault Unit).run t =
      (.ok (), t) := by
    rw [checkValue_ok kind finite]
    rfl
  have set : (Operation.set key key.kind value).action.run t = (.ok .done, t') :=
    run_bind_ok ((run_bind_ok checked).trans written)
  have there : t'.load? key = some value.toStored := by
    have loaded := Document.load_insert t.document key.text value.toStored key.text
    rw [if_pos rfl] at loaded
    rcases Store.write_cases (.put key value.toStored) t with ⟨_, same, document⟩ | ⟨_, _, failed, _⟩
    · rw [written] at same
      cases same
      unfold Store.load?
      rwa [document]
    · rw [written] at failed
      cases failed
  have read : t'.get key key.kind = .ok value := Store.value_of_load kind there
  have got : (Operation.get key key.kind).action.run t' = (.ok (.value value), t') := by
    change ((t'.get key key.kind).map Answer.value, t') = _
    rw [read]
    rfl
  rw [answers_cons, set, answers_cons, got]
  rfl

/-- A store on a file that is not there yet but can be written answers over all its sessions like a store in
memory that is opened once, and what one finds in the file at the end is the document of that. A value that
is set in one session is read in the next as it was. -/
theorem sessions_durable {fault : PathFault} (home : files.node? files.home = some .directory)
    (absent : files.find path = .error fault) (writable : files.Writable path) (others : Files)
    (sessions : List (List Operation)) :
    ∃ memory left store, (Store.open (.memory .fresh none)).run others = (.ok memory, memory.files) ∧
      (Store.sessions path sessions).run files = (.ok (memory.answers sessions.flatten).1, left) ∧
      (Store.open (.file path)).run left = (.ok store, store.files) ∧
      store.document = (memory.answers sessions.flatten).2.document ∧
      ∀ key value, value.kind = key.kind → (∀ x, value = .float x → x.isFinite = true) →
        ∃ left, (Store.sessions path (sessions ++ [[.set key key.kind value], [.get key key.kind]])).run
          files = (.ok ((memory.answers sessions.flatten).1 ++ [.ok .done, .ok (.value value)]), left) := by
  obtain ⟨memory, opened, stands⟩ := open_stands home absent writable others
  obtain ⟨left, ran, store, reopened, mirrors⟩ := sessions_stand sessions stands
  refine ⟨memory, left, store, opened, ran, reopened, mirrors.document, fun key value kind finite => ?_⟩
  obtain ⟨left, longer, _⟩ := sessions_stand
    (sessions ++ [[Operation.set key key.kind value], [Operation.get key key.kind]]) stands
  have flat : (sessions ++ [[Operation.set key key.kind value], [Operation.get key key.kind]]).flatten =
      sessions.flatten ++ [.set key key.kind value, .get key key.kind] := by simp
  rw [flat, answers_append, mirrors.set_get kind finite] at longer
  exact ⟨left, longer⟩

def visits : List (List Operation) :=
  [[.setText (.maxRate .left) "1e-45", .setText (.maxTravel .z) "-0"],
    [.set .spindleMinRpm .int (.int (-2147483648))],
    [.value (.maxRate .left), .value (.maxTravel .z), .int .spindleMinRpm, .flag .spindleMinRpm]]

private theorem parts_settings : Files.parts "settings.toml" = ["settings.toml"] := by
  unfold Files.parts String.splitOn
  rw [if_neg (by decide)]
  -- one step for each character
  iterate 13
    unfold String.splitOnAux
    rw [if_neg (by decide), if_neg (by decide)]
  unfold String.splitOnAux
  rfl

theorem visits_durable :
    ∃ left, (Store.sessions "settings.toml" visits).run .empty =
      (.ok [.ok (.value (.float 1e-45)), .ok (.value (.float (-0))), .ok .done, .ok (.value (.float 1e-45)),
        .ok (.value (.float (-0))), .ok (.int (-2147483648)),
        .error (.kindMismatch .spindleMinRpm .int .bool)], left) := by
  have absent : Files.empty.find "settings.toml" = .error .missing := by
    unfold Files.find
    rw [parts_settings]
    decide +kernel
  have writable : Files.empty.Writable "settings.toml" := by
    unfold Files.Writable Files.writeText Files.target? Files.draft
    rw [parts_settings]
    decide +kernel
  obtain ⟨memory, left, _, opened, ran, _⟩ := sessions_durable rfl absent writable .empty visits
  have answered : ((Store.open (.memory .fresh none)).run .empty).1.map
      (fun memory => (memory.answers visits.flatten).1) =
        .ok [.ok (.value (.float 1e-45)), .ok (.value (.float (-0))), .ok .done,
          .ok (.value (.float 1e-45)), .ok (.value (.float (-0))), .ok (.int (-2147483648)),
          .error (.kindMismatch .spindleMinRpm .int .bool)] := by decide +kernel
  rw [opened] at answered
  exact ⟨left, Except.ok.inj answered ▸ ran⟩

end Sessions

end Crawler.Setting
