import Crawler.Proofs.Upkeep

/-! Entering one setting. Either it is entered, is read as it was entered from then on and no other
setting changes; or nothing changes, neither in the store nor in the file that it is kept in. All that a
write can leave behind when it fails is directories that were to lead to the file. -/
namespace Crawler

namespace Files

def fileNames (files : Files) (directory : List String) : List String :=
  ({ files with nodes := files.nodes.filter (·.2 ≠ .directory) } : Files).list directory

/-- Nothing was written to the file at a path. Directories that lead to it may be there that were not. -/
structure Spared (path : String) (files made : Files) : Prop where
  /-- Every file holds what it held, wherever it is, and there is no other file. -/
  content : ∀ name node, node ≠ .directory →
    (made.node? name = some node ↔ files.node? name = some node)
  /-- What the path led to, it leads to still. -/
  found : ∀ node, files.find path = .ok node → made.find path = .ok node
  fileNames : ∀ directory, made.fileNames directory = files.fileNames directory
  /-- The directory of the file lists what it listed, unless the path leaves a directory again. -/
  list : ".." ∉ parts path → ∀ name, files.place? path = some name →
    made.list name.dropLast = files.list name.dropLast
  /-- Where the directories were there already, nothing changed at all. -/
  unchanged : ∀ directory, files.walk (files.start path) (above (parts path)) = .ok directory →
    made = files

section Directories

variable {files made files' : Files} {path content part : String}
variable {name next place directory front : List String}

private theorem put_absent (absent : files.node? name = none) (node : Node) :
    files.put name (some node) = { files with nodes := files.nodes ++ [(key name, node)] } := by
  cases name with
  | nil => cases absent
  | cons part rest =>
    have none : files.nodes.find? (·.1 = key (part :: rest)) = none := Option.map_eq_none_iff.mp absent
    have kept : files.nodes.filter (·.1 ≠ key (part :: rest)) = files.nodes :=
      List.filter_eq_self.mpr fun entry inside => by simpa using List.find?_eq_none.mp none entry inside
    unfold put
    dsimp only
    rw [kept]
    rfl

/-- The directories that are made stand along the way. -/
theorem makeDirectories_added (files : Files) (name way : List String) :
    ∃ added : List (List String),
      (files.makeDirectories name way).2 =
        { files with nodes := files.nodes ++ added.map fun made => (key made, .directory) } ∧
      ∀ made ∈ added, ∃ front, front ≠ [] ∧ front <+: way ∧ front.foldlM follow? name = some made := by
  induction way generalizing files name with
  | nil => exact ⟨[], by simp [makeDirectories], nofun⟩
  | cons part rest ih =>
    have stopped : ∃ added : List (List String),
        files = { files with nodes := files.nodes ++ added.map fun made => (key made, .directory) } ∧
        ∀ made ∈ added, ∃ front, front ≠ [] ∧ front <+: part :: rest ∧
          front.foldlM follow? name = some made :=
      ⟨[], by simp, nofun⟩
    unfold makeDirectories
    cases followed : follow? name part with
    | none => exact stopped
    | some next =>
      have further {made : List String}
          (along : ∃ front, front <+: rest ∧ front.foldlM follow? next = some made) :
          ∃ front, front ≠ [] ∧ front <+: part :: rest ∧ front.foldlM follow? name = some made := by
        obtain ⟨front, inside, led⟩ := along
        refine ⟨part :: front, List.cons_ne_nil _ _, List.cons_prefix_cons.mpr ⟨rfl, inside⟩, ?_⟩
        rw [List.foldlM_cons, followed]
        exact led
      cases there : files.node? next with
      | none =>
        obtain ⟨added, nodes, along⟩ := ih (files.put next (some .directory)) next
        refine ⟨next :: added, ?_, fun made inside => ?_⟩
        · simp only [there]
          rw [nodes, put_absent there]
          simp
        · rcases List.mem_cons.mp inside with rfl | inside
          · exact further ⟨[], List.nil_prefix, rfl⟩
          · exact further ((along made inside).imp fun _ => And.right)
      | some node =>
        cases node with
        | directory =>
          obtain ⟨added, nodes, along⟩ := ih files next
          refine ⟨added, ?_, fun made inside => further ((along made inside).imp fun _ => And.right)⟩
          simp only [there, nodes]
        | text _ | binary => simpa only [there] using stopped

private theorem fileNames_makeDirectories (files : Files) (name way directory : List String) :
    (files.makeDirectories name way).2.fileNames directory = files.fileNames directory := by
  obtain ⟨added, nodes, _⟩ := makeDirectories_added files name way
  have none : (added.map fun made => (key made, Node.directory)).filter (·.2 ≠ .directory) = [] := by
    simp
  unfold fileNames
  rw [nodes]
  dsimp only
  rw [List.filter_append, none, List.append_nil]

section Depth

def depth (way : List String) : ℕ := way.countP fun part => !isIdle part

private theorem follow_length (onward : part ≠ "..") (followed : follow? name part = some next) :
    next.length = name.length + depth [part] := by
  unfold follow? at followed
  unfold depth
  split at followed
  · next idle =>
    cases followed
    simp [idle]
  · next inward =>
    split at followed
    · cases followed
      simp [inward]
    · cases followed

private theorem place_length {way : List String} (onward : ".." ∉ way)
    (led : way.foldlM follow? name = some place) : place.length = name.length + depth way := by
  induction way generalizing name with
  | nil =>
    cases led
    rfl
  | cons part rest ih =>
    rw [List.foldlM_cons] at led
    obtain ⟨next, followed, led⟩ := Option.bind_eq_some_iff.mp led
    have here := follow_length (fun same => onward (same ▸ List.mem_cons_self)) followed
    have others := ih (fun inside => onward (List.mem_cons_of_mem part inside)) led
    have split : depth ([part] ++ rest) = depth [part] + depth rest := List.countP_append
    rw [List.singleton_append] at split
    omega

private theorem depth_trimIdle (way : List String) : depth (trimIdle way) = depth way := by
  obtain ⟨idle, whole, blanks⟩ := trimIdle_append way
  have none : idle.countP (fun part => !isIdle part) = 0 :=
    List.countP_eq_zero.mpr fun part inside => by simp [blanks part inside]
  unfold depth
  conv =>
    rhs
    rw [← whole, List.countP_append, none]
  rfl

private theorem above_subset (way : List String) : above way ⊆ way := by
  have trimmed (way : List String) : trimIdle way ⊆ way := fun part inside => by
    obtain ⟨idle, whole, _⟩ := trimIdle_append way
    exact whole ▸ List.mem_append_left idle inside
  exact fun part inside => trimmed way (List.dropLast_subset _ (trimmed _ inside))

/-- What is above a file is less deep, if anything is. -/
theorem depth_above {way : List String} (some_above : above way ≠ []) :
    depth (above way) + 1 = depth way := by
  rcases List.eq_nil_or_concat (trimIdle way) with none | ⟨front, last, split⟩
  · refine absurd ?_ some_above
    unfold above
    rw [none]
    rfl
  · rw [List.concat_eq_append] at split
    have reversed : way.reverse.dropWhile isIdle = last :: front.reverse := by
      have split := congrArg List.reverse split
      unfold trimIdle at split
      simpa using split
    have inward : isIdle last = false := by
      have head := List.head?_dropWhile_not isIdle way.reverse
      rw [reversed] at head
      simpa using head
    unfold above
    rw [depth_trimIdle, ← depth_trimIdle way, split, List.dropLast_concat]
    unfold depth
    simp [List.countP_append, inward]

/-- A directory on the way to a file is not one of those that stand beside the file. -/
theorem makeDirectories_list (onward : ".." ∉ parts path) (place : files.place? path = some name) :
    (files.makeDirectories (files.start path) (above (parts path))).2.list name.dropLast =
      files.list name.dropLast := by
  obtain ⟨added, nodes, along⟩ := makeDirectories_added files (files.start path) (above (parts path))
  have beside : (added.map fun made => (key made, Node.directory)).filterMap
      (fun x => if x.1.2.dropLast = name.dropLast then x.1.2.getLast? else none) = [] := by
    refine List.filterMap_eq_nil_iff.mpr fun entry inside => ?_
    obtain ⟨made, there, rfl⟩ := List.mem_map.mp inside
    obtain ⟨front, begun, ⟨rest, whole⟩, led⟩ := along made there
    have within : front ⊆ above (parts path) := fun part inside =>
      whole ▸ List.mem_append_left rest inside
    have short := place_length (fun inside => onward (above_subset _ (within inside))) led
    have long := place_length onward place
    have split : depth (above (parts path)) = depth front + depth rest := by
      unfold depth
      rw [← whole, List.countP_append]
    have deeper := depth_above (whole ▸ List.append_ne_nil_of_left_ne_nil begun rest)
    dsimp only
    split
    · next same =>
      have same : made.dropLast = name.dropLast := same
      have lengths := congrArg List.length same
      rw [List.length_dropLast, List.length_dropLast] at lengths
      have root : made = [] := List.length_eq_zero_iff.mp (by omega)
      exact List.getLast?_eq_none_iff.mpr root
    · rfl
  unfold list
  rw [nodes]
  dsimp only
  rw [List.filterMap_append, beside, List.append_nil]

end Depth

private theorem spared_refl (path : String) (files : Files) : Spared path files files := by
  refine ⟨?_, fun _ => id, fun _ => rfl, fun _ _ _ => rfl, fun _ _ => rfl⟩
  exact fun _ _ _ => .rfl

/-- Directories on the way to a file are all that is made of it before it is written. -/
theorem makeDirectories_spared (files : Files) (path : String) :
    Spared path files (files.makeDirectories (files.start path) (above (parts path))).2 where
  content name node file := by
    have prepares := makeDirectories_prepares files (files.start path) (above (parts path))
    refine ⟨fun there => ?_, prepares.kept⟩
    rcases prepares.new there with before | directory
    · exact before
    · exact absurd directory file
  found _ := (makeDirectories_prepares files _ _).find
  fileNames := fileNames_makeDirectories files _ _
  list onward _ place := makeDirectories_list onward place
  unchanged _ walked := congrArg Prod.snd (makeDirectories_of_walk walked)

private theorem writeText_spared (failed : files.writeText path content = (false, made)) :
    Spared path files made := by
  have directories := makeDirectories_spared files path
  unfold writeText at failed
  split at failed
  · cases failed
    exact spared_refl path files
  · split at failed
    · next done =>
      cases failed
      rwa [done] at directories
    · next done =>
      split at failed
      · cases failed
        rwa [done] at directories
      · cases failed

end Directories

end Files

namespace Setting

open Crawler.Action
open Files (Spared)

inductive Assignment where
  | value (key : Key) (kind : Kind) (given : Value)
  | text (key : Key) (given : String)
  | entry (name given : String)

namespace Assignment

def key : Assignment → Except Fault Key
  | value key _ _ => .ok key
  | text key _ => .ok key
  | entry name _ => Key.parse name

def action : Assignment → Action Store Fault Value
  | value key kind given => do
    Store.set key kind given
    return given
  | text key given => Store.setText key given
  | entry name given => do
    let key ← .ofExcept (Key.parse name)
    Store.setText key given

end Assignment

namespace Store

variable {store store' : Store} {key : Key} {fault : Fault}

structure Unwritten (store store' : Store) : Prop where
  document : store'.document = store.document
  medium : store'.medium = store.medium
  files : ∀ path, store.medium = .file path → Spared path store.files store'.files

private theorem unwritten_refl (store : Store) : Unwritten store store := by
  refine ⟨rfl, rfl, fun path _ => ?_⟩
  exact Files.spared_refl path store.files

theorem commit_unwritten {document : Document}
    (failed : (commit document).run store = (.error fault, store')) : Unwritten store store' := by
  change commit document store = _ at failed
  unfold commit at failed
  split at failed
  · cases failed
  · cases failed
    exact unwritten_refl store
  · cases failed
  · next path medium =>
    split at failed
    · cases failed
    · next files written =>
      cases failed
      refine ⟨rfl, rfl, fun other same => ?_⟩
      rw [medium] at same
      cases same
      exact Files.writeText_spared written

/-- A value is put in its place, or nothing is written. -/
theorem set_cases (key : Key) (kind : Kind) (value : Value) (store : Store) :
    (∃ store', (set key kind value).run store = (.ok (), store') ∧ value.kind = key.kind ∧
        store'.document = store.document.insert key.text value.toStored) ∨
      ∃ fault store', (set key kind value).run store = (.error fault, store') ∧ Unwritten store store' := by
  unfold set
  cases checked : checkValue key kind value with
  | error fault => exact .inr ⟨fault, store, rfl, unwritten_refl store⟩
  | ok u =>
    rcases write_cases (.put key value.toStored) store with
      ⟨store', written, document⟩ | ⟨cause, store', failed, _⟩
    · exact .inl ⟨store', written, kind_of_checkValue checked, document⟩
    · exact .inr ⟨.commit cause, store', failed, commit_unwritten failed⟩

/-- A text is put in its place as the value that it stands for, or nothing is written. -/
theorem setText_puts (key : Key) (text : String) (store : Store) :
    (∃ value store', (setText key text).run store = (.ok value, store') ∧ value.kind = key.kind ∧
        store'.document = store.document.insert key.text value.toStored) ∨
      ∃ fault store', (setText key text).run store = (.error fault, store') ∧ Unwritten store store' := by
  unfold setText
  cases (Value.parse key.kind text).mapError (Fault.invalid key) with
  | error fault => exact .inr ⟨fault, store, rfl, unwritten_refl store⟩
  | ok value =>
    have told : (Action.ofExcept (.ok value) : Action Store Fault Value).run store = (.ok value, store) :=
      rfl
    rw [run_bind_ok told]
    rcases set_cases key key.kind value store with
      ⟨store', written, kind, document⟩ | ⟨fault, store', failed, unwritten⟩
    · exact .inl ⟨value, store', run_bind_ok written, kind, document⟩
    · exact .inr ⟨fault, store', run_bind_error failed, unwritten⟩

private theorem assignment_puts (assignment : Assignment) (store : Store) :
    (∃ key value store', assignment.key = .ok key ∧
        assignment.action.run store = (.ok value, store') ∧ value.kind = key.kind ∧
        store'.document = store.document.insert key.text value.toStored) ∨
      ∃ fault store', assignment.action.run store = (.error fault, store') ∧ Unwritten store store' := by
  cases assignment with
  | value key kind given =>
    rcases set_cases key kind given store with
      ⟨store', written, kind, document⟩ | ⟨fault, store', failed, unwritten⟩
    · exact .inl ⟨key, given, store', rfl, run_bind_ok written, kind, document⟩
    · exact .inr ⟨fault, store', run_bind_error failed, unwritten⟩
  | text key given =>
    rcases setText_puts key given store with ⟨value, store', written⟩ | failed
    · exact .inl ⟨key, value, store', rfl, written⟩
    · exact .inr failed
  | entry name given =>
    unfold Assignment.key Assignment.action
    dsimp only
    cases Key.parse name with
    | error fault => exact .inr ⟨fault, store, rfl, unwritten_refl store⟩
    | ok key =>
      have told : (Action.ofExcept (.ok key) : Action Store Fault Key).run store = (.ok key, store) := rfl
      rw [run_bind_ok told]
      rcases setText_puts key given store with ⟨value, store', written⟩ | failed
      · exact .inl ⟨key, value, store', rfl, written⟩
      · exact .inr failed

private theorem get_put {value : Value} (kind : value.kind = key.kind)
    (document : store'.document = store.document.insert key.text value.toStored) :
    store'.get key key.kind = .ok value ∧
      ∀ other ≠ key, ∀ kind, store'.get other kind = store.get other kind := by
  have load (other : Key) : store'.load? other =
      if other.text = key.text then some value.toStored else store.load? other := by
    unfold load?
    rw [document, Document.load_insert]
  refine ⟨value_of_load kind ?_, fun other apart kind => ?_⟩
  · rw [load, if_pos rfl]
  · unfold get
    rw [load, if_neg fun texts => apart (Key.text_injective texts)]

/-- A setting that is entered is read as it was entered and leaves the others. One that is not, for
whatever reason, leaves all of them, the mark of a complete table and the file that they are kept in. -/
theorem assign_cases (assignment : Assignment) (store : Store) :
    (∃ key value store', assignment.key = .ok key ∧
        assignment.action.run store = (.ok value, store') ∧ store'.get key key.kind = .ok value ∧
        ∀ other ≠ key, ∀ kind, store'.get other kind = store.get other kind) ∨
      ∃ fault store', assignment.action.run store = (.error fault, store') ∧
        (∀ key kind, store'.get key kind = store.get key kind) ∧
        store'.isComplete = store.isComplete ∧
        ∀ path, store.medium = .file path → Spared path store.files store'.files := by
  rcases assignment_puts assignment store with
    ⟨key, value, store', named, written, kind, document⟩ | ⟨fault, store', failed, unwritten⟩
  · exact .inl ⟨key, value, store', named, written, get_put kind document⟩
  · refine .inr ⟨fault, store', failed, fun key kind => ?_, ?_, unwritten.files⟩
    · unfold get load?
      rw [unwritten.document]
    · unfold isComplete
      rw [unwritten.document]

end Store

end Setting

end Crawler
