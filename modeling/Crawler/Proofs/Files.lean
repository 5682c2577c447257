import Crawler.Files

/-! Replacing the text of a file. The file that a path names depends on the parts of the path alone;
directories that were made on the way replace nothing, and what was written is found at the path. -/
namespace Crawler.Files

variable {files files' made : Files} {path content part : String} {node : Node}
variable {name next directory rest : List String}

section Nodes

private theorem node_put (inside : name ≠ []) (node : Node) (other : List String) :
    (files.put name (some node)).node? other = if other = name then some node else files.node? other := by
  cases other with
  | nil =>
    rw [if_neg (Ne.symm inside)]
    rfl
  | cons part rest =>
    change ((files.nodes.filter (·.1 ≠ key name) ++ [(key name, node)]).find?
      (·.1 = key (part :: rest))).map (·.2) = _
    rw [List.find?_append]
    by_cases same : part :: rest = name
    · have gone : (files.nodes.filter (·.1 ≠ key name)).find? (·.1 = key name) = none :=
        List.find?_eq_none.mpr fun entry inside here =>
          of_decide_eq_true (List.mem_filter.mp inside).2 (of_decide_eq_true here)
      rw [if_pos same, same, gone]
      simp
    · have apart : key name ≠ key (part :: rest) := fun keys => same (congrArg Prod.snd keys).symm
      have kept : (files.nodes.filter (·.1 ≠ key name)).find? (·.1 = key (part :: rest)) =
          files.nodes.find? (·.1 = key (part :: rest)) := by
        rw [List.find?_filter]
        congr 1
        funext entry
        by_cases here : entry.1 = key (part :: rest)
        · simp [here, apart.symm]
        · simp [here]
      have absent : [(key name, node)].find? (·.1 = key (part :: rest)) = none :=
        List.find?_cons_of_neg (by simpa using apart)
      rw [if_neg same, kept, absent, Option.or_none]
      rfl

theorem node_empty (there : empty.node? name = some node) : node = .directory := by
  cases name with
  | nil =>
    cases there
    rfl
  | cons part rest =>
    obtain ⟨entry, found, rfl⟩ := Option.map_eq_some_iff.mp there
    rw [List.mem_singleton.mp (List.mem_of_find?_eq_some found)]

structure Prepares (files made : Files) : Prop where
  home : made.home = files.home
  kept : ∀ {name node}, files.node? name = some node → made.node? name = some node
  new : ∀ {name node}, made.node? name = some node → files.node? name = some node ∨ node = .directory

private theorem Prepares.refl (files : Files) : Prepares files files := by
  exact ⟨rfl, id, .inl⟩

private theorem Prepares.trans (first : Prepares files made) (second : Prepares made files') :
    Prepares files files' := by
  refine ⟨second.home.trans first.home, fun there => second.kept (first.kept there), fun there => ?_⟩
  rcases second.new there with before | directory
  · exact first.new before
  · exact .inr directory

private theorem put_prepares (absent : files.node? name = none) :
    Prepares files (files.put name (some .directory)) ∧
      (files.put name (some .directory)).node? name = some .directory := by
  have inside : name ≠ [] := by
    rintro rfl
    cases absent
  refine ⟨⟨rfl, fun {other _} there => ?_, fun {other _} there => ?_⟩, ?_⟩
  · rw [node_put inside, if_neg, there]
    rintro rfl
    rw [absent] at there
    cases there
  · rw [node_put inside] at there
    split at there
    · exact .inr (Option.some.inj there).symm
    · exact .inl there
  · rw [node_put inside, if_pos rfl]

/-- One step of making directories: it is stopped, or there is a directory to go on from. -/
theorem makeDirectories_cons (files : Files) (name : List String) (part : String) (rest : List String) :
    files.makeDirectories name (part :: rest) = (none, files) ∨
      ∃ next made, follow? name part = some next ∧ Prepares files made ∧
        made.node? next = some .directory ∧
        files.makeDirectories name (part :: rest) = made.makeDirectories next rest := by
  conv =>
    enter [1, 1]
    unfold makeDirectories
  conv =>
    enter [2, 1, next, 1, made, 2, 2, 2, 1]
    unfold makeDirectories
  cases followed : follow? name part with
  | none => exact .inl rfl
  | some next =>
    cases there : files.node? next with
    | none =>
      obtain ⟨prepares, here⟩ := put_prepares there
      refine .inr ⟨next, _, rfl, prepares, here, ?_⟩
      simp only [there]
    | some node =>
      cases node with
      | directory =>
        refine .inr ⟨next, files, rfl, .refl files, there, ?_⟩
        simp only [there]
      | text _ | binary =>
        refine .inl ?_
        simp only [there]

theorem makeDirectories_prepares (files : Files) (name parts : List String) :
    Prepares files (files.makeDirectories name parts).2 := by
  induction parts generalizing files name with
  | nil => exact .refl files
  | cons part rest ih =>
    rcases makeDirectories_cons files name part rest with stopped | ⟨next, made, _, prepares, _, step⟩
    · rw [stopped]
      exact .refl files
    · rw [step]
      exact prepares.trans (ih made next)

end Nodes

section Walks

private theorem walk_cons : files.walk name (part :: rest) = .ok directory ↔
    ∃ next, follow? name part = some next ∧ files.node? next = some .directory ∧
      files.walk next rest = .ok directory := by
  conv =>
    lhs
    unfold walk
  cases follow? name part with
  | none => simp
  | some next =>
    cases there : files.node? next with
    | none => simp [there]
    | some node => cases node <;> simp [there]

variable {parts : List String}

private theorem walk_place (walked : files.walk name parts = .ok directory) :
    parts.foldlM follow? name = some directory := by
  induction parts generalizing name with
  | nil =>
    cases walked
    rfl
  | cons part rest ih =>
    obtain ⟨next, followed, _, walked⟩ := walk_cons.mp walked
    rw [List.foldlM_cons, followed]
    exact ih walked

private theorem walk_directory (start : files.node? name = some .directory)
    (walked : files.walk name parts = .ok directory) : files.node? directory = some .directory := by
  induction parts generalizing name with
  | nil =>
    cases walked
    exact start
  | cons part rest ih =>
    obtain ⟨next, _, there, walked⟩ := walk_cons.mp walked
    exact ih there walked

private theorem walk_append (walked : files.walk name parts = .ok next)
    (onward : files.walk next rest = .ok directory) :
    files.walk name (parts ++ rest) = .ok directory := by
  induction parts generalizing name with
  | nil =>
    cases walked
    exact onward
  | cons part others ih =>
    obtain ⟨next, followed, there, walked⟩ := walk_cons.mp walked
    exact walk_cons.mpr ⟨next, followed, there, ih walked⟩

private theorem walk_idle (start : files.node? name = some .directory)
    (idle : ∀ part ∈ parts, isIdle part = true) :
    files.walk name parts = .ok name := by
  induction parts with
  | nil => rfl
  | cons part rest ih =>
    have stays : follow? name part = some name := if_pos (idle part List.mem_cons_self)
    exact walk_cons.mpr
      ⟨name, stays, start, ih fun other inside => idle other (List.mem_cons_of_mem part inside)⟩

/-- Directories that are still there are walked as before. -/
theorem walk_mono (walked : files.walk name parts = .ok directory)
    (kept : ∀ {name}, files.node? name = some .directory → files'.node? name = some .directory) :
    files'.walk name parts = .ok directory := by
  induction parts generalizing name with
  | nil => exact walked
  | cons part rest ih =>
    obtain ⟨next, followed, there, walked⟩ := walk_cons.mp walked
    exact walk_cons.mpr ⟨next, followed, kept there, ih walked⟩

private theorem makeDirectories_walk (done : files.makeDirectories name parts = (some directory, made)) :
    made.walk name parts = .ok directory := by
  induction parts generalizing files name with
  | nil =>
    cases done
    rfl
  | cons part rest ih =>
    rcases makeDirectories_cons files name part rest with stopped | ⟨next, readied, followed, _, there, step⟩
    · rw [stopped] at done
      cases done
    · rw [step] at done
      have prepares := makeDirectories_prepares readied next rest
      rw [done] at prepares
      exact walk_cons.mpr ⟨next, followed, prepares.kept there, ih done⟩

end Walks

section Writing

def place? (files : Files) (path : String) : Option (List String) :=
  (parts path).foldlM follow? (files.start path)

private theorem find_eq_ok : files.find path = .ok node ↔
    path ≠ "" ∧ isSound (parts path) = true ∧ ∃ directory name,
      files.walk (files.start path) (parts path).dropLast = .ok directory ∧
        follow? directory ((parts path).getLast?.getD "") = some name ∧ files.node? name = some node := by
  constructor
  · intro found
    unfold find at found
    split at found
    · cases found
    next named =>
    split at found
    · cases found
    next sound =>
    split at found
    · cases found
    next directory walked =>
    split at found
    · cases found
    next name followed =>
    split at found
    · next there =>
      cases found
      exact ⟨named, by simpa using sound, directory, name, walked, followed, there⟩
    · cases found
  · rintro ⟨named, sound, directory, name, walked, followed, there⟩
    unfold find
    rw [if_neg named, sound, walked]
    dsimp only
    rw [followed]
    dsimp only
    rw [there]
    rfl

/-- The last part is followed from where the others lead. -/
theorem place_of_walk (walked : files.walk (files.start path) (parts path).dropLast = .ok directory)
    (followed : follow? directory ((parts path).getLast?.getD "") = some name) :
    files.place? path = some name := by
  unfold place?
  rcases List.eq_nil_or_concat (parts path) with none | ⟨front, last, split⟩
  · rw [none] at walked followed ⊢
    cases walked
    exact followed
  · rw [split, List.concat_eq_append] at walked followed ⊢
    rw [List.dropLast_concat] at walked
    rw [List.getLast?_concat] at followed
    rw [List.foldlM_append, walk_place walked]
    have followed : follow? directory last = some name := followed
    change (follow? directory last).bind some = _
    rw [followed]
    rfl

theorem find_place (found : files.find path = .ok node) :
    ∃ name, files.place? path = some name ∧ files.node? name = some node := by
  obtain ⟨_, _, directory, name, walked, followed, there⟩ := find_eq_ok.mp found
  exact ⟨name, place_of_walk walked followed, there⟩

/-- Where directories are left, a path that leads somewhere leads there still. -/
theorem find_kept (found : files.find path = .ok node) (home : files'.home = files.home)
    (kept : ∀ {name}, files.node? name = some .directory → files'.node? name = some .directory) :
    ∃ name, files.place? path = some name ∧ files.node? name = some node ∧
      ∀ node', files'.node? name = some node' → files'.find path = .ok node' := by
  obtain ⟨named, sound, directory, name, walked, followed, there⟩ := find_eq_ok.mp found
  refine ⟨name, place_of_walk walked followed, there, fun node' there' => find_eq_ok.mpr ?_⟩
  have start : files'.start path = files.start path := by
    unfold start
    rw [home]
  exact ⟨named, sound, directory, name, start ▸ walk_mono walked kept, followed, there'⟩

theorem Prepares.find (prepares : Prepares files made) (found : files.find path = .ok node) :
    made.find path = .ok node := by
  obtain ⟨_, _, there, leads⟩ := find_kept found prepares.home prepares.kept
  exact leads node (prepares.kept there)

theorem trimIdle_append (parts : List String) :
    ∃ idle, trimIdle parts ++ idle = parts ∧ ∀ part ∈ idle, isIdle part = true := by
  refine ⟨(parts.reverse.takeWhile isIdle).reverse, ?_, fun part inside => ?_⟩
  · unfold trimIdle
    rw [← List.reverse_append, List.takeWhile_append_dropWhile, List.reverse_reverse]
  · exact List.all_eq_true.mp List.all_takeWhile part (List.mem_reverse.mp inside)

/-- Before a last part that is a name, all but blanks is above the file. -/
theorem above_append (front : List String) {last : String} (inward : isInward last = true) :
    ∃ idle, above (front ++ [last]) ++ idle = front ∧ ∀ part ∈ idle, isIdle part = true := by
  have named : isIdle last = false := by
    unfold isInward at inward
    grind
  have whole : trimIdle (front ++ [last]) = front ++ [last] := by
    unfold trimIdle
    rw [List.reverse_append, List.reverse_singleton, List.singleton_append,
      List.dropWhile_cons_of_neg (Bool.eq_false_iff.mp named), List.reverse_cons, List.reverse_reverse]
  unfold above
  rw [whole, List.dropLast_concat]
  exact trimIdle_append front

private theorem start_directory (home : files.node? files.home = some .directory) (path : String) :
    files.node? (files.start path) = some .directory := by
  unfold start
  split
  · rfl
  · exact home

structure Way (files : Files) (path : String) (directory : List String) (made : Files)
    (name : List String) : Prop where
  above : isSound (above (parts path)) = true
  done : files.makeDirectories (files.start path) (Files.above (parts path)) = (some directory, made)
  target : made.target? directory path = some name

private theorem writeText_cases (files : Files) (path : String) :
    (∃ made, Prepares files made ∧ ∀ content, files.writeText path content = (false, made)) ∨
      ∃ directory made name, Way files path directory made name := by
  unfold writeText
  cases above : isSound (above (parts path)) with
  | false => exact .inl ⟨files, .refl files, fun _ => rfl⟩
  | true =>
    have prepares := makeDirectories_prepares files (files.start path) (Files.above (parts path))
    cases done : files.makeDirectories (files.start path) (Files.above (parts path)) with
    | mk reached made =>
      rw [done] at prepares
      cases reached with
      | none => exact .inl ⟨made, prepares, fun _ => rfl⟩
      | some directory =>
        cases target : made.target? directory path with
        | none => exact .inl ⟨made, prepares, fun _ => by simp [target]⟩
        | some name => exact .inr ⟨directory, made, name, above, done, target⟩

private theorem Way.writes (way : Way files path directory made name) (content : String) :
    files.writeText path content = (true, made.put name (some (.text content))) := by
  unfold writeText
  simp [way.above, way.done, way.target]

theorem way_of_written (written : files.writeText path content = (true, files')) :
    ∃ directory made name, Way files path directory made name ∧
      files' = made.put name (some (.text content)) := by
  rcases writeText_cases files path with ⟨made, _, failed⟩ | ⟨directory, made, name, way⟩
  · rw [failed] at written
    cases written
  · rw [way.writes] at written
    cases written
    exact ⟨directory, made, name, way, rfl⟩

private theorem target_eq_some : files.target? directory path = some name ↔
    (isSound (files.draft path) = true ∧ isSound (parts path) = true ∧
      isInward ((parts path).getLast?.getD "") = true) ∧
      follow? directory ((parts path).getLast?.getD "") = some name ∧
      files.node? name ≠ some .directory := by
  unfold target?
  dsimp only
  split
  · next sound => simp [sound, Option.filter_eq_some_iff]
  · next unsound => simp [unsound]

/-- The last part of the path names the file. -/
theorem Way.split (way : Way files path directory made name) :
    ∃ front last, parts path = front ++ [last] ∧ isInward last = true := by
  obtain ⟨⟨_, _, inward⟩, _⟩ := target_eq_some.mp way.target
  rcases List.eq_nil_or_concat (parts path) with none | ⟨front, last, split⟩
  · rw [none] at inward
    cases inward
  · rw [List.concat_eq_append] at split
    rw [split, List.getLast?_concat] at inward
    exact ⟨front, last, split, inward⟩

private theorem Way.free (way : Way files path directory made name) :
    made.node? name ≠ some .directory := by
  exact (target_eq_some.mp way.target).2.2

private theorem Way.inside (way : Way files path directory made name) : name ≠ [] := by
  rintro rfl
  exact way.free rfl

theorem Way.there (way : Way files path directory made name) (content : String) :
    (made.put name (some (.text content))).node? name = some (.text content) := by
  rw [node_put way.inside, if_pos rfl]

theorem Way.elsewhere (way : Way files path directory made name) (content : String) {other : List String}
    (apart : other ≠ name) (there : made.node? other = some node) :
    (made.put name (some (.text content))).node? other = some node := by
  rw [node_put way.inside, if_neg apart, there]

/-- What is written under the name leaves the directories. -/
theorem Way.directories (way : Way files path directory made name) (content : String) {other : List String}
    (there : made.node? other = some .directory) :
    (made.put name (some (.text content))).node? other = some .directory := by
  refine way.elsewhere content ?_ there
  rintro rfl
  exact way.free there

theorem Way.prepares (way : Way files path directory made name) : Prepares files made := by
  have prepares := makeDirectories_prepares files (files.start path) (Files.above (parts path))
  rwa [way.done] at prepares

private theorem Way.start (way : Way files path directory made name) (content : String) :
    (made.put name (some (.text content))).start path = files.start path := by
  unfold Files.start
  rw [← way.prepares.home]
  rfl

/-- The directories on the way lead to the same place once the text is written. -/
theorem Way.walked (way : Way files path directory made name) (content : String) :
    (made.put name (some (.text content))).walk (files.start path) (Files.above (parts path)) =
      .ok directory := by
  exact walk_mono (makeDirectories_walk way.done) (way.directories content)

theorem writeText_failed (failed : files.writeText path content = (false, made)) : Prepares files made := by
  rcases writeText_cases files path with ⟨_, prepares, same⟩ | ⟨_, _, _, way⟩
  · rw [same] at failed
    cases failed
    exact prepares
  · rw [way.writes] at failed
    cases failed

private theorem Way.home (way : Way files path directory made name)
    (home : files.node? files.home = some .directory) (content : String) :
    (made.put name (some (.text content))).node? (made.put name (some (.text content))).home =
      some .directory := by
  have stays := way.directories content (way.prepares.kept home)
  rwa [← way.prepares.home] at stays

/-- All parts but the last lead to the directory, blanks included. -/
theorem Way.reached (way : Way files path directory made name)
    (home : files.node? files.home = some .directory) (content : String) :
    (made.put name (some (.text content))).walk (files.start path) (parts path).dropLast =
      .ok directory := by
  obtain ⟨front, last, split, inward⟩ := way.split
  have root := way.directories content (way.prepares.kept (start_directory home path))
  obtain ⟨idle, whole, blanks⟩ := above_append front inward
  have walked := way.walked content
  rw [split] at walked ⊢
  rw [List.dropLast_concat]
  have walked := walk_append walked (walk_idle (walk_directory root walked) blanks)
  rwa [whole] at walked

theorem Way.place (way : Way files path directory made name)
    (home : files.node? files.home = some .directory) : files.place? path = some name := by
  have reached := way.reached home ""
  rw [← way.start ""] at reached
  have place := place_of_walk reached (target_eq_some.mp way.target).2.1
  unfold place? at place ⊢
  rwa [way.start] at place

/-- What was written is found, and the working directory is still one. -/
theorem writeText_found (home : files.node? files.home = some .directory)
    (written : files.writeText path content = (true, files')) :
    files'.find path = .ok (.text content) ∧ files'.home = files.home ∧
      files'.node? files'.home = some .directory := by
  obtain ⟨directory, made, name, way, rfl⟩ := way_of_written written
  obtain ⟨⟨_, sound, inward⟩, followed, _⟩ := target_eq_some.mp way.target
  have named : path ≠ "" := by
    rintro rfl
    have single : parts "" = [""] := by
      unfold parts String.splitOn String.splitOnAux
      rfl
    rw [single] at inward
    cases inward
  refine ⟨find_eq_ok.mpr ⟨named, sound, directory, name, ?_, followed, way.there content⟩,
    way.prepares.home, way.home home content⟩
  rw [way.start]
  exact way.reached home content

def Writable (files : Files) (path : String) : Prop := (files.writeText path "").1 = true

instance (files : Files) (path : String) : Decidable (files.Writable path) :=
  inferInstanceAs (Decidable (_ = _))

theorem Writable.writes (writable : files.Writable path) (content : String) :
    ∃ files', files.writeText path content = (true, files') := by
  rcases writeText_cases files path with ⟨_, _, failed⟩ | ⟨_, _, _, way⟩
  · unfold Writable at writable
    rw [failed] at writable
    cases writable
  · exact ⟨_, way.writes content⟩

theorem makeDirectories_of_walk {parts : List String} (walked : files.walk name parts = .ok directory) :
    files.makeDirectories name parts = (some directory, files) := by
  induction parts generalizing name with
  | nil =>
    cases walked
    rfl
  | cons part rest ih =>
    obtain ⟨next, followed, there, walked⟩ := walk_cons.mp walked
    unfold makeDirectories
    simp only [followed, there]
    exact ih walked

/-- Where a text was written, another one can be. -/
theorem writable_of_written (written : files.writeText path content = (true, files')) :
    files'.Writable path := by
  obtain ⟨directory, made, name, way, rfl⟩ := way_of_written written
  have done : (made.put name (some (.text content))).makeDirectories
      ((made.put name (some (.text content))).start path) (above (parts path)) =
        (some directory, made.put name (some (.text content))) := by
    rw [way.start]
    exact makeDirectories_of_walk (way.walked content)
  have target : (made.put name (some (.text content))).target? directory path = some name := by
    obtain ⟨sound, followed, _⟩ := target_eq_some.mp way.target
    refine target_eq_some.mpr ⟨sound, followed, ?_⟩
    rw [way.there]
    nofun
  exact congrArg Prod.fst ((Way.mk way.above done target).writes "")

end Writing

end Crawler.Files
