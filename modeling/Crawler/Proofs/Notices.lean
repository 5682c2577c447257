import Crawler.Proofs.Run

/-! What the operator's console is to a machine: somewhere to send notices to. Whether they arrive, and
what is done with them between two stimuli, changes nothing that the machine does or says. -/
namespace Crawler

open Crawler.Action

def Console.hear (console : Console) (notices : List Notice) : Console :=
  notices.foldl (fun console notice => (console.deliver notice).2) console

private theorem Console.hear_concat (console : Console) (notices : List Notice) (severity : Severity)
    (text : String) :
    console.hear (notices ++ [⟨severity, text⟩]) = (console.hear notices).tell severity text := by
  unfold hear
  rw [List.foldl_append]
  rfl

namespace Machine

structure Alike (m m' : Machine) : Prop where
  store : m'.store = m.store
  drives : m'.drives = m.drives
  phase : m'.phase = m.phase
  limits : m'.limits = m.limits
  spindle : m'.spindle = m.spindle

structure Told (console console' : Console) (m m' : Machine) : Prop extends Alike m m' where
  notices : ∃ notices, m.console = console.hear notices ∧ m'.console = console'.hear notices

variable {console console' : Console} {m m' : Machine} {ε α β : Type}

private theorem alike_console (m : Machine) (console : Console) : Alike { m with console } m := by
  exact ⟨rfl, rfl, rfl, rfl, rfl⟩

private theorem told_of_alike (alike : Alike m m') : Told m.console m'.console m m' := by
  exact ⟨alike, [], rfl, rfl⟩

section Agrees

private theorem agrees_tell (severity : Severity) (text : String) :
    Agrees (Told console console') (tell severity text) := by
  intro m m' told
  obtain ⟨notices, here, there⟩ := told.notices
  refine ⟨rfl, ⟨told.store, told.drives, told.phase, told.limits, told.spindle⟩,
    notices ++ [⟨severity, text⟩], ?_, ?_⟩
  · rw [Console.hear_concat, ← here]
    rfl
  · rw [Console.hear_concat, ← there]
    rfl

private theorem agrees_onDrives (action : Action Drives ε α) :
    Agrees (Told console console') (onDrives action) := by
  refine agrees_on (fun _ _ told => told.drives) (fun _ _ _ told => ?_) action
  exact ⟨⟨told.store, rfl, told.phase, told.limits, told.spindle⟩, told.notices⟩

private theorem agrees_onSpindle (action : Action Spindle MotionFault α) :
    Agrees (Told console console') (onSpindle action) := by
  refine agrees_on (fun _ _ told => told.spindle) (fun _ _ _ told => ?_) action
  exact ⟨⟨told.store, told.drives, told.phase, told.limits, rfl⟩, told.notices⟩

private theorem agrees_onStore (action : Action Setting.Store Setting.Fault α) :
    Agrees (Told console console') (onStore action) := by
  refine agrees_on (fun _ _ told => told.store) (fun _ _ _ told => ?_) (action.mapError Fault.settings)
  exact ⟨⟨rfl, told.drives, told.phase, told.limits, told.spindle⟩, told.notices⟩

private theorem agrees_onStation (action : Action Homing.Station HomingFault α) :
    Agrees (Told console console') (onStation action) := by
  refine agrees_on (fun _ _ told => ?_) (fun _ _ _ told => ?_) action
  · rw [told.drives, told.phase]
  · exact ⟨⟨told.store, rfl, rfl, told.limits, told.spindle⟩, told.notices⟩

private theorem agrees_readStore (query : Setting.Store → Except Setting.Fault α) :
    Agrees (Told console console') (readStore query) := by
  intro m m' told
  exact ⟨congrArg (fun store => (query store).mapError Fault.settings) told.store.symm, told⟩

/-- What is read of the machine may be used for anything but the console. -/
theorem agrees_read {next : Machine → Action Machine ε α}
    (blind : ∀ m m', Alike m m' → next m' = next m)
    (after : ∀ m, Agrees (Told console console') (next m)) :
    Agrees (Told console console') (Action.read >>= next) := by
  intro m m' told
  rw [run_bind_ok (run_read m), run_bind_ok (run_read m'), blind m m' told.toAlike]
  exact after m m m' told

end Agrees

section Execute

private theorem agrees_reporting {action : Action Machine Fault α} {success : α → String}
    {failure : Fault → String} (agrees : Agrees (Told console console') action) :
    Agrees (Told console console') (reporting action success failure) := by
  refine agrees_bind (agrees_attempt agrees) fun result => ?_
  cases result with
  | ok a => exact agrees_map (agrees_tell _ _)
  | error fault =>
    refine agrees_bind (agrees_tell _ _) fun _ => ?_
    exact agrees_fail fault

private theorem agrees_awaitRest : Agrees (Told console console') awaitRest := by
  exact agrees_mapError (agrees_onDrives _)

private theorem agrees_gated (motion : Action Drives MotionFault Receipt) :
    Agrees (Told console console') (gated motion) := by
  refine agrees_bind (agrees_readStore _) fun settings => ?_
  refine agrees_bind (agrees_mapError (agrees_onSpindle _)) fun _ => ?_
  refine agrees_bind (agrees_attempt (agrees_onDrives _)) fun result => ?_
  have rest : Agrees (Told console console') (do
      (onSpindle (Spindle.afterMove settings)).mapError .motion
      .ofExcept (result.mapError .motion) : Action Machine Fault Receipt) := by
    refine agrees_bind (agrees_mapError (agrees_onSpindle _)) fun _ => ?_
    exact agrees_ofExcept _
  dsimp only
  split
  · refine agrees_bind (agrees_attempt agrees_awaitRest) fun _ => ?_
    exact rest
  · exact rest

private theorem agrees_home : Agrees (Told console console') home := by
  refine agrees_read (fun m m' alike => ?_) fun m => ?_
  · rw [alike.store, alike.limits]
  · refine agrees_bind (agrees_readStore _) fun enabled => ?_
    split
    · refine agrees_bind (agrees_tell _ _) fun _ => ?_
      exact agrees_reporting (agrees_mapError (agrees_onStation _))
    · refine agrees_bind (agrees_tell _ _) fun _ => ?_
      exact agrees_fail _

private theorem agrees_emergencyStop : Agrees (Told console console') emergencyStop := by
  refine agrees_bind (agrees_attempt (agrees_onDrives _)) fun _ => ?_
  refine agrees_bind (agrees_attempt (agrees_onSpindle _)) fun _ => ?_
  refine agrees_bind (fun m m' told => ?_) fun _ => agrees_tell _ _
  refine ⟨rfl, ⟨told.store, ?_, rfl, told.limits, told.spindle⟩, told.notices⟩
  dsimp only
  rw [run_modify, run_modify, told.drives]

private theorem agrees_useSpindle (request : SpindleRequest) :
    Agrees (Told console console') (useSpindle request) := by
  obtain ⟨enable, speed⟩ := request
  refine agrees_bind (agrees_readStore _) fun settings => ?_
  have ended : Agrees (Told console console') (do
      let machine ← Action.read
      return machine.spindle.state settings : Action Machine Fault SpindleReading) :=
    agrees_read (fun m m' alike => by rw [alike.spindle]) fun _ => agrees_pure _
  have switching (on : Bool) : Agrees (Told console console') (do
      (onSpindle (Spindle.switch on settings)).mapError .motion
      tell .info (if on then "Spindle on" else "Spindle off")
      let machine ← Action.read
      return machine.spindle.state settings : Action Machine Fault SpindleReading) := by
    refine agrees_bind (agrees_mapError (agrees_onSpindle _)) fun _ => ?_
    refine agrees_bind (agrees_tell _ _) fun _ => ?_
    exact ended
  cases speed with
  | none =>
    cases enable with
    | none => exact ended
    | some on => exact switching on
  | some percent =>
    refine agrees_bind (agrees_mapError (agrees_onSpindle _)) fun _ => ?_
    cases enable with
    | none => exact ended
    | some on => exact switching on

private theorem agrees_status : Agrees (Told console console') status := by
  refine agrees_bind (agrees_readStore _) fun settings => ?_
  refine agrees_bind (agrees_onDrives _) fun readings => ?_
  refine agrees_bind (agrees_readStore _) fun left => ?_
  refine agrees_bind (agrees_readStore _) fun right => ?_
  refine agrees_bind (agrees_readStore _) fun z => ?_
  exact agrees_read (fun m m' alike => by rw [alike.phase, alike.spindle]) fun _ => agrees_pure _

private theorem agrees_execute (command : Command) : Agrees (Told console console') (execute command) := by
  cases command with
  | drive request =>
    refine agrees_map (agrees_read (fun m m' alike => ?_) fun _ => ?_)
    · rw [alike.store]
    · exact agrees_reporting (agrees_gated _)
  | depth request =>
    refine agrees_map (agrees_read (fun m m' alike => ?_) fun _ => ?_)
    · rw [alike.store]
    · exact agrees_reporting (agrees_gated _)
  | home => exact agrees_map agrees_home
  | status => exact agrees_map agrees_status
  | emergencyStop => exact agrees_map agrees_emergencyStop
  | spindle request => exact agrees_map (agrees_useSpindle request)
  | showSettings => exact agrees_map (agrees_readStore _)
  | showSetting key => exact agrees_map (agrees_readStore _)
  | enterSetting key text =>
    refine agrees_map (agrees_bind (agrees_reporting (agrees_onStore _)) fun _ => ?_)
    exact agrees_readStore _
  | restoreSettings =>
    refine agrees_map (agrees_bind (agrees_onStore _) fun _ => ?_)
    refine agrees_bind (agrees_tell _ _) fun _ => ?_
    exact agrees_readStore _

private theorem agrees_respond (stimulus : Stimulus) :
    Agrees (Told console console') (respond stimulus) := by
  cases stimulus with
  | command command => exact agrees_map (agrees_execute command)
  | wait => exact agrees_map agrees_awaitRest
  | advance us => exact agrees_map (agrees_onDrives _)
  | advanceUntil us => exact agrees_map (agrees_onDrives _)
  | failNext a reason => exact agrees_map (agrees_onDrives _)
  | overrideLevel level => exact agrees_map (agrees_onDrives _)
  | edge => exact agrees_map (agrees_onDrives _)
  | reconfigure store =>
    refine agrees_map (fun m m' told => ?_)
    exact ⟨rfl, ⟨rfl, told.drives, told.phase, told.limits, told.spindle⟩, told.notices⟩

end Execute

section Attended

/-- A run in which others see to the console, before each stimulus in a way that may depend on how many
are still to come: they drain it, let it fill up or hang up. -/
def attended (care : Nat → Console → Console) : List Stimulus → Machine → List Outcome × Machine
  | [], machine => ([], machine)
  | stimulus :: rest, machine =>
    let (outcome, machine) := (respond stimulus).run
      { machine with console := care rest.length machine.console }
    let (outcomes, machine) := attended care rest machine
    (outcome :: outcomes, machine)

/-- Where nobody sees to the console it is a run like any other. -/
theorem attended_unattended (stimuli : List Stimulus) (m : Machine) :
    attended (fun _ console => console) stimuli m = run stimuli m := by
  induction stimuli generalizing m with
  | nil => rfl
  | cons stimulus rest ih => simp only [attended, run, ih]

def attending (care : Nat → Console → Console) : List (List Notice) → Console → Console
  | [], console => console
  | notices :: rest, console => attending care rest ((care rest.length console).hear notices)

/-- Nothing about the console makes a difference to a machine: it answers the same, ends in the same
state and has sent the same notices. -/
theorem attended_alike (alike : Alike m m') (care care' : Nat → Console → Console)
    (stimuli : List Stimulus) :
    (attended care stimuli m).1 = (attended care' stimuli m').1 ∧
      Alike (attended care stimuli m).2 (attended care' stimuli m').2 ∧
      ∃ notices, notices.length = stimuli.length ∧
        (attended care stimuli m).2.console = attending care notices m.console ∧
        (attended care' stimuli m').2.console = attending care' notices m'.console := by
  induction stimuli generalizing m m' with
  | nil => exact ⟨rfl, alike, [], rfl, rfl, rfl⟩
  | cons stimulus rest ih =>
    have before : Alike { m with console := care rest.length m.console }
        { m' with console := care' rest.length m'.console } :=
      ⟨alike.store, alike.drives, alike.phase, alike.limits, alike.spindle⟩
    obtain ⟨same, told⟩ := agrees_respond stimulus _ _ (told_of_alike before)
    obtain ⟨sent, here, there⟩ := told.notices
    obtain ⟨later, ended, notices, count, heard, heard'⟩ := ih told.toAlike
    unfold attended
    refine ⟨List.cons_eq_cons.mpr ⟨same, later⟩, ended, sent :: notices,
      congrArg (· + 1) count, ?_, ?_⟩
    · unfold attending
      rw [count, ← here]
      exact heard
    · unfold attending
      rw [count, ← there]
      exact heard'

def started : List Stimulus := [.command (.spindle ⟨some true, none⟩), .command .emergencyStop]

def short : Machine := { bench with console := .queue 1 [] }

def hangUp (ahead : Nat) (console : Console) : Console := if ahead = 0 then .closed else console

theorem started_alike :
    (attended (fun _ console => console) started short).1 = (attended hangUp started bench).1 ∧
      Alike (attended (fun _ console => console) started short).2 (attended hangUp started bench).2 ∧
      (attended (fun _ console => console) started short).2.console =
        .queue 1 [⟨.info, "Spindle on"⟩] ∧
      (attended hangUp started bench).2.console = .closed := by
  obtain ⟨same, ended, _⟩ :=
    attended_alike (m := short) (alike_console bench _) (fun _ console => console) hangUp started
  exact ⟨same, ended, by decide +kernel, by decide +kernel⟩

end Attended

end Machine

end Crawler
