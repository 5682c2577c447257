import Crawler.Proofs.Magnitude
import Crawler.Proofs.Plan
import Crawler.Proofs.Run
import Crawler.Proofs.Starts

/-! The ceiling of the feed. Drives and depth moves are planned for one feed, the least of the requested
one and the maximum rates of the axes that they command, and since rounding keeps the order of feeds
no axis is started at a higher frequency than its own maximum rate gives. -/
namespace Crawler

open Crawler.Action
open Float.Model.Format (binary64)
open Number (Reads Magnitude)

structure Capped (store : Setting.Store) (axes : List Axis) (requested feed : Float) : Prop where
  given : feed = requested ∨ ∃ a ∈ axes, store.float (.maxRate a) = .ok feed
  request : feed ≤ requested
  rates : ∀ a ∈ axes, ∃ rate, store.float (.maxRate a) = .ok rate ∧ feed ≤ rate

structure Allowed (store : Setting.Store) (a : Axis) (feed : Float) (hz : Nat) : Prop where
  some : 1 ≤ hz
  converted : ∃ scale rate, store.float (.stepsPerMm a) = .ok scale ∧
    store.float (.maxRate a) = .ok rate ∧ hz = Units.frequency feed scale ∧
    hz ≤ Units.frequency rate scale

namespace Number

variable {x y : Float} {M N : Magnitude binary64}

private theorem lesser_reads (left : Reads x M) (right : Reads y N) :
    (lesser x y = x ∨ lesser x y = y) ∧ ∃ L, Reads (lesser x y) L ∧ L.value = min M.value N.value := by
  have number : x.isNaN = false := by
    obtain ⟨_, read⟩ := left
    change x.toModel.unpack.isNaN = false
    rw [read]
    rfl
  have ordered := lt_iff_of_reads right left
  unfold lesser
  by_cases below : y < x
  · rw [if_pos (by simp [below])]
    exact ⟨.inr rfl, N, right, (min_eq_right (ordered.mp below).le).symm⟩
  · rw [number, Bool.false_or, if_neg (by simpa using below)]
    exact ⟨.inl rfl, M, left, (min_eq_left (not_lt.mp (mt ordered.mpr below))).symm⟩

end Number

namespace Plan

variable {store : Setting.Store} {settings : Setting.Snapshot} {axes : List Axis} {a : Axis}
  {plan : Plan} {mm requested feed : Float}

structure Governed (store : Setting.Store) (axes : List Axis) (requested : Float) (plan : Plan) :
    Prop where
  feed : Capped store axes requested plan.feed
  moves : ∀ a, plan.move.steps.get a ≠ 0 → a ∈ axes ∧ Allowed store a plan.feed (plan.move.hz.get a)

private theorem capped_reads (based : motionSettings store = .ok settings)
    (positive : Number.isPositive requested = true) (capped : Capped store axes requested feed) :
    ∃ M, Reads feed M := by
  rcases capped.given with same | ⟨a, _, rate⟩
  · exact same ▸ Number.exists_reads positive
  · have sourced := motionSettings_sourced based a
    rw [sourced.rate] at rate
    cases rate
    exact Number.exists_reads sourced.rate_pos

private theorem allowed_of_capped (based : motionSettings store = .ok settings)
    (positive : Number.isPositive requested = true) (capped : Capped store axes requested feed)
    (inside : a ∈ axes)
    (some : Units.frequency feed (settings.axes.get a).stepsPerMm ≠ 0) :
    Allowed store a feed (Units.frequency feed (settings.axes.get a).stepsPerMm) := by
  have sourced := motionSettings_sourced based a
  obtain ⟨_, read⟩ := capped_reads based positive capped
  obtain ⟨_, ceiling⟩ := Number.exists_reads sourced.rate_pos
  obtain ⟨_, scale⟩ := Number.exists_reads sourced.scale_pos
  obtain ⟨rate, stored, within⟩ := capped.rates a inside
  rw [sourced.rate] at stored
  cases stored
  refine ⟨Nat.pos_of_ne_zero some, _, _, sourced.scale, sourced.rate, rfl, ?_⟩
  exact Number.frequency_mono read ceiling scale ((Number.le_iff_of_reads read ceiling).mp within)

structure Lowest (store : Setting.Store) (axes : List Axis) (ceiling : Float)
    (C : Magnitude binary64) : Prop where
  read : Reads ceiling C
  given : ∃ a ∈ axes, store.float (.maxRate a) = .ok ceiling
  least : ∀ a ∈ axes, ∃ rate M, store.float (.maxRate a) = .ok rate ∧ Reads rate M ∧
    C.value ≤ M.value

private theorem lowest_single (based : motionSettings store = .ok settings) (a : Axis) :
    ∃ C, Lowest store [a] (settings.axes.get a).maxRate C := by
  have sourced := motionSettings_sourced based a
  obtain ⟨C, read⟩ := Number.exists_reads sourced.rate_pos
  refine ⟨C, read, ⟨a, List.mem_singleton_self a, sourced.rate⟩, fun b inside => ?_⟩
  cases List.mem_singleton.mp inside
  exact ⟨_, C, sourced.rate, read, le_rfl⟩

private theorem lowest_pair (based : motionSettings store = .ok settings) (a b : Axis) :
    ∃ C, Lowest store [a, b]
      (Number.lesser (settings.axes.get a).maxRate (settings.axes.get b).maxRate) C := by
  have first := motionSettings_sourced based a
  have second := motionSettings_sourced based b
  obtain ⟨M, left⟩ := Number.exists_reads first.rate_pos
  obtain ⟨N, right⟩ := Number.exists_reads second.rate_pos
  obtain ⟨given, C, read, least⟩ := Number.lesser_reads left right
  refine ⟨C, read, ?_, fun c inside => ?_⟩
  · rcases given with same | same
    · exact ⟨a, List.mem_cons_self, by rw [same, first.rate]⟩
    · exact ⟨b, List.mem_cons_of_mem _ List.mem_cons_self, by rw [same, second.rate]⟩
  · rcases List.mem_pair.mp inside with rfl | rfl
    · exact ⟨_, M, first.rate, left, least ▸ min_le_left _ _⟩
    · exact ⟨_, N, second.rate, right, least ▸ min_le_right _ _⟩

private theorem capFeed_capped {ceiling : Float} {C : Magnitude binary64}
    (positive : Number.isPositive requested = true) (lowest : Lowest store axes ceiling C) :
    Capped store axes requested (Units.capFeed requested ceiling) := by
  obtain ⟨_, request⟩ := Number.exists_reads positive
  obtain ⟨given, _, read, least⟩ := Number.lesser_reads request lowest.read
  refine ⟨given.imp_right fun same => ?_, ?_, fun a inside => ?_⟩
  · obtain ⟨a, inside, stored⟩ := lowest.given
    exact ⟨a, inside, by rw [Units.capFeed, same, stored]⟩
  · rw [Units.capFeed, Number.le_iff_of_reads read request, least]
    exact min_le_left _ _
  · obtain ⟨rate, _, stored, ceiling, below⟩ := lowest.least a inside
    refine ⟨rate, stored, ?_⟩
    rw [Units.capFeed, Number.le_iff_of_reads read ceiling, least]
    exact (min_le_right _ _).trans below

theorem ofDepth_governed {position : Int} (made : ofDepth store position mm requested = .ok plan) :
    Governed store [.z] requested plan := by
  obtain ⟨settings, steps, basis, rfl⟩ := ofDepth_ok made
  obtain ⟨_, lowest⟩ := lowest_single basis.based .z
  have capped := capFeed_capped basis.feed lowest
  refine ⟨capped, fun a moved => ?_⟩
  cases a with
  | left => exact absurd rfl moved
  | right => exact absurd rfl moved
  | z =>
    have inside : Axis.z ∈ [Axis.z] := List.mem_singleton_self _
    exact ⟨inside, allowed_of_capped basis.based basis.feed capped inside basis.some_hz⟩

theorem ofDrive_governed {direction : Direction}
    (made : ofDrive store direction mm requested = .ok plan) :
    Governed store [.left, .right] requested plan := by
  obtain ⟨settings, left, right, basis, rfl⟩ := ofDrive_ok made
  obtain ⟨_, lowest⟩ := lowest_pair basis.based .left .right
  have capped := capFeed_capped basis.feed lowest
  refine ⟨capped, fun a moved => ?_⟩
  cases a with
  | left =>
    have inside : Axis.left ∈ [Axis.left, Axis.right] := List.mem_cons_self
    exact ⟨inside, allowed_of_capped basis.based basis.feed capped inside fun none =>
      basis.some_hz (.inl ⟨moved, none⟩)⟩
  | right =>
    have inside : Axis.right ∈ [Axis.left, Axis.right] := List.mem_cons_of_mem _ List.mem_cons_self
    exact ⟨inside, allowed_of_capped basis.based basis.feed capped inside fun none =>
      basis.some_hz (.inr ⟨moved, none⟩)⟩
  | z => exact absurd rfl moved

end Plan

namespace Drives

open Hardware (Platform)

inductive Course where
  | drive (direction : Direction)
  | depth
deriving DecidableEq, Repr

def Course.axes : Course → List Axis
  | drive _ => [.left, .right]
  | depth => [.z]

def Course.run (store : Setting.Store) (mm feed : Float) :
    Course → Action Drives MotionFault Receipt
  | drive direction => Drives.drive store direction mm feed
  | depth => Drives.depth store mm feed

variable {store : Setting.Store} {mm requested : Float} {d d' : Drives}

def Course.plan (store : Setting.Store) (position : Int) (mm feed : Float) :
    Course → Except MotionFault Plan
  | drive direction => Plan.ofDrive store direction mm feed
  | depth => Plan.ofDepth store position mm feed

theorem Course.run_eq (course : Course) (d : Drives) :
    (course.run store mm requested).run d =
      match course.plan store (d.position .z) mm requested with
      | .ok plan => (dispatch plan).run d
      | .error fault => (.error fault, d) := by
  cases course with
  | drive direction =>
    change (Action.ofExcept (Plan.ofDrive store direction mm requested) >>= dispatch).run d = _
    dsimp only [Course.plan]
    cases Plan.ofDrive store direction mm requested <;> rfl
  | depth =>
    change (Action.ofExcept (Plan.ofDepth store (d.position .z) mm requested) >>= dispatch).run d = _
    dsimp only [Course.plan]
    cases Plan.ofDepth store (d.position .z) mm requested <;> rfl

theorem Course.plan_governed {course : Course} {position : Int} {plan : Plan}
    (made : course.plan store position mm requested = .ok plan) :
    Plan.Governed store course.axes requested plan := by
  cases course with
  | drive direction => exact Plan.ofDrive_governed made
  | depth => exact Plan.ofDepth_governed made

theorem course_cases (course : Course) {result : Except MotionFault Receipt}
    (ran : (course.run store mm requested).run d = (result, d')) :
    (∃ fault, result = .error fault ∧ d' = d) ∨
      ∃ plan, course.plan store (d.position .z) mm requested = .ok plan ∧
        (dispatch plan).run d = (result, d') := by
  rw [course.run_eq] at ran
  cases made : course.plan store (d.position .z) mm requested with
  | ok plan =>
    rw [made] at ran
    exact .inr ⟨plan, rfl, ran⟩
  | error fault =>
    rw [made] at ran
    cases ran
    exact .inl ⟨fault, rfl, rfl⟩

theorem dispatch_gains {plan : Plan} {result : Except MotionFault Receipt}
    (ran : (dispatch plan).run d = (result, d')) (a : Axis) :
    ∃ starts, Gains a d.platform d'.platform starts ∧
      starts <+: (if plan.move.steps.get a = 0 then [] else [startOf plan.move a]) ∧
      ∀ receipt, result = .ok receipt → receipt.move = plan.move ∧ receipt.feed = plan.feed ∧
        starts = if plan.move.steps.get a = 0 then [] else [startOf plan.move a] := by
  unfold dispatch at ran
  cases carried : (carryOut plan.move).run d with
  | mk answer next =>
    obtain ⟨starts, gained, among, all⟩ := carryOut_gains carried a
    cases answer with
    | ok lead =>
      rw [run_bind_ok carried] at ran
      cases ran
      refine ⟨starts, gained, among, ?_⟩
      rintro receipt ⟨⟩
      exact ⟨rfl, rfl, all lead rfl⟩
    | error fault =>
      rw [run_bind_error carried] at ran
      cases ran
      exact ⟨starts, gained, among, nofun⟩

private theorem dispatch_within {axes : List Axis} {plan : Plan} {result : Except MotionFault Receipt}
    (governed : Plan.Governed store axes requested plan)
    (ran : (dispatch plan).run d = (result, d')) {a : Axis} {event : Hardware.Event}
    (started : event ∈ startsSince d.platform d'.platform a) :
    a ∈ axes ∧ ∃ (steps : Int) (hz : Nat), event.what = .moveStarted steps (Number.ofInt hz) ∧
      Allowed store a plan.feed hz := by
  obtain ⟨starts, gained, among, _⟩ := dispatch_gains ran a
  have inside : event.what ∈ starts := starts_of_gains gained ▸ List.mem_map_of_mem started
  have inside := among.subset inside
  by_cases still : plan.move.steps.get a = 0
  · rw [if_pos still] at inside
    cases inside
  · rw [if_neg still] at inside
    obtain ⟨commanded, allowed⟩ := governed.moves a still
    exact ⟨commanded, _, _, List.mem_singleton.mp inside, allowed⟩

theorem dispatch_told {plan : Plan} {receipt : Receipt}
    (ran : (dispatch plan).run d = (.ok receipt, d')) :
    receipt.feed = plan.feed ∧ ∀ a, (startsSince d.platform d'.platform a).map (·.what) =
      if receipt.move.steps.get a = 0 then [] else [startOf receipt.move a] := by
  obtain ⟨_, _, _, told⟩ := dispatch_gains ran .z
  refine ⟨(told receipt rfl).2.1, fun a => ?_⟩
  obtain ⟨starts, gained, _, told⟩ := dispatch_gains ran a
  obtain ⟨move, _, all⟩ := told receipt rfl
  rw [starts_of_gains gained, all, move]

/-- Whatever state the axes are in, and even if one of them refuses, a drive or depth move starts the
axes that it commands only, all for one feed and each at no more than its own maximum rate. The receipt
tells that feed, and the steps and the frequency of each start. -/
theorem starts_within_rates (store : Setting.Store) (course : Course) (mm requested : Float)
    (d : Drives) :
    let ran := (course.run store mm requested).run d
    ∃ feed,
      (∀ a, ∀ event ∈ startsSince d.platform ran.2.platform a,
        a ∈ course.axes ∧ Capped store course.axes requested feed ∧ ∃ (steps : Int) (hz : Nat),
          event.what = .moveStarted steps (Number.ofInt hz) ∧ Allowed store a feed hz) ∧
      ∀ receipt, ran.1 = .ok receipt →
        receipt.feed = feed ∧ Capped store course.axes requested feed ∧
          ∀ a, (startsSince d.platform ran.2.platform a).map (·.what) =
            if receipt.move.steps.get a = 0 then []
            else [.moveStarted (receipt.move.steps.get a) (Number.ofInt (receipt.move.hz.get a))] := by
  dsimp only
  cases ran : (course.run store mm requested).run d with
  | mk result d' =>
    rcases course_cases course ran with ⟨fault, rfl, rfl⟩ | ⟨plan, made, dispatched⟩
    · refine ⟨requested, fun a event started => ?_, nofun⟩
      rw [starts_of_same rfl] at started
      cases started
    · have governed := Course.plan_governed made
      refine ⟨plan.feed, fun a event started => ?_, ?_⟩
      · obtain ⟨commanded, allowed⟩ := dispatch_within governed dispatched started
        exact ⟨commanded, governed.feed, allowed⟩
      · rintro receipt rfl
        obtain ⟨feed, starts⟩ := dispatch_told dispatched
        exact ⟨feed, governed.feed, starts⟩

example :
    let ran := (Course.run (Machine.factory .softLimits "0") 10 600 (.drive .forward)).run
      (fresh (.fresh ⟨26, 14, 17⟩ (-2000)))
    ran.1.toOption.map Receipt.feed = some 500 ∧
      (startsSince (.fresh ⟨26, 14, 17⟩ (-2000)) ran.2.platform .left).map (·.what) =
        [.moveStarted 2500 (Number.ofInt 2083)] := by
  decide +kernel

end Drives

end Crawler
