import Crawler.Proofs.Action
import Crawler.Proofs.Direction
import Crawler.Request
import Mathlib.Data.List.Nodup
import Mathlib.Data.List.Perm.Subperm

/-! Requests and the ways to write them. A direction may be given by its code or in a text, and a request
by its members, in any order among others, or in order as an array. Whatever the way, what is read is the
request that was written, and nothing else is read as one. -/
namespace Crawler

open Crawler.Action

inductive Direction.Named (d : Direction) : Json → Prop
  | code : Named d (.integer d.code)
  | text {text : String} {before chars after : List Char} (split : text.toList = before ++ chars ++ after)
    (blank : ∀ c ∈ before ++ after, Text.isBlank c = true) (written : d.Written chars) :
    Named d (.text text)

/-- Without blanks a text is taken as it stands. -/
theorem Direction.Named.of_written {d : Direction} {text : String} (written : d.Written text.toList) :
    d.Named (.text text) := by
  have whole : text.toList = [] ++ text.toList ++ [] := by simp
  exact .text whole nofun written

inductive Json.Figure (x : Float) : Json → Prop
  | float : Figure x (.float x)
  | integer {n : Int} (whole : Number.ofInt n = x) : Figure x (.integer n)

namespace Json

variable {name : String} {value : Json} {members fields others : List (String × Json)}

/-- Among members in any order each field is found, if no other has its name. -/
theorem member?_of_perm (order : members.Perm (fields ++ others)) (distinct : (fields.map (·.1)).Nodup)
    (unknown : ∀ entry ∈ others, entry.1 ∉ fields.map (·.1)) (given : (name, value) ∈ fields) :
    member? name members = some value := by
  have here : (name, value) ∈ members := order.mem_iff.mpr (List.mem_append_left _ given)
  cases found : members.reverse.find? (·.1 = name) with
  | none =>
    have other := List.find?_eq_none.mp found _ (List.mem_reverse.mpr here)
    exact absurd (decide_eq_true rfl) other
  | some entry =>
    have named : entry.1 = name := by simpa using List.find?_some found
    have among : entry ∈ members := List.mem_reverse.mp (List.mem_of_find?_eq_some found)
    have known : entry ∈ fields := by
      refine (List.mem_append.mp (order.mem_iff.mp among)).resolve_right fun other => ?_
      exact unknown entry other (named ▸ List.mem_map_of_mem given)
    have same : entry = (name, value) := List.inj_on_of_nodup_map distinct known given named
    rw [member?, found, same, Option.map_some]

private theorem member?_eq_none_iff : member? name members = none ↔ ∀ entry ∈ members, entry.1 ≠ name := by
  simp [member?]

private theorem mem_of_member? (found : member? name members = some value) : (name, value) ∈ members := by
  obtain ⟨entry, last, rfl⟩ := Option.map_eq_some_iff.mp found
  have named : entry.1 = name := by simpa using List.find?_some last
  rw [← named]
  exact List.mem_reverse.mp (List.mem_of_find?_eq_some last)

/-- Members of distinct names are some of them and others with other names. -/
theorem perm_of_mem (distinct : (members.map (·.1)).Nodup)
    (within : ∀ entry ∈ fields, entry ∈ members) (own : (fields.map (·.1)).Nodup) : ∃ others,
    members.Perm (fields ++ others) ∧ ∀ entry ∈ others, entry.1 ∉ fields.map (·.1) := by
  obtain ⟨same, rearranged, part⟩ := List.subperm_of_subset own.of_map within
  obtain ⟨others, order⟩ := part.exists_perm_append
  have order : members.Perm (fields ++ others) := order.trans (rearranged.append_right others)
  have apart := (order.map (·.1)).nodup_iff.mp distinct
  rw [List.map_append] at apart
  refine ⟨others, order, fun entry here used => ?_⟩
  exact List.disjoint_of_nodup_append apart used (List.mem_map_of_mem here)

end Json

def Json.Distinct : Json → Prop
  | object members => (members.map (·.1)).Nodup
  | _ => True

def DriveRequest.headings : List String := ["direction", "axis"]

def DriveRequest.names : List String := headings ++ ["speed", "step"]

/-- The ways to write a request for a drive: its members in any order, among others that it knows
nothing of, or the three of them in order. -/
inductive DriveRequest.Form (r : DriveRequest) : Json → Prop
  | object {field : String} {heading speed step : Json} {others members : List (String × Json)}
    (which : field ∈ headings) (named : r.direction.Named heading)
    (feed : speed.Figure r.speed) (travel : step.Figure r.step)
    (unknown : ∀ entry ∈ others, entry.1 ∉ names)
    (order : members.Perm ([(field, heading), ("speed", speed), ("step", step)] ++ others)) :
    Form r (.object members)
  | array {heading speed step : Json} (named : r.direction.Named heading)
    (feed : speed.Figure r.speed) (travel : step.Figure r.step) : Form r (.array [heading, speed, step])

namespace Request

variable {d : Direction} {x : Float} {value : Json} {members : List (String × Json)}

private theorem required_eq_ok_iff {α : Type} {decode : Json → Except RequestFault α} {given : Option Json}
    {a : α} : required decode given = .ok a ↔ ∃ value, given = some value ∧ decode value = .ok a := by
  cases given <;> simp [required]

private theorem direction_eq_ok_iff : direction value = .ok d ↔ d.Named value := by
  constructor
  · intro answered
    cases value with
    | integer n =>
      simp only [direction] at answered
      split at answered
      · next within =>
        have same := Direction.ofCode_eq_ok_iff.mp (except_mapError_eq_ok.mp answered)
        rw [← Int.toNat_of_nonneg within.1, same]
        exact .code
      · cases answered
    | text s =>
      rw [direction, except_mapError_eq_ok, Direction.parse_eq_ok_iff] at answered
      obtain ⟨_, _, _, split, blank, written⟩ := answered
      exact .text split blank written
    | _ => cases answered
  · intro named
    cases named with
    | code => cases d <;> rfl
    | text split blank written =>
      rw [direction, except_mapError_eq_ok, Direction.parse_eq_ok_iff]
      exact ⟨_, _, _, split, blank, written⟩

private theorem directionMember_eq_ok_iff : directionMember members = .ok d ↔
    ∃ field ∈ DriveRequest.headings, ∃ heading, Json.member? field members = some heading ∧
      (∀ other ∈ DriveRequest.headings, other ≠ field → Json.member? other members = none) ∧
      d.Named heading := by
  cases old : Json.member? "axis" members <;> cases current : Json.member? "direction" members <;>
    simp [directionMember, DriveRequest.headings, old, current, except_bind_eq_ok,
      required_eq_ok_iff, direction_eq_ok_iff]

private theorem number_eq_ok_iff : number value = .ok x ↔ value.Figure x := by
  constructor
  · intro answered
    cases value with
    | integer n => exact .integer (Except.ok.inj answered)
    | float y =>
      obtain rfl := Except.ok.inj answered
      exact .float
    | _ => cases answered
  · intro figure
    cases figure with
    | float => rfl
    | integer whole => exact congrArg _ whole

private theorem figure_ofFloat_iff : (Json.ofFloat x).Figure x ↔ x.isFinite := by
  rw [← number_eq_ok_iff, Json.ofFloat]
  cases x.isFinite <;> simp [number, Json.number?]

private theorem given_ofFloat_iff {name : String} (given : Json.member? name members = some (.ofFloat x)) :
    (∃ value, Json.member? name members = some value ∧ value.Figure x) ↔ x.isFinite := by
  simp [given, figure_ofFloat_iff]

private theorem optional_switch (choice : Option Bool) :
    optional switch (some (Json.ofOption .bool choice)) = .ok choice := by
  cases choice <;> rfl

/-- A number without digits is written as if there were none. -/
theorem optional_number (given : Option Float) :
    optional number (some (Json.ofOption .ofFloat given)) = .ok (given.filter Float.isFinite) := by
  cases given with
  | none => rfl
  | some x =>
    rw [Json.ofOption, Json.ofFloat, Option.filter_some]
    cases x.isFinite <;> rfl

end Request

namespace DriveRequest

variable {r : DriveRequest} {value : Json}

private theorem ofJson_object_iff {members : List (String × Json)} : ofJson (.object members) = .ok r ↔
    Request.directionMember members = .ok r.direction ∧
      (∃ speed, Json.member? "speed" members = some speed ∧ speed.Figure r.speed) ∧
      ∃ step, Json.member? "step" members = some step ∧ step.Figure r.step := by
  simp only [ofJson, except_bind_eq_ok, Request.required_eq_ok_iff, Request.number_eq_ok_iff]
  constructor
  · rintro ⟨d, heads, x, feed, y, travel, same⟩
    cases same
    exact ⟨heads, feed, travel⟩
  · rintro ⟨heads, feed, travel⟩
    exact ⟨_, heads, _, feed, _, travel, rfl⟩

private theorem ofJson_array_iff {items : List Json} : ofJson (.array items) = .ok r ↔
    ∃ heading speed step, items = [heading, speed, step] ∧ r.direction.Named heading ∧
      speed.Figure r.speed ∧ step.Figure r.step := by
  simp only [ofJson, except_bind_eq_ok, Request.required_eq_ok_iff, Request.number_eq_ok_iff,
    Request.direction_eq_ok_iff]
  constructor
  · rintro ⟨d, ⟨heading, first, named⟩, x, ⟨speed, second, feed⟩, y, ⟨step, third, travel⟩, answered⟩
    split at answered
    · next short =>
      cases answered
      refine ⟨heading, speed, step, ?_, named, feed, travel⟩
      rcases items with _ | ⟨_, _ | ⟨_, _ | ⟨_, rest⟩⟩⟩ <;>
        cases first <;> cases second <;> cases third
      cases rest with
      | nil => rfl
      | cons => cases Nat.not_lt.mpr short (by simp)
    · cases answered
  · rintro ⟨heading, speed, step, rfl, named, feed, travel⟩
    exact ⟨_, ⟨_, rfl, named⟩, _, ⟨_, rfl, feed⟩, _, ⟨_, rfl, travel⟩, rfl⟩

section Names

variable {field other : String}

private theorem names_distinct (which : field ∈ headings) : [field, "speed", "step"].Nodup := by
  revert field
  decide

private theorem names_known (which : field ∈ headings) :
    ∀ name ∈ [field, "speed", "step"], name ∈ names := by
  revert field
  decide

private theorem names_used (which : field ∈ headings) :
    ∀ name ∈ names, name ∈ [field, "speed", "step"] ∨ name ∈ headings ∧ name ≠ field := by
  revert field
  decide

private theorem heading_unused (heads : other ∈ headings) (apart : other ≠ field) :
    other ∉ [field, "speed", "step"] := by
  have others : ∀ name ∈ headings, name ∉ ["speed", "step"] := by decide
  exact fun used => (List.mem_cons.mp used).elim apart (others other heads)

end Names

private theorem ofJson_of_form (form : r.Form value) : ofJson value = .ok r := by
  cases form with
  | array named feed travel => exact ofJson_array_iff.mpr ⟨_, _, _, rfl, named, feed, travel⟩
  | @object field heading speed step others members which named feed travel unknown order =>
    have foreign : ∀ entry ∈ others, entry.1 ∉ [field, "speed", "step"] := fun entry here used =>
      unknown entry here (names_known which _ used)
    have lookup {name : String} {value : Json}
        (given : (name, value) ∈ [(field, heading), ("speed", speed), ("step", step)]) :
        Json.member? name members = some value :=
      Json.member?_of_perm order (names_distinct which) foreign given
    have unused (other : String) (heads : other ∈ headings) (apart : other ≠ field) :
        Json.member? other members = none := by
      have known : other ∈ names := List.mem_append_left _ heads
      refine Json.member?_eq_none_iff.mpr fun entry here same => ?_
      subst same
      rcases List.mem_append.mp (order.mem_iff.mp here) with own | foreign
      · exact heading_unused heads apart (List.mem_map_of_mem own)
      · exact unknown entry foreign known
    refine ofJson_object_iff.mpr ⟨?_, ⟨speed, lookup (by simp), feed⟩, ⟨step, lookup (by simp), travel⟩⟩
    exact Request.directionMember_eq_ok_iff.mpr ⟨field, which, heading, lookup (by simp), unused, named⟩

private theorem form_of_ofJson (distinct : value.Distinct) (answered : ofJson value = .ok r) :
    r.Form value := by
  cases value with
  | object members =>
    obtain ⟨heads, ⟨speed, speed?, feed⟩, step, step?, travel⟩ := ofJson_object_iff.mp answered
    obtain ⟨field, which, heading, heading?, unused, named⟩ :=
      Request.directionMember_eq_ok_iff.mp heads
    have within : ∀ entry ∈ [(field, heading), ("speed", speed), ("step", step)], entry ∈ members := by
      simp [Json.mem_of_member? heading?, Json.mem_of_member? speed?, Json.mem_of_member? step?]
    obtain ⟨others, order, foreign⟩ := Json.perm_of_mem distinct within (names_distinct which)
    refine .object which named feed travel (fun entry here known => ?_) order
    rcases names_used which entry.1 known with used | ⟨heads, apart⟩
    · exact foreign entry here used
    · have present : entry ∈ members := order.mem_iff.mpr (List.mem_append_right _ here)
      exact Json.member?_eq_none_iff.mp (unused entry.1 heads apart) entry present rfl
  | array items =>
    obtain ⟨heading, speed, step, rfl, named, feed, travel⟩ := ofJson_array_iff.mp answered
    exact .array named feed travel
  | _ => cases answered

private theorem ofJson_toJson (r : DriveRequest) :
    ofJson r.toJson = .ok r ↔ r.speed.isFinite ∧ r.step.isFinite := by
  have heads : Request.directionMember [("direction", .text r.direction.name),
      ("speed", .ofFloat r.speed), ("step", .ofFloat r.step)] = .ok r.direction :=
    Request.directionMember_eq_ok_iff.mpr
      ⟨"direction", by decide, _, rfl, by simp [headings]; rfl, .of_written (.name (.refl _))⟩
  exact ofJson_object_iff.trans ((and_iff_right heads).trans
    (and_congr (Request.given_ofFloat_iff rfl) (Request.given_ofFloat_iff rfl)))

end DriveRequest

private theorem DepthRequest.ofJson_object_iff {r : DepthRequest} {members : List (String × Json)} :
    ofJson (.object members) = .ok r ↔
      (∃ speed, Json.member? "speed" members = some speed ∧ speed.Figure r.speed) ∧
      ∃ step, Json.member? "step" members = some step ∧ step.Figure r.step := by
  simp only [ofJson, except_bind_eq_ok, Request.required_eq_ok_iff, Request.number_eq_ok_iff]
  constructor
  · rintro ⟨x, feed, y, travel, same⟩
    cases same
    exact ⟨feed, travel⟩
  · rintro ⟨feed, travel⟩
    exact ⟨_, feed, _, travel, rfl⟩

private theorem DepthRequest.ofJson_toJson (r : DepthRequest) :
    ofJson r.toJson = .ok r ↔ r.speed.isFinite ∧ r.step.isFinite := by
  refine ofJson_object_iff.trans (and_congr ?_ ?_)
  · exact Request.given_ofFloat_iff rfl
  · exact Request.given_ofFloat_iff rfl

private theorem SpindleRequest.ofJson_toJson (r : SpindleRequest) :
    ofJson r.toJson = .ok r ↔ ∀ x ∈ r.speed, x.isFinite := by
  have read : ofJson r.toJson = (do
      let enable ← Request.optional Request.switch (some (Json.ofOption .bool r.enable))
      let speed ← Request.optional Request.number (some (Json.ofOption .ofFloat r.speed))
      return ⟨enable, speed⟩) := rfl
  rw [read, Request.optional_switch, Request.optional_number]
  obtain ⟨enable, speed⟩ := r
  cases speed <;> simp [bind, Except.bind, pure, Except.pure]

/-- A request is read back from what it is written as, if its numbers have digits. A request for a drive
is read from every form in which it can be given and, if no two members have one name, from no other. -/
theorem Request.read_back :
    (∀ r : DriveRequest, DriveRequest.ofJson r.toJson = .ok r ↔ r.speed.isFinite ∧ r.step.isFinite) ∧
    (∀ r : DepthRequest, DepthRequest.ofJson r.toJson = .ok r ↔ r.speed.isFinite ∧ r.step.isFinite) ∧
    (∀ r : SpindleRequest, SpindleRequest.ofJson r.toJson = .ok r ↔ ∀ x ∈ r.speed, x.isFinite) ∧
    (∀ (r : DriveRequest) (value : Json), r.Form value → DriveRequest.ofJson value = .ok r) ∧
    ∀ (r : DriveRequest) (value : Json),
      value.Distinct → DriveRequest.ofJson value = .ok r → r.Form value := by
  refine ⟨DriveRequest.ofJson_toJson, DepthRequest.ofJson_toJson, SpindleRequest.ofJson_toJson, ?_, ?_⟩
  · intro r value
    exact DriveRequest.ofJson_of_form
  · intro r value
    exact DriveRequest.form_of_ofJson

def Request.noted : Json :=
  .object [("step", .float 5.5), ("note", .null), ("axis", .text "TURN_left"), ("speed", .integer 100)]

theorem Request.noted_read_back : noted.Distinct ∧ DriveRequest.ofJson noted = .ok ⟨.turnLeft, 100, 5.5⟩ ∧
    DriveRequest.Form ⟨.turnLeft, 100, 5.5⟩ noted := by
  have spelled : Direction.Spelling "TURN_left".toList Direction.turnLeft.name.toList :=
    .letter rfl <| .letter rfl <| .letter rfl <| .letter rfl <| .mark (.inl rfl) <|
      .letter rfl <| .letter rfl <| .letter rfl <| .letter rfl .nil
  have order := @List.perm_append_comm _ [("step", Json.float 5.5), ("note", .null)]
    [("axis", .text "TURN_left"), ("speed", .integer 100)]
  have form : DriveRequest.Form ⟨.turnLeft, 100, 5.5⟩ noted := by
    refine .object (.tail _ (.head _)) (.of_written (.name spelled)) (.integer ?_) .float ?_ order
    · rfl
    · simp [DriveRequest.names, DriveRequest.headings]
  have distinct : noted.Distinct := by
    change ["step", "note", "axis", "speed"].Nodup
    decide
  obtain ⟨_, _, _, read, given⟩ := Request.read_back
  have answered := read _ noted form
  exact ⟨distinct, answered, given _ noted distinct answered⟩

end Crawler
