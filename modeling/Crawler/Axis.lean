/-! The three driven axes: two drive tracks and the tool head's depth axis. In the settings table
the left track has the X slot, the right track the Y slot and the tool head the Z slot. -/
namespace Crawler

inductive Axis where
  | left
  | right
  | z
deriving DecidableEq, Repr, Inhabited

namespace Axis

/-- Every axis, in the order of the settings table. -/
def all : List Axis := [left, right, z]

def index : Axis → Nat
  | left => 0
  | right => 1
  | z => 2

def ofIndex? : Nat → Option Axis
  | 0 => some left
  | 1 => some right
  | 2 => some z
  | _ => none

def name : Axis → String
  | left => "left"
  | right => "right"
  | z => "z"

def letter : Axis → Char
  | left => 'X'
  | right => 'Y'
  | z => 'Z'

@[simp] theorem ofIndex?_index (a : Axis) : ofIndex? a.index = some a := by cases a <;> rfl

theorem mem_all (a : Axis) : a ∈ all := by cases a <;> simp [all]

end Axis

structure PerAxis (α : Type) where
  left : α
  right : α
  z : α
deriving DecidableEq, Repr

namespace PerAxis

variable {α β : Type}

def replicate (x : α) : PerAxis α := ⟨x, x, x⟩

def ofFn (f : Axis → α) : PerAxis α := ⟨f .left, f .right, f .z⟩

def get (v : PerAxis α) : Axis → α
  | .left => v.left
  | .right => v.right
  | .z => v.z

def set (v : PerAxis α) (a : Axis) (x : α) : PerAxis α :=
  match a with
  | .left => { v with left := x }
  | .right => { v with right := x }
  | .z => { v with z := x }

def modify (v : PerAxis α) (a : Axis) (f : α → α) : PerAxis α :=
  match a with
  | .left => { v with left := f v.left }
  | .right => { v with right := f v.right }
  | .z => { v with z := f v.z }

def map (f : α → β) (v : PerAxis α) : PerAxis β := ⟨f v.left, f v.right, f v.z⟩

def toList (v : PerAxis α) : List α := [v.left, v.right, v.z]

@[simp] theorem get_set_self (v : PerAxis α) (a : Axis) (x : α) : (v.set a x).get a = x := by
  cases a <;> rfl

theorem get_set_of_ne (v : PerAxis α) {a b : Axis} (x : α) (h : b ≠ a) :
    (v.set a x).get b = v.get b := by
  cases a <;> cases b <;> first | rfl | exact absurd rfl h

theorem get_set (v : PerAxis α) (a b : Axis) (x : α) :
    (v.set a x).get b = if b = a then x else v.get b := by
  cases a <;> cases b <;> rfl

@[simp] theorem set_get (v : PerAxis α) (a : Axis) : v.set a (v.get a) = v := by
  cases a <;> rfl

theorem modify_eq_set (v : PerAxis α) (a : Axis) (f : α → α) :
    v.modify a f = v.set a (f (v.get a)) := by
  cases a <;> rfl

@[simp] theorem get_modify_self (v : PerAxis α) (a : Axis) (f : α → α) :
    (v.modify a f).get a = f (v.get a) := by
  cases a <;> rfl

theorem get_modify_of_ne (v : PerAxis α) {a b : Axis} (f : α → α) (h : b ≠ a) :
    (v.modify a f).get b = v.get b := by
  rw [modify_eq_set, get_set_of_ne _ _ h]

@[simp] theorem get_replicate (x : α) (a : Axis) : (replicate x).get a = x := by
  cases a <;> rfl

@[simp] theorem get_ofFn (f : Axis → α) (a : Axis) : (ofFn f).get a = f a := by
  cases a <;> rfl

@[simp] theorem get_map (f : α → β) (v : PerAxis α) (a : Axis) : (v.map f).get a = f (v.get a) := by
  cases a <;> rfl

theorem ext_get {v w : PerAxis α} (h : ∀ a, v.get a = w.get a) : v = w := by
  have hl := h .left
  have hr := h .right
  have hz := h .z
  cases v; cases w
  simp only [get] at hl hr hz
  simp [hl, hr, hz]

end PerAxis

end Crawler
