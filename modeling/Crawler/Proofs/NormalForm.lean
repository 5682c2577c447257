import Crawler.Proofs.Legibility

/-! The stored form of values. A value is stored in one form, from which it is read back; other forms
stand for a value too, such as an integer for a float or a switch, and are brought to that one form when
they are read and stored again. What does not fit a kind is refused, whatever the setting is. -/
namespace Crawler.Setting

def Stored.Fits : Kind → Stored → Prop
  | .int, .integer n => -2 ^ 31 ≤ n ∧ n < 2 ^ 31
  | .short, .integer n => -2 ^ 15 ≤ n ∧ n < 2 ^ 15
  | .bool, .bool _ => True
  | .bool, .integer n => n = 0 ∨ n = 1
  | .float, .float _ | .float, .integer _ => True
  | .int, .bool _ | .int, .float _ | .short, .bool _ | .short, .float _ | .bool, .float _
  | .float, .bool _ => False

private theorem int32?_eq (n : Int) :
    int32? n = if -2 ^ 31 ≤ n ∧ n < 2 ^ 31 then some (Int32.ofInt n) else none := by
  refine if_congr (and_congr_right fun _ => ?_) rfl rfl
  exact Int.lt_add_one_iff.symm

private theorem int16?_eq (n : Int) :
    int16? n = if -2 ^ 15 ≤ n ∧ n < 2 ^ 15 then some (Int16.ofInt n) else none := by
  refine if_congr (and_congr_right fun _ => ?_) rfl rfl
  exact Int.lt_add_one_iff.symm

namespace Value

variable {kind : Kind} {stored : Stored}

private theorem ofStored_of_fits (fits : stored.Fits kind) : ∃ v, ofStored kind stored = .ok v := by
  unfold Stored.Fits at fits
  split at fits
  · next n =>
    simp only [ofStored, int32?_eq, if_pos fits]
    exact ⟨_, rfl⟩
  · next n =>
    simp only [ofStored, int16?_eq, if_pos fits]
    exact ⟨_, rfl⟩
  · exact ⟨_, rfl⟩
  · rcases fits with rfl | rfl <;> exact ⟨_, rfl⟩
  · exact ⟨_, rfl⟩
  · exact ⟨_, rfl⟩
  all_goals cases fits

private theorem ofStored_of_unfit (unfit : ¬stored.Fits kind) :
    ofStored kind stored = .error (.unfit stored kind) := by
  unfold ofStored
  split
  · next n => rw [(int32?_eq n).trans (if_neg unfit)]
  · next n => rw [(int16?_eq n).trans (if_neg unfit)]
  · exact absurd trivial unfit
  · exact absurd (.inl rfl) unfit
  · exact absurd (.inr rfl) unfit
  · exact absurd trivial unfit
  · exact absurd trivial unfit
  · rfl

end Value

namespace Store

/-- Every value is read back from its stored form. What fits a kind is read as a value of that kind, whose
stored form stands for it again, and nothing else is read. Floats that are no number are all one here,
and no exception. -/
theorem decode_normal (key : Key) (kind : Kind) :
    (∀ v : Value, v.kind = kind → decode key kind v.toStored = .ok v) ∧
    (∀ stored v, decode key kind stored = .ok v → v.kind = kind ∧ decode key kind v.toStored = .ok v) ∧
    (∀ stored : Stored, stored.Fits kind → ∃ v, decode key kind stored = .ok v) ∧
    ∀ stored : Stored, ¬stored.Fits kind →
      decode key kind stored = .error (.invalid key (.unfit stored kind)) := by
  have back (v : Value) (same : v.kind = kind) : decode key kind v.toStored = .ok v := by
    unfold decode
    rw [← same, v.ofStored_toStored]
    rfl
  refine ⟨back, fun stored v read => ?_, fun stored fits => ?_, fun stored unfit => ?_⟩
  · have same := Value.kind_of_ofStored (Action.except_mapError_eq_ok.mp read)
    exact ⟨same, back v same⟩
  · obtain ⟨v, read⟩ := Value.ofStored_of_fits fits
    exact ⟨v, Action.except_mapError_eq_ok.mpr read⟩
  · unfold decode
    rw [Value.ofStored_of_unfit unfit]
    rfl

/-- A digit is read as a switch, and stored as a switch from then on. -/
theorem digit_normal :
    decode .laserMode .bool (.integer 1) = .ok (.bool true) ∧
      decode .laserMode .bool (Value.bool true).toStored = .ok (.bool true) ∧
      decode .laserMode .bool (.integer 2) =
        .error (.invalid .laserMode (.unfit (.integer 2) .bool)) := by
  have read : decode .laserMode .bool (.integer 1) = .ok (.bool true) := rfl
  obtain ⟨_, again, _, refused⟩ := decode_normal .laserMode .bool
  have unfit : ¬Stored.Fits .bool (.integer 2) := by
    unfold Stored.Fits
    decide
  exact ⟨read, (again _ _ read).2, refused _ unfit⟩

end Store

end Crawler.Setting
