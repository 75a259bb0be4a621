/-!
# Leading bits

Words that agree on their leading bits, and the mask that keeps these bits.
-/

namespace Mask

/-- The two words agree on their `n` leading bits. -/
def Agree (n : Nat) (x y : BitVec w) : Prop := ∀ i < n, x.getMsbD i = y.getMsbD i

theorem Agree.refl (n : Nat) (x : BitVec w) : Agree n x x := fun _ _ => rfl

theorem Agree.symm (h : Agree n x y) : Agree n y x := fun i hi => (h i hi).symm

theorem Agree.trans (h : Agree n x y) (h' : Agree n y z) : Agree n x z :=
  fun i hi => (h i hi).trans (h' i hi)

theorem agree_zero (x y : BitVec w) : Agree 0 x y := by
  intro i hi
  cases hi

theorem agree_full {x y : BitVec w} : Agree w x y ↔ x = y := by
  constructor
  · exact BitVec.eq_of_getMsbD_eq
  · rintro rfl
    exact Agree.refl w x

/-- Ones in the `n` leading bits. -/
def leading (w n : Nat) : BitVec w := BitVec.allOnes w <<< (w - n)

theorem getMsbD_leading (h : n ≤ w) : (leading w n).getMsbD i = decide (i < n) := by
  rw [leading, BitVec.getMsbD_shiftLeft, BitVec.getMsbD_allOnes, decide_eq_decide]
  omega

theorem leading_zero (w : Nat) : leading w 0 = 0 := by
  apply BitVec.eq_of_getMsbD_eq
  intro i _
  simp [getMsbD_leading (Nat.zero_le w)]

/-- Under the mask, equality is agreement on the leading bits. -/
theorem and_leading_eq_iff {x y : BitVec w} (h : n ≤ w) :
    x &&& leading w n = y &&& leading w n ↔ Agree n x y := by
  constructor
  · intro heq i hi
    have hbit := congrArg (fun word => word.getMsbD i) heq
    simpa [getMsbD_leading h, hi] using hbit
  · intro hagree
    apply BitVec.eq_of_getMsbD_eq
    intro i _
    rw [BitVec.getMsbD_and, BitVec.getMsbD_and, getMsbD_leading h]
    by_cases hi : i < n
    · rw [hagree i hi]
    · simp [hi]

end Mask
