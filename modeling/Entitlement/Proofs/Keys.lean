import Entitlement.Tables.Audit
import Entitlement.Proofs.Binary64

/-!
Equality of keys.

Two values are the same key when they have one identity: texts and members by their text, numbers
by what they are worth, whatever the spelling. A NaN has none, and neither have lists and objects,
which cannot be keys at all. As identities are compared by plain equality, the sameness of keys is
symmetric and transitive across all spellings.
-/

namespace Entitlement

/-- What equal numbers share. A finite one is counted in units of doubles. -/
inductive Worth where
  | units (n : ℤ)
  | infinite (neg : Bool)

def Number.worth? : Number → Option Worth
  | .whole w => some (.units (w.toInt * Binary64.one))
  | .float (.finite neg units) => some (.units (Binary64.signed neg units))
  | .float (.infinite neg) => some (.infinite neg)
  | .float .nan => none

/-- What equal keys share. -/
inductive Identity where
  | null
  | number (w : Worth)
  | text (s : String)
  | bytes (bs : List UInt8)

def Value.identity? (v : Value) : Option Identity :=
  match v.text? with
  | some s => some (.text s)
  | none =>
    match v with
    | .null => some .null
    | .number n => n.worth?.map .number
    | .bytes bs => some (.bytes bs)
    | _ => none

/-! ### Numbers -/

lemma signed_mul (neg : Bool) (k d : ℕ) :
    Binary64.signed neg (k * d) = Binary64.signed neg k * d := by
  cases neg
  · exact Nat.cast_mul k d
  · show -((k * d : ℕ) : ℤ) = -(k : ℤ) * d
    rw [Nat.cast_mul, neg_mul]

lemma natAbs_signed (neg : Bool) (k : ℕ) : (Binary64.signed neg k).natAbs = k := by
  cases neg <;> simp [Binary64.signed]

lemma toInt?_eq_some_iff {neg : Bool} {units : ℕ} {z : ℤ} :
    (Binary64.finite neg units).toInt? = some z ↔
      Binary64.signed neg units = z * Binary64.one := by
  have hpos : 0 < Binary64.one := Binary64.one_pos
  unfold Binary64.toInt?
  generalize Binary64.one = d at hpos ⊢
  dsimp only
  constructor
  · intro h
    split_ifs at h with hmod
    obtain rfl := Option.some.inj h
    rw [← signed_mul, Nat.div_mul_cancel (Nat.dvd_of_mod_eq_zero hmod)]
  · intro h
    have hunits : units = z.natAbs * d := by
      rw [← natAbs_signed neg units, h, Int.natAbs_mul, Int.natAbs_natCast]
    have hz : Binary64.signed neg z.natAbs = z := by
      apply Int.eq_of_mul_eq_mul_right (by omega : (d : ℤ) ≠ 0)
      rw [← signed_mul, ← hunits, h]
    rw [if_pos (by rw [hunits, Nat.mul_mod_left]), hunits, Nat.mul_div_cancel _ hpos, hz]

lemma toInt?_infinite (neg : Bool) : (Binary64.infinite neg).toInt? = none := rfl

lemma toInt?_nan : Binary64.nan.toInt? = none := rfl

lemma Number.same_iff {m n : Number} :
    m.same n = true ↔ ∃ x, m.worth? = some x ∧ n.worth? = some x := by
  have hone : Binary64.one ≠ 0 := Binary64.one_pos.ne'
  rcases m with w | ⟨neg, units⟩ | neg | _ <;> rcases n with w' | ⟨neg', units'⟩ | neg' | _ <;>
    simp [Number.same, Number.worth?, Binary64.same, toInt?_eq_some_iff, toInt?_infinite,
      toInt?_nan, hone]
  all_goals exact eq_comm

/-! ### Values -/

namespace Value

variable {v w x : Value}

lemma same_iff : v.same w = true ↔ ∃ i, v.identity? = some i ∧ w.identity? = some i := by
  cases v <;> cases w <;> simp [same, identity?, text?, Number.same_iff]
  all_goals exact eq_comm

theorem same_symm (h : v.same w = true) : w.same v = true := by
  obtain ⟨i, hv, hw⟩ := same_iff.1 h
  exact same_iff.2 ⟨i, hw, hv⟩

theorem same_trans (h : v.same w = true) (h' : w.same x = true) : v.same x = true := by
  obtain ⟨i, hv, hw⟩ := same_iff.1 h
  obtain ⟨j, hw', hx⟩ := same_iff.1 h'
  obtain rfl : i = j := Option.some.inj (hw.symm.trans hw')
  exact same_iff.2 ⟨i, hv, hx⟩

lemma hashable_of_same (h : v.same w = true) : v.hashable = true := by
  obtain ⟨i, hv, -⟩ := same_iff.1 h
  cases v <;> simp_all [hashable, identity?, text?]

end Value

end Entitlement
