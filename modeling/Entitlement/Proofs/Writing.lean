import Entitlement.Log
import Entitlement.Proofs.Assoc
import Mathlib.Algebra.Group.Int.Defs
import Mathlib.Algebra.Group.Nat.Defs

/-!
What can be written out.

A whole number can be written out if it has no more digits than are written, and a value if every
whole number in it can. An error whose message cannot be written out gives way to the error that
this is.
-/

namespace Entitlement

lemma Whole.writable_int_iff {n : Int} :
    (int n).writable = true ↔ n.natAbs < 10 ^ Decimal.maxDigits := by
  rw [writable, decide_eq_true_iff, Nat.length_toDigits_le_iff (by decide) (by decide)]

lemma Whole.writable_of_le {w w' : Whole} (h0 : 0 ≤ w.toInt) (hle : w.toInt ≤ w'.toInt)
    (h : w'.writable = true) : w.writable = true := by
  cases w with
  | bool b => rfl
  | int n =>
    rw [toInt_int] at h0 hle
    rw [writable_int_iff]
    cases w' with
    | int m =>
      rw [writable_int_iff] at h
      rw [toInt_int] at hle
      omega
    | bool b =>
      have hone : 1 < 10 ^ Decimal.maxDigits := Nat.one_lt_pow (by decide) (by decide)
      have hb : (bool b).toInt ≤ 1 := by cases b <;> decide
      omega

lemma Whole.writable_of_lt {w : Whole} {k : Nat} (h0 : 0 ≤ w.toInt) (hk : k ≤ Decimal.maxDigits)
    (h : w.toInt < 2 ^ k) : w.writable = true := by
  cases w with
  | bool b => rfl
  | int n =>
    have hlt : n.natAbs < 2 ^ k := by
      have hcast : ((2 ^ k : Nat) : Int) = 2 ^ k := Int.natCast_pow 2 k
      rw [toInt_int] at h0 h
      omega
    rw [writable_int_iff]
    calc n.natAbs < 2 ^ k := hlt
      _ ≤ 10 ^ k := Nat.pow_le_pow_left (by decide) k
      _ ≤ 10 ^ Decimal.maxDigits := Nat.pow_le_pow_right (by decide) hk

namespace Value

/-- The least natural number that cannot be written out. It is not unfolded by accident. -/
@[irreducible]
def tooLong : Int := 10 ^ Decimal.maxDigits

lemma tooLong_pos : 0 < tooLong := by
  rw [tooLong]
  exact Int.pow_pos (by decide)

lemma natAbs_tooLong : tooLong.natAbs = 10 ^ Decimal.maxDigits := by
  have hten : Int.natAbs 10 = 10 := rfl
  rw [tooLong, Int.natAbs_pow, hten]

lemma writable_int_of_natAbs_eq {n : Int} (h : n.natAbs = tooLong.natAbs) :
    (int n).writable = false := by
  rw [← Bool.not_eq_true]
  intro hn
  have hlt : n.natAbs < 10 ^ Decimal.maxDigits := Whole.writable_int_iff.1 hn
  rw [h, natAbs_tooLong] at hlt
  exact Nat.lt_irrefl _ hlt

lemma fieldsWritable_iff {fs : Bindings} :
    fieldsWritable fs = true ↔ ∀ e ∈ fs, e.2.writable = true := by
  induction fs with
  | nil => simp [fieldsWritable]
  | cons e fs ih => simp [fieldsWritable, ih]

/-! The log changes no whole number. -/

mutual

lemma writable_logged (v : Value) : v.logged.writable = v.writable := by
  cases v with
  | list xs => exact allWritable_logged xs
  | object fs => exact fieldsWritable_logged fs
  | _ => rfl

lemma allWritable_logged (vs : List Value) : allWritable (loggedAll vs) = allWritable vs := by
  cases vs with
  | nil => rfl
  | cons v vs => rw [loggedAll, allWritable, allWritable, writable_logged v, allWritable_logged vs]

lemma fieldsWritable_logged (fs : Bindings) :
    fieldsWritable (loggedFields fs) = fieldsWritable fs := by
  cases fs with
  | nil => rfl
  | cons f fs =>
    obtain ⟨k, v⟩ := f
    rw [loggedFields, fieldsWritable, fieldsWritable, writable_logged v, fieldsWritable_logged fs]

end

end Value

open Value (fieldsWritable fieldsWritable_iff)

lemma Event.writable_make {level : Level} {name : String} {context values : Bindings}
    (hcontext : fieldsWritable context = true) (hvalues : fieldsWritable values = true) :
    (Event.make level name context values).writable = true := by
  rw [fieldsWritable_iff] at hcontext hvalues
  rw [writable, make, Value.fieldsWritable_logged, fieldsWritable_iff]
  intro e he
  have hall := Assoc.forall_mem_putAll (P := fun v : Value => v.writable = true) hcontext hvalues
  exact hall e (List.mem_filter.1 he).1

lemma Event.writable_eq_false {e : Event} {k : String} {v : Value}
    (h : Assoc.find? e.fields k = some v) (hv : v.writable = false) : e.writable = false := by
  rw [writable, ← Bool.not_eq_true, fieldsWritable_iff]
  intro hall
  have hmem := Assoc.mem_of_find?_eq_some h
  exact Bool.false_ne_true (hv.symm.trans (hall _ hmem))

namespace Error

variable {e : Error}

lemma raised_of_writable (h : e.writable = true) : e.raised = e := if_pos h

lemma raised_of_not_writable (h : e.writable = false) : e.raised = .unwritable :=
  if_neg (Bool.eq_false_iff.1 h)

end Error

end Entitlement
