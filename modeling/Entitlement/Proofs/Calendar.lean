import Entitlement.Calendar
import Entitlement.Proofs.Decimal

/-!
Days, dates and their texts.

A day is found again from its date, so different days have different dates; and a date is found
again from its text, so different dates have different texts. The text is taken apart from its
end, since a year may begin with a minus and month and day hold none.
-/

namespace Entitlement

lemma append_cons_inj_of_not_mem {α : Type} {s : α} {a b c d : List α} (hc : s ∉ c) (hd : s ∉ d)
    (h : a ++ s :: c = b ++ s :: d) : a = b ∧ c = d := by
  induction a generalizing b with
  | nil =>
    rcases b with _ | ⟨x, b⟩
    · exact ⟨rfl, (List.cons.inj h).2⟩
    · rw [List.nil_append, List.cons_append, List.cons.injEq] at h
      exact absurd (h.2 ▸ List.mem_append_right b List.mem_cons_self) hc
  | cons x a ih =>
    rcases b with _ | ⟨y, b⟩
    · rw [List.nil_append, List.cons_append, List.cons.injEq] at h
      exact absurd (h.2 ▸ List.mem_append_right a List.mem_cons_self) hd
    · rw [List.cons_append, List.cons_append, List.cons.injEq] at h
      obtain ⟨rfl, htail⟩ := h
      obtain ⟨rfl, rfl⟩ := ih htail
      exact ⟨rfl, rfl⟩

namespace Date

/-- The centuries and leap days before the year of an era that the day `d` of the era lies in. -/
lemma yearOfEra_leaps {d y : Int} (h0 : 0 ≤ d) (h1 : d < 146097)
    (hy : y = (d - d / 1460 + d / 36524 - d / 146096) / 365) :
    y / 100 = d / 36524 - d / 146096 ∧ y / 4 ≤ d / 1460 ∧ d / 1460 ≤ y / 4 + 1 := by
  have hlast : d / 146096 = 0 ∨ d / 146096 = 1 := by omega
  refine ⟨?_, ?_, ?_⟩ <;> omega

lemma yearOfEra_bounds {d y : Int} (h0 : 0 ≤ d) (h1 : d < 146097)
    (hy : y = (d - d / 1460 + d / 36524 - d / 146096) / 365) :
    0 ≤ y ∧ y < 400 ∧ 0 ≤ d - (365 * y + y / 4 - y / 100) ∧
      d - (365 * y + y / 4 - y / 100) ≤ 365 := by
  obtain ⟨hcentury, hleap, hleap'⟩ := yearOfEra_leaps h0 h1 hy
  have hlast : d / 146096 = 0 ∨ d / 146096 = 1 := by omega
  omega

theorem toDay_ofDay (n : Int) : (ofDay n).toDay = n := by
  obtain ⟨d, hd⟩ : ∃ d, d = (n + 719468) % 146097 := ⟨_, rfl⟩
  obtain ⟨era, hera⟩ : ∃ era, era = (n + 719468) / 146097 := ⟨_, rfl⟩
  obtain ⟨y, hy⟩ : ∃ y, y = (d - d / 1460 + d / 36524 - d / 146096) / 365 := ⟨_, rfl⟩
  obtain ⟨r, hr⟩ : ∃ r, r = d - (365 * y + y / 4 - y / 100) := ⟨_, rfl⟩
  obtain ⟨m, hm⟩ : ∃ m, m = (5 * r + 2) / 153 := ⟨_, rfl⟩
  obtain ⟨h0, h1, h2, h3⟩ := yearOfEra_bounds (by omega) (by omega) hy
  rw [← hr] at h2 h3
  have hera' : (y + era * 400) / 400 = era := by omega
  have hy' : (y + era * 400) % 400 = y := by omega
  have hday : (((r - (153 * m + 2) / 5 + 1).toNat : Nat) : Int) = r - (153 * m + 2) / 5 + 1 := by
    omega
  simp only [ofDay, toDay, ← hd, ← hera, ← hy, ← hr, ← hm]
  -- January and February end the year that began in March
  by_cases hlt : m < 10
  · have hmonth : ¬ (m + 3).toNat ≤ 2 := by omega
    have hm' : ((m + 3).toNat : Int) - 3 = m := by omega
    simp only [hlt, if_true, hmonth, if_false, Int.add_zero, Int.sub_zero, hera', hy', hm', hday]
    omega
  · have hmonth : (m - 9).toNat ≤ 2 := by omega
    have hm' : ((m - 9).toNat : Int) + 9 = m := by omega
    simp only [hlt, if_true, hmonth, if_false, Int.add_sub_cancel, hera', hy', hm', hday]
    omega

lemma ofDay_injective : Function.Injective ofDay := fun m n h => by
  rw [← toDay_ofDay m, ← toDay_ofDay n, h]

/-! ### Texts -/

lemma toList_text (d : Date) : d.text.toList =
    (d.year.repr.toList ++ '-' :: (Decimal.padded 2 d.month).toList) ++
      '-' :: (Decimal.padded 2 d.day).toList := by
  simp [text, String.toList_append]

lemma text_injective : Function.Injective text := by
  intro d e h
  have hlist := congrArg String.toList h
  rw [toList_text, toList_text] at hlist
  have hno (n : Nat) : '-' ∉ (Decimal.padded 2 n).toList := Decimal.not_mem_padded (by decide) 2 n
  obtain ⟨hfront, hday⟩ := append_cons_inj_of_not_mem (hno _) (hno _) hlist
  obtain ⟨hyear, hmonth⟩ := append_cons_inj_of_not_mem (hno _) (hno _) hfront
  obtain ⟨y, m, n⟩ := d
  obtain ⟨y', m', n'⟩ := e
  rw [String.toList_inj] at hyear hmonth hday
  obtain rfl := Decimal.repr_injective hyear
  obtain rfl := Decimal.padded_injective 2 hmonth
  obtain rfl := Decimal.padded_injective 2 hday
  rfl

lemma not_mem_text {c : Char} (hc : ¬ c.isDigit) (hm : c ≠ '-') (d : Date) : c ∉ d.text.toList := by
  have hyear : c ∉ d.year.repr.toList := fun h => (Decimal.mem_repr h).elim hc hm
  simp [toList_text, hyear, hm, Decimal.not_mem_padded hc]

end Date

end Entitlement
