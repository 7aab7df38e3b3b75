import Entitlement.Proofs.Calendar
import Entitlement.Tally.Daily

/-!
Keys of counters tell owners and days apart.

The owner stands in a key as it is, whatever it holds; but no date holds a colon, so the last
colon of a key is the one in front of the date.
-/

namespace Entitlement.Tally

def dayKey (account : String) (day : Int) : String :=
  "usage:" ++ account ++ ":" ++ (Date.ofDay day).text

lemma keyAt_eq (owner : Value) (now : Int) : keyAt owner now = dayKey owner.display (dayOf now) :=
  rfl

lemma toList_key (owner : Value) (t : Timestamp) : (key owner t).toList =
    ("usage:".toList ++ owner.display.toList) ++ ':' :: t.date.text.toList := by
  simp [key, String.toList_append]

/-- Two keys are the same only for the same owner and the same date. -/
theorem key_eq_iff {owner owner' : Value} {t t' : Timestamp} :
    key owner t = key owner' t' ↔ owner.display = owner'.display ∧ t.date = t'.date := by
  constructor
  · intro h
    have hlist := congrArg String.toList h
    rw [toList_key, toList_key] at hlist
    obtain ⟨hfront, hdate⟩ := append_cons_inj_of_not_mem
      (Date.not_mem_text (by decide) (by decide) _) (Date.not_mem_text (by decide) (by decide) _)
      hlist
    exact ⟨String.toList_inj.1 (List.append_cancel_left hfront),
      Date.text_injective (String.toList_inj.1 hdate)⟩
  · rintro ⟨howner, hdate⟩
    simp only [key, howner, hdate]

theorem dayKey_inj {account account' : String} {day day' : Int} :
    dayKey account day = dayKey account' day' ↔ account = account' ∧ day = day' := by
  have h : dayKey account day = dayKey account' day' ↔
      account = account' ∧ Date.ofDay day = Date.ofDay day' :=
    @key_eq_iff (.text account) (.text account') ⟨Date.ofDay day, 0, 0, 0, none⟩
      ⟨Date.ofDay day', 0, 0, 0, none⟩
  rwa [Date.ofDay_injective.eq_iff] at h

/-- **Keys are unambiguous**, whatever the owners' texts hold: two keys are the same exactly when
owner, year, month and day are, so at two instants owners have the same counter exactly when they
are one owner and the instants lie on one day. -/
theorem key_unambiguous (owner owner' : String) :
    (∀ t t' : Timestamp, key (.text owner) t = key (.text owner') t' ↔
      owner = owner' ∧ t.date.year = t'.date.year ∧ t.date.month = t'.date.month ∧
        t.date.day = t'.date.day) ∧
      ∀ now now' : Int, keyAt (.text owner) now = keyAt (.text owner') now' ↔
        owner = owner' ∧ dayOf now = dayOf now' := by
  constructor
  · intro t t'
    have hkey : key (.text owner) t = key (.text owner') t' ↔
        owner = owner' ∧ t.date = t'.date := key_eq_iff
    rw [hkey, ← Date.mk.injEq]
  · intro now now'
    simp only [keyAt_eq]
    exact dayKey_inj

/-- A key that begins with the whole key of another owner. -/
example : key (.text "a:2024-01-02") ⟨⟨2024, 1, 3⟩, 0, 0, 0, none⟩ ≠
    key (.text "a") ⟨⟨2024, 1, 2⟩, 0, 0, 0, none⟩ := by decide

end Entitlement.Tally
