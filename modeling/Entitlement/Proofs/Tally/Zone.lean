import Entitlement.Proofs.Calendar.Gregorian
import Entitlement.Proofs.Tally.Daily
import Entitlement.Proofs.Tally.Store

/-!
Keys of times on clocks that are not those of UTC.

The date of a key is the one that the clock shows. Operations go by the date of UTC, so their key at
an instant is the key of a time there only if the clock is in the same day as UTC; else it is ahead
of UTC or behind it by a day. No clock but one of UTC itself is in the same day all the time.
-/

namespace Entitlement

/-- A time as a clock with a known offset shows it, to the microsecond. -/
structure Zoned where
  date : Date
  hour : Fin 24
  minute : Fin 60
  second : Fin 60
  micro : Fin 1000000
  /-- How far the clock is ahead of UTC, in microseconds. -/
  offset : Int
  onCalendar : date.OnCalendar
  abs_offset_lt : |offset| < microsPerDay

namespace Zoned

def shown (z : Zoned) : Timestamp := ⟨z.date, z.hour, z.minute, z.second, some z.offset⟩

def sinceMidnight (z : Zoned) : Int :=
  (3600 * z.hour.val + 60 * z.minute.val + z.second.val) * 1000000 + z.micro.val

def instant (z : Zoned) : Int := z.date.toDay * microsPerDay + z.sinceMidnight - z.offset

/-- By how many days the clock is ahead of UTC. -/
def daysAhead (z : Zoned) : Int :=
  if z.sinceMidnight < z.offset then 1
  else if z.sinceMidnight < z.offset + microsPerDay then 0
  else -1

variable {z z' : Zoned} {o : Int}

lemma sinceMidnight_bounds (z : Zoned) : 0 ≤ z.sinceMidnight ∧ z.sinceMidnight < microsPerDay := by
  have hhour := z.hour.isLt
  have hminute := z.minute.isLt
  have hsecond := z.second.isLt
  have hmicro := z.micro.isLt
  unfold sinceMidnight microsPerDay microsPerSecond secondsPerDay
  omega

lemma toDay_date (z : Zoned) : z.date.toDay = dayOf z.instant + z.daysAhead := by
  obtain ⟨h0, h1⟩ := z.sinceMidnight_bounds
  obtain ⟨hlow, hhigh⟩ := abs_lt.1 z.abs_offset_lt
  unfold dayOf instant daysAhead
  unfold microsPerDay microsPerSecond secondsPerDay at *
  split_ifs <;> omega

def utcDate (z : Zoned) : Date := Date.ofDay (dayOf z.instant)

lemma onCalendar_utcDate (z : Zoned) : z.utcDate.OnCalendar := Date.onCalendar_ofDay _

lemma toDay_utcDate (z : Zoned) : z.utcDate.toDay = z.date.toDay - z.daysAhead := by
  rw [utcDate, Date.toDay_ofDay, z.toDay_date, Int.add_sub_cancel]

lemma date_eq_utcDate_iff (z : Zoned) : z.date = z.utcDate ↔ z.daysAhead = 0 := by
  rw [z.onCalendar.eq_iff z.onCalendar_utcDate, toDay_utcDate]
  omega

lemma date_eq_next_utcDate_iff (z : Zoned) : z.date = z.utcDate.next ↔ z.daysAhead = 1 := by
  rw [z.onCalendar.eq_iff z.onCalendar_utcDate.next, Date.toDay_next z.onCalendar_utcDate,
    toDay_utcDate]
  omega

lemma next_date_eq_utcDate_iff (z : Zoned) : z.date.next = z.utcDate ↔ z.daysAhead = -1 := by
  rw [z.onCalendar.next.eq_iff z.onCalendar_utcDate, Date.toDay_next z.onCalendar, toDay_utcDate]
  omega

lemma date_eq_iff (h : z.instant = z'.instant) :
    z.date = z'.date ↔ z.daysAhead = z'.daysAhead := by
  rw [z.onCalendar.eq_iff z'.onCalendar, z.toDay_date, z'.toDay_date, h]
  omega

lemma daysAhead_eq_zero (h : z.offset = 0) : z.daysAhead = 0 := by
  obtain ⟨h0, h1⟩ := z.sinceMidnight_bounds
  unfold daysAhead
  split_ifs <;> omega

/-- A clock that is not one of UTC is ahead of it at midnight or behind it just before. -/
lemma exists_daysAhead_ne_zero (ho : |o| < microsPerDay) (h : o ≠ 0) :
    ∃ z : Zoned, z.offset = o ∧ z.daysAhead ≠ 0 := by
  have hdate := Date.onCalendar_ofDay 0
  rcases lt_or_gt_of_ne h with hneg | hpos
  · refine ⟨⟨_, Fin.last 23, Fin.last 59, Fin.last 59, Fin.last 999999, o, hdate, ho⟩, rfl, ?_⟩
    simp only [daysAhead, sinceMidnight, Fin.val_last, microsPerDay, microsPerSecond,
      secondsPerDay]
    split_ifs <;> omega
  · refine ⟨⟨_, 0, 0, 0, 0, o, hdate, ho⟩, rfl, ?_⟩
    simp only [daysAhead, sinceMidnight, Fin.val_zero, microsPerDay, microsPerSecond,
      secondsPerDay]
    split_ifs <;> omega

end Zoned

namespace Tally

variable {σ : Type} {owner count : Value} {now ttl n : Int} {k : String} {z z' : Zoned}

/-! ### The key that operations use -/

/-- A store that notes the commands given to it. -/
def noting (exec : Backend σ) : Backend (List Command × σ) := fun now c s =>
  ((exec now c s.2).1, s.1 ++ [c], (exec now c s.2).2)

/-- The key that the commands for an owner name at an instant, whatever the store answers. -/
structure KeyInUse (owner : Value) (now : Int) (k : String) : Prop where
  adding (σ : Type) (exec : Backend σ) (ttl : Int) (count : Value) (s : σ) (log : Log) :
    (add (noting exec) ttl owner count ⟨now, ([], s), log⟩).2.store.1 <+:
      [.increment k count, .expire k (retention ttl)]
  begun (σ : Type) (exec : Backend σ) (ttl n : Int) (s : σ) (log : Log) :
    1 ≤ n → (add (noting exec) ttl owner (.int n) ⟨now, ([], s), log⟩).2.store.1 ≠ []
  reading (σ : Type) (exec : Backend σ) (s : σ) (log : Log) :
    (today (noting exec) owner ⟨now, ([], s), log⟩).2.store.1 = [.read k]

lemma snd_noting {exec : Backend σ} {c : Command} {s s' : List Command × σ}
    {r : Except StoreError Value} (h : noting exec now c s = (r, s')) : s'.1 = s.1 ++ [c] :=
  (congrArg (·.2.1) h).symm

lemma commands_add (exec : Backend σ) (s : σ) (log : Log) :
    (add (noting exec) ttl owner count ⟨now, ([], s), log⟩).2.store.1 <+:
      [.increment (keyAt owner now) count, .expire (keyAt owner now) (retention ttl)] := by
  obtain ⟨x, hadds, hx⟩ := add_effect (noting exec) ttl owner count now ([], s)
  rw [hx]
  cases hadds with
  | refused e => exact List.nil_prefix
  | uncounted hinc =>
    rw [Effect.at, snd_noting hinc]
    exact ⟨_, rfl⟩
  -- the increment was sent, whatever came of it
  | unexpiring hinc hexp =>
    rw [Effect.at, snd_noting hexp, snd_noting hinc]
    exact List.prefix_rfl
  | added _ _ _ hinc hexp =>
    rw [Effect.at, snd_noting hexp, snd_noting hinc]
    exact List.prefix_rfl

lemma commands_today (exec : Backend σ) (s : σ) (log : Log) (howner : owner.writable = true) :
    (today (noting exec) owner ⟨now, ([], s), log⟩).2.store.1 = [.read (keyAt owner now)] := by
  rw [today_eq, reading, if_pos howner]
  rcases hrun : noting exec now (.read (keyAt owner now)) ([], s) with ⟨e | v, s'⟩ <;>
    exact snd_noting hrun

lemma commands_add_ne_nil (exec : Backend σ) (s : σ) (log : Log) (howner : owner.writable = true)
    (h1 : 1 ≤ n) :
    (add (noting exec) ttl owner (.int n) ⟨now, ([], s), log⟩).2.store.1 ≠ [] := by
  obtain ⟨x, hadds, hx⟩ := add_effect (noting exec) ttl owner (.int n) now ([], s)
  rw [hx]
  cases hadds with
  | refused e hwhy =>
    rcases hwhy _ rfl with hlt | hunwritable
    · exact absurd (ltInt_one_iff.2 h1) (by simp [hlt])
    · exact absurd howner (by simp [hunwritable])
  | uncounted hinc =>
    rw [Effect.at, snd_noting hinc]
    exact List.cons_ne_nil _ _
  | unexpiring hinc hexp =>
    rw [Effect.at, snd_noting hexp, snd_noting hinc]
    exact List.cons_ne_nil _ _
  | added _ _ _ hinc hexp =>
    rw [Effect.at, snd_noting hexp, snd_noting hinc]
    exact List.cons_ne_nil _ _

lemma keyInUse_iff (howner : owner.writable = true) :
    KeyInUse owner now k ↔ k = keyAt owner now := by
  constructor
  · intro h
    have hread := h.reading Store expiring [] Log.fresh
    rw [commands_today expiring [] Log.fresh howner] at hread
    simpa using hread.symm
  · rintro rfl
    exact ⟨fun _ exec _ _ s log => commands_add exec s log,
      fun _ exec _ _ s log => commands_add_ne_nil exec s log howner,
      fun _ exec s log => commands_today exec s log howner⟩

/-! ### Keys of times -/

lemma key_shown (owner : Value) (z : Zoned) :
    key owner z.shown = dayKey owner.display (dayOf z.instant + z.daysAhead) := by
  rw [dayKey, ← z.toDay_date, Date.ofDay_toDay z.onCalendar]
  rfl

lemma key_shown_eq_iff : key owner z.shown = key owner z'.shown ↔ z.date = z'.date :=
  key_eq_iff.trans (and_iff_right rfl)

lemma keyInUse_shown_iff (howner : owner.writable = true) (z : Zoned) :
    KeyInUse owner z.instant (key owner z.shown) ↔ z.daysAhead = 0 := by
  rw [keyInUse_iff howner, ← z.date_eq_utcDate_iff]
  exact key_eq_iff.trans (and_iff_right rfl)

/-- **The day of a key** is the one on the clock of its time. The key is in use at that instant, and
its date the one in UTC, exactly if the clock is not a day ahead of UTC or behind it; the clock has
the date after that of UTC if it is ahead, and the one before if it is behind. Times at one instant
have the same key exactly if their clocks are as many days ahead. Of all offsets only that of UTC
gives the key in use at any time. -/
theorem zoned_key (owner : Value) (howner : owner.writable = true) :
    (∀ z : Zoned, key owner z.shown = dayKey owner.display (dayOf z.instant + z.daysAhead) ∧
        (KeyInUse owner z.instant (key owner z.shown) ↔ z.daysAhead = 0) ∧
        (z.date = z.utcDate ↔ z.daysAhead = 0) ∧ (z.date = z.utcDate.next ↔ z.daysAhead = 1) ∧
        (z.date.next = z.utcDate ↔ z.daysAhead = -1)) ∧
      (∀ z z' : Zoned, z.instant = z'.instant →
        (key owner z.shown = key owner z'.shown ↔ z.daysAhead = z'.daysAhead)) ∧
      ∀ o, |o| < microsPerDay →
        ((∀ z : Zoned, z.offset = o → KeyInUse owner z.instant (key owner z.shown)) ↔ o = 0) := by
  refine ⟨fun z => ⟨key_shown owner z, keyInUse_shown_iff howner z, z.date_eq_utcDate_iff,
    z.date_eq_next_utcDate_iff, z.next_date_eq_utcDate_iff⟩, fun z z' h => ?_,
    fun o ho => ⟨fun h => ?_, ?_⟩⟩
  · rw [key_shown_eq_iff, Zoned.date_eq_iff h]
  -- any other clock is in another day than UTC at some time
  · by_contra hne
    obtain ⟨z, hz, hahead⟩ := Zoned.exists_daysAhead_ne_zero ho hne
    exact hahead ((keyInUse_shown_iff howner z).1 (h z hz))
  · rintro rfl z hz
    exact (keyInUse_shown_iff howner z).2 (Zoned.daysAhead_eq_zero hz)

/-- An instant that a clock behind UTC shows on a leap day and one ahead of UTC on the day after, as
it is in UTC. The second gives the key in use, the first does not. -/
theorem leap_day_an_hour_behind :
    let z : Zoned := ⟨⟨2024, 2, 29⟩, 23, 30, 0, 0, -3600000000, by decide, by decide⟩
    let z' : Zoned := ⟨⟨2024, 3, 1⟩, 6, 15, 0, 0, 20700000000, by decide, by decide⟩
    let owner := Value.text "ada"
    z.instant = z'.instant ∧ key owner z.shown ≠ key owner z'.shown ∧
      KeyInUse owner z'.instant (key owner z'.shown) ∧
      ¬ KeyInUse owner z.instant (key owner z.shown) ∧
      ∃ t : Zoned, t.offset = z'.offset ∧ ¬ KeyInUse owner t.instant (key owner t.shown) := by
  intro z z' owner
  obtain ⟨hkey, hsame, hoffset⟩ := zoned_key owner rfl
  have hinstant : z.instant = z'.instant := by decide
  have hbehind : z.daysAhead = -1 := by decide
  have hlevel : z'.daysAhead = 0 := by decide
  refine ⟨hinstant, fun h => ?_, (hkey z').2.1.2 hlevel, fun h => ?_, ?_⟩
  · have hequal := (hsame z z' hinstant).1 h
    omega
  · have hzero := (hkey z).2.1.1 h
    omega
  · by_contra! hall
    have hzero := (hoffset z'.offset z'.abs_offset_lt).1 hall
    exact absurd hzero (by decide)

/-- Half past midnight two hours ahead of UTC is on the day before in UTC, whose key is in use
then. -/
theorem morning_two_hours_ahead :
    let z : Zoned := ⟨⟨2024, 3, 10⟩, 0, 30, 0, 0, 7200000000, by decide, by decide⟩
    let z' : Zoned := ⟨⟨2024, 3, 9⟩, 22, 30, 0, 0, 0, by decide, by decide⟩
    let owner := Value.text "owner-1"
    z.utcDate = ⟨2024, 3, 9⟩ ∧ key owner z.shown = "usage:owner-1:2024-03-10" ∧
      keyAt owner z.instant = "usage:owner-1:2024-03-09" ∧
      ¬ KeyInUse owner z.instant (key owner z.shown) ∧
      z.instant = z'.instant ∧ key owner z.shown ≠ key owner z'.shown := by
  intro z z' owner
  have hahead : z.daysAhead = 1 := by decide
  refine ⟨by decide +kernel, by decide, by decide, fun h => ?_, by decide, by decide⟩
  have hwritable : owner.writable = true := rfl
  have hzero := (keyInUse_shown_iff hwritable z).1 h
  omega

end Tally

end Entitlement
