import Entitlement.Proofs.Tally.Daily
import Mathlib.Algebra.Order.BigOperators.Group.List

/-!
What a run has recorded, and what the store shows of it.

The records of a run are read off its operations alone. The store shows of a key the sum of the
records of one account on one day, for a retention from the last of them: an account's counter
for the current day is therefore always there once something was recorded, and is the sum of
the day.
-/

namespace Entitlement.Tally

/-- A count recorded for an account at an instant. -/
structure Deed where
  account : String
  time : Int
  count : Int

def Deed.key (d : Deed) : String := dayKey d.account (dayOf d.time)

/-- What was recorded for an account on a day, in all. -/
def total (ds : List Deed) (account : String) (day : Int) : Int :=
  ((ds.filter fun d => d.account = account ∧ dayOf d.time = day).map Deed.count).sum

/-- What an operation records at an instant: whole counts from one on, for those who have a key. -/
def Op.deeds (now : Int) : Op → List Deed
  | .add owner (.int n) =>
    if 1 ≤ n ∧ owner.writable = true then [⟨owner.display, now, n⟩] else []
  | _ => []

/-- The clock after operations. -/
def clock (start : Int) : List Op → Int
  | [] => start
  | o :: os => clock (start + o.micros) os

/-- What operations record, in order. -/
def recorded (start : Int) : List Op → List Deed
  | [] => []
  | o :: os => o.deeds start ++ recorded (start + o.micros) os

/-- The total of an account after operations, on the day that it then is. -/
def tallied (start : Int) (os : List Op) (account : String) : Int :=
  total (recorded start os) account (dayOf (clock start os))

lemma clock_append (start : Int) (os os' : List Op) :
    clock start (os ++ os') = clock (clock start os) os' := by
  induction os generalizing start with
  | nil => rfl
  | cons o os ih => exact ih _

lemma recorded_append (start : Int) (os os' : List Op) :
    recorded start (os ++ os') = recorded start os ++ recorded (clock start os) os' := by
  induction os generalizing start with
  | nil => rfl
  | cons o os ih => simp only [List.cons_append, recorded, clock, ih, List.append_assoc]

lemma recorded_take_succ (start : Int) {os : List Op} {i : Nat} {o : Op} (h : os[i]? = some o) :
    recorded start (os.take (i + 1)) =
      recorded start (os.take i) ++ o.deeds (clock start (os.take i)) := by
  rw [List.take_add_one, h, Option.toList_some, recorded_append, recorded, recorded,
    List.append_nil]

lemma count_pos_of_mem_deeds {now : Int} {o : Op} {d : Deed} (h : d ∈ o.deeds now) :
    1 ≤ d.count := by
  unfold Op.deeds at h
  split at h
  · split at h
    · next hn =>
      rw [List.mem_singleton] at h
      subst h
      exact hn.1
    · simp at h
  · simp at h

lemma count_pos_of_mem_recorded {start : Int} {os : List Op} {d : Deed}
    (h : d ∈ recorded start os) : 1 ≤ d.count := by
  induction os generalizing start with
  | nil => simp [recorded] at h
  | cons o os ih =>
    rcases List.mem_append.1 h with h | h
    · exact count_pos_of_mem_deeds h
    · exact ih h

/-! ### Totals -/

variable {ds ds' : List Deed} {account : String} {day : Int}

@[simp] lemma total_nil : total [] account day = 0 := rfl

lemma total_append :
    total (ds ++ ds') account day = total ds account day + total ds' account day := by
  simp [total]

lemma total_singleton (d : Deed) : total [d] account day =
    if d.account = account ∧ dayOf d.time = day then d.count else 0 := by
  unfold total
  by_cases h : d.account = account ∧ dayOf d.time = day <;> simp [List.filter, h]

lemma total_nonneg (h : ∀ d ∈ ds, 1 ≤ d.count) (account : String) (day : Int) :
    0 ≤ total ds account day := by
  apply List.sum_nonneg
  intro n hn
  obtain ⟨d, hd, rfl⟩ := List.mem_map.1 hn
  have := h d (List.mem_filter.1 hd).1
  omega

lemma total_le_append (h : ∀ d ∈ ds', 1 ≤ d.count) :
    total ds account day ≤ total (ds ++ ds') account day := by
  have := total_nonneg h account day
  rw [total_append]
  omega

lemma total_le_sum (h : ∀ d ∈ ds, 1 ≤ d.count) :
    total ds account day ≤ (ds.map Deed.count).sum := by
  induction ds with
  | nil => exact le_refl _
  | cons d ds ih =>
    have hd := h d List.mem_cons_self
    have hds := ih fun e he => h e (List.mem_cons_of_mem _ he)
    rw [← List.singleton_append, total_append, total_singleton]
    simp only [List.singleton_append, List.map_cons, List.sum_cons]
    split <;> omega

lemma total_recorded_take_le (start : Int) (os : List Op) (i : Nat) :
    total (recorded start (os.take i)) account day ≤ total (recorded start os) account day := by
  conv_rhs => rw [← List.take_append_drop i os, recorded_append]
  exact total_le_append fun d => count_pos_of_mem_recorded

/-! ### Entries -/

variable {σ : Type} {exec : Backend σ} {view : View σ} {ttl now : Int} {s s' : σ}

/-- The records of one key. -/
def on (key : String) (ds : List Deed) : List Deed := ds.filter fun d => d.key = key

lemma total_eq_sum_on :
    total ds account day = ((on (dayKey account day) ds).map Deed.count).sum := by
  simp only [total, on, Deed.key, dayKey_inj]

/-- What the records of one key leave behind: their sum, expiring a retention after the last. -/
def entryOf (ttl : Int) (ds : List Deed) : Option Entry :=
  ds.getLast?.map fun d =>
    ⟨some (.text (ds.map Deed.count).sum.repr), some ⟨d.time, retention ttl⟩⟩

/-- The store shows what was recorded. -/
structure Holds (view : View σ) (ttl now : Int) (s : σ) (ds : List Deed) : Prop where
  shown : ∀ k, view s now k = (entryOf ttl (on k ds)).filter (Entry.live .untilExpiry now)
  past : ∀ d ∈ ds, d.time ≤ now
  pos : ∀ d ∈ ds, 1 ≤ d.count

lemma Holds.of_empty (hempty : ∀ k, view s now k = none) : Holds view ttl now s [] := by
  refine ⟨fun k => (hempty k).trans rfl, ?_, ?_⟩ <;> simp

lemma Holds.congr (h : Holds view ttl now s ds) (hview : ∀ k, view s' now k = view s now k) :
    Holds view ttl now s' ds :=
  { h with shown := fun k => (hview k).trans (h.shown k) }

lemma Holds.later {now' : Int} (h : Holds view ttl now s ds) (hlaws : Laws exec view)
    (hle : now ≤ now') : Holds view ttl now' s ds := by
  refine ⟨fun k => ?_, fun d hd => (h.past d hd).trans hle, h.pos⟩
  rw [hlaws.later s now now' k hle, h.shown, filter_live_later hle]

/-- A record outlives its day, even if it was made as the day began and is kept for one day. -/
lemma lt_retention_of_dayOf_eq {time : Int} (httl : 1 ≤ ttl) (h : dayOf time = dayOf now) :
    now < time + microsPerDay * ttl := by
  simp only [dayOf, microsPerDay, microsPerSecond, secondsPerDay] at *
  omega

lemma Holds.counts (h : Holds view ttl now s ds) (httl : 1 ≤ ttl) (account : String) :
    Counts (view s now (dayKey account (dayOf now))) (total ds account (dayOf now)) := by
  rw [h.shown, total_eq_sum_on]
  rcases List.eq_nil_or_concat (on (dayKey account (dayOf now)) ds) with hon | ⟨rest, d, hon⟩
  · exact Or.inl (by simp [hon, entryOf])
  · have hmem : d ∈ on (dayKey account (dayOf now)) ds := by simp [hon]
    have hkey : d.key = dayKey account (dayOf now) := by simpa using (List.mem_filter.1 hmem).2
    have hlive := lt_retention_of_dayOf_eq httl (dayKey_inj.1 hkey).2
    refine Or.inr ⟨some ⟨d.time, retention ttl⟩, ?_⟩
    rw [entryOf, hon, List.concat_eq_append, List.getLast?_concat, Option.map_some,
      Option.filter_some, if_pos]
    rw [live_untilExpiry]
    rintro y ⟨⟩
    rwa [due_retention]

lemma Holds.snoc {n : Int} (h : Holds view ttl now s ds) (h1 : 1 ≤ n)
    (hview : ∀ k, view s' now k = if dayKey account (dayOf now) = k then
      (some ⟨some (.text (total ds account (dayOf now) + n).repr),
        some ⟨now, retention ttl⟩⟩).filter (Entry.live .untilExpiry now)
      else view s now k) :
    Holds view ttl now s' (ds ++ [⟨account, now, n⟩]) := by
  refine ⟨fun k => ?_, ?_, ?_⟩
  · rw [hview]
    -- the entry is that of the last record of its key, other keys have no new record
    by_cases hk : dayKey account (dayOf now) = k
    · have hon : on k (ds ++ [⟨account, now, n⟩]) = on k ds ++ [⟨account, now, n⟩] := by
        simp [on, Deed.key, hk]
      rw [if_pos hk, hon, entryOf, List.getLast?_concat, Option.map_some, total_eq_sum_on, hk,
        List.map_append, List.sum_append, List.map_singleton, List.sum_singleton]
    · have hon : on k (ds ++ [⟨account, now, n⟩]) = on k ds := by simp [on, Deed.key, hk]
      rw [if_neg hk, hon, h.shown]
  · intro d hd
    rcases List.mem_append.1 hd with hd | hd
    · exact h.past d hd
    · obtain rfl := List.mem_singleton.1 hd
      exact le_refl _
  · intro d hd
    rcases List.mem_append.1 hd with hd | hd
    · exact h.pos d hd
    · obtain rfl := List.mem_singleton.1 hd
      exact h1

end Entitlement.Tally
