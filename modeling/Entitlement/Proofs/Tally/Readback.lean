import Entitlement.Proofs.Settings
import Entitlement.Proofs.Tally.Daily
import Entitlement.Proofs.Tally.Store

/-!
What was just added, read back at once.

The expiry that an addition sets counts from the instant of the addition. Kept for a day or more,
the counter is still there; kept for no day at all, it is gone with the addition itself, and the
day counts as empty. The settings let any integer through.
-/

namespace Entitlement.Tally

open Value (fieldsWritable)

variable {σ : Type} {exec : Backend σ} {view : View σ} {ttl n t : Int} {owner : Value}
  {w w' : World σ}

/-- After an addition the store shows its total for as long as the expiry is not reached. -/
lemma Laws.counts_after_add (h : Laws exec view)
    (hadd : add exec ttl owner (.int n) w = (.ok t, w')) :
    w'.now = w.now ∧ owner.writable = true ∧ inInt64 t ∧
      Counts (view w'.store w'.now (keyAt owner w'.now)) (if 1 ≤ ttl then t else 0) := by
  obtain ⟨m, n', rfl, hraises⟩ := h.raises_of_ok (congrArg Prod.fst hadd)
  have hnow := add_now exec ttl owner (.int n) w
  rw [hadd] at hraises hnow
  refine ⟨hnow, hraises.writable, hraises.sum_fits, ?_⟩
  rw [hnow, hraises.after, if_pos rfl, Option.filter_some]
  by_cases httl : 1 ≤ ttl
  · rw [if_pos httl, if_pos (live_retention_iff.2 httl)]
    exact Or.inr ⟨_, rfl⟩
  · rw [if_neg httl, if_neg fun hlive => httl (live_retention_iff.1 hlive)]
    exact Or.inl ⟨rfl, rfl⟩

lemma Serves.reading_after_add (h : Serves exec view ttl)
    (hadd : add exec ttl owner (.int n) w = (.ok t, w')) :
    (reading exec owner w'.now w'.store).1 = .ok (if 1 ≤ ttl then t else 0) := by
  obtain ⟨-, howner, ht, hcounts⟩ := h.counts_after_add hadd
  refine h.reading_of_counts howner hcounts ?_
  split
  · exact ht
  · decide

/-- **Reading back**: after an addition that answered a total, a reading at the same instant
answers that total if counters are kept for a day or more, and zero otherwise: it agrees exactly
for those settings, or if the total is zero. Assessments are made on what a reading answers. -/
theorem readback (s : Settings) (hserves : Serves exec view s.ttlDays)
    (hadd : add exec s.ttlDays owner (.int n) w = (.ok t, w')) :
    (today exec owner w').1 = .ok (if 1 ≤ s.ttlDays then t else 0) ∧
      ((today exec owner w').1 = .ok t ↔ 1 ≤ s.ttlDays ∨ t = 0) ∧
      (fieldsWritable w.log.context = true → ∀ plan p, Plan.ofValue plan = .ok p →
        (assess exec owner plan w').1 = Tables.shipped.assess plan (.limit .scansPerDay)
          (.int (if 1 ≤ s.ttlDays then t else 0))) := by
  have hreading := hserves.reading_after_add hadd
  have hcontext : w'.log.context = w.log.context := by
    have hsame := add_context exec s.ttlDays owner (.int n) w
    rwa [hadd] at hsame
  rw [today_of_reading, hreading]
  refine ⟨rfl, ?_, fun hlog plan p hp => ?_⟩
  · rw [Except.ok.injEq]
    by_cases httl : 1 ≤ s.ttlDays
    · rw [if_pos httl]
      exact iff_of_true rfl (Or.inl httl)
    · rw [if_neg httl]
      constructor
      · intro h
        exact Or.inr h.symm
      · rintro (h | h)
        · exact absurd h httl
        · exact h.symm
  · exact assess_of_reading (by rw [hcontext, hlog]) hp hreading

/-! ### The first count of a store -/

lemma Serves.add_of_empty (h : Serves exec view ttl) (hlog : fieldsWritable w.log.context = true)
    (howner : owner.writable = true) (h1 : 1 ≤ n) (hn : inInt64 n)
    (hempty : ∀ k, view w.store w.now k = none) :
    ∃ w', add exec ttl owner (.int n) w = (.ok n, w') := by
  have hm : counterIn (view w.store w.now (keyAt owner w.now)) = some 0 := by
    rw [hempty]
    rfl
  have hraises := h.raises hlog h1 howner hm hn (by rwa [Int.zero_add])
  have hans := hraises.answer
  rw [Int.zero_add] at hans
  exact ⟨_, Prod.ext hans rfl⟩

theorem first_count_read_back : ∃ s w',
    Settings.load ⟨[("usage_key_ttl_days", .int 7)], [], none⟩ = .ok s ∧
      add expiring s.ttlDays (.text "ada") (.int 5) ⟨1709985600000000, [], Log.fresh⟩ =
        (.ok 5, w') ∧
      (today expiring (.text "ada") w').1 = .ok 5 ∧
      (assess expiring (.text "ada") (.plan .starter) w').1 =
        Tables.shipped.assess (.plan .starter) (.limit .scansPerDay) (.int 5) := by
  obtain ⟨s, hload, hdays⟩ := Settings.load_ttlDays 7
  have hserves := serves_expiring s.ttlDays
  obtain ⟨w', hadd⟩ :
      ∃ w', add expiring s.ttlDays (.text "ada") (.int 5) ⟨1709985600000000, [], Log.fresh⟩ =
        (.ok 5, w') :=
    hserves.add_of_empty rfl rfl (by decide) (by decide) fun _ => rfl
  obtain ⟨htoday, -, hassess⟩ := readback s hserves hadd
  have hweek : 1 ≤ s.ttlDays := by omega
  rw [if_pos hweek] at htoday hassess
  exact ⟨s, w', hload, hadd, htoday, hassess rfl (.plan .starter) .starter (Plan.ofValue_plan _)⟩

/-- Kept for no day, a first count is gone at once, and nothing tells of it. -/
theorem first_count_forgotten : ∃ s w',
    Settings.load ⟨[("usage_key_ttl_days", .int 0)], [], none⟩ = .ok s ∧
      add expiring s.ttlDays (.text "ada") (.int 5) ⟨1709985600000000, [], Log.fresh⟩ =
        (.ok 5, w') ∧
      (today expiring (.text "ada") w').1 = .ok 0 := by
  obtain ⟨s, hload, hdays⟩ := Settings.load_ttlDays 0
  have hserves := serves_expiring s.ttlDays
  obtain ⟨w', hadd⟩ :
      ∃ w', add expiring s.ttlDays (.text "ada") (.int 5) ⟨1709985600000000, [], Log.fresh⟩ =
        (.ok 5, w') :=
    hserves.add_of_empty rfl rfl (by decide) (by decide) fun _ => rfl
  have hreading := hserves.reading_after_add hadd
  rw [hdays, if_neg (by decide)] at hreading
  exact ⟨s, w', hload, hadd, (today_of_reading expiring _ w').trans hreading⟩

end Entitlement.Tally
