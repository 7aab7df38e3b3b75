import Entitlement.Proofs.Tally.Effect
import Entitlement.Proofs.Tally.Key
import Entitlement.Proofs.Tally.Laws

/-!
Operations on daily counts over a store that keeps the laws, one description for each.

Adding either raises the counter of the day by the count and renews its expiry, or is refused and
changes nothing that the store shows. Reading and assessing change nothing.
-/

namespace Entitlement.Tally

open Value (fieldsWritable)

variable {σ : Type} {exec : Backend σ} {view : View σ} {ttl m n : Int} {owner count plan : Value}
  {w : World σ}

/-! ### Adding -/

/-- An addition that comes about: what it found, and what it answers and leaves. -/
structure Raises (view : View σ) (ttl : Int) (owner count : Value) (w : World σ)
    (out : Except Error Int × World σ) (m n : Int) : Prop where
  count_eq : count = .int n
  pos : 1 ≤ n
  writable : owner.writable = true
  before : counterIn (view w.store w.now (keyAt owner w.now)) = some m
  fits : inInt64 n
  sum_fits : inInt64 (m + n)
  answer : out.1 = .ok (m + n)
  after : ∀ k, view out.2.store w.now k =
    if keyAt owner w.now = k then
      (some ⟨some (.text (m + n).repr), some ⟨w.now, retention ttl⟩⟩).filter
        (Entry.live .untilExpiry w.now)
    else view w.store w.now k

lemma ltInt_one_iff : (Number.int n).ltInt 1 = false ↔ 1 ≤ n := by
  rw [← Bool.not_eq_true, ltInt_int, not_lt]

lemma writable_of_inInt64 (h : inInt64 n) : (Number.int n).writable = true := by
  rw [inInt64_iff, int64Min, int64Max] at h
  have hlt : n.natAbs < 2 ^ 64 := by omega
  have hle : 2 ^ 64 ≤ 10 ^ Decimal.maxDigits :=
    (by decide : 2 ^ 64 ≤ 10 ^ 20).trans (Nat.pow_le_pow_right (by decide) (by decide))
  exact Whole.writable_int_iff.2 (hlt.trans_le hle)

lemma Laws.view_added (h : Laws exec view) {s s' s'' : σ} {now : Int} {key : String}
    {total v : Value} (hinc : exec now (.increment key count) s = (.ok total, s'))
    (hexp : exec now (.expire key (retention ttl)) s' = (.ok v, s'')) :
    ∃ m n, count = .int n ∧ total = .int (m + n) ∧ counterIn (view s now key) = some m ∧
      inInt64 n ∧ inInt64 (m + n) ∧ ∀ k, view s'' now k =
        if key = k then
          (some ⟨some (.text (m + n).repr), some ⟨now, retention ttl⟩⟩).filter
            (Entry.live .untilExpiry now)
        else view s now k := by
  obtain ⟨m, n, hcount, htotal, hm, hn, hsum, hafter⟩ := h.increment _ _ _ _ _ _ hinc
  refine ⟨m, n, hcount, htotal, hm, hn, hsum, fun k => ?_⟩
  have hother := h.other now (.increment key count) s k
  have hother' := h.other now (.expire key (retention ttl)) s' k
  rw [hinc] at hother
  rw [hexp] at hother'
  -- other keys are looked at by neither command
  split_ifs with hk
  · rw [← hk, h.expire _ _ _ _ _ _ hexp, hafter, Option.map_some]
  · rw [hother' hk, hother hk]

theorem Laws.raises_of_ok (h : Laws exec view) {t : Int}
    (hadd : (add exec ttl owner count w).1 = .ok t) :
    ∃ m n, t = m + n ∧ Raises view ttl owner count w (add exec ttl owner count w) m n := by
  obtain ⟨now, s, log⟩ := w
  obtain ⟨x, hadds, hx⟩ := add_effect exec ttl owner count now s
  rw [hx] at hadd ⊢
  cases hadds with
  | refused => cases hadd
  | uncounted => cases hadd
  | unexpiring => cases hadd
  | added hcount h1 howner hinc hexp =>
    obtain ⟨m, n, rfl, rfl, hm, hn, hsum, hafter⟩ := h.view_added hinc hexp
    obtain rfl := Value.number.inj hcount
    dsimp only [Effect.at] at hadd ⊢
    split at hadd
    · next htakes =>
      cases hadd
      exact ⟨m, n, rfl, rfl, ltInt_one_iff.1 h1, howner, hm, hn, hsum, if_pos htakes, hafter⟩
    · cases hadd

/-- **Adding**: an addition raises its key, or answers an error and changes nothing; and what fits
is refused only if the store refuses its increment. -/
theorem Expires.add_cases (h : Expires exec view ttl)
    (hlog : fieldsWritable w.log.context = true) (owner count : Value) :
    (∃ m n, Raises view ttl owner count w (add exec ttl owner count w) m n) ∨
      (∃ e, (add exec ttl owner count w).1 = .error e) ∧
        (∀ k, view (add exec ttl owner count w).2.store w.now k = view w.store w.now k) ∧
        ∀ n, count = .int n → 1 ≤ n → owner.writable = true →
          ¬ Answers exec w.now (.increment (keyAt owner w.now) count) w.store := by
  obtain ⟨now, s, log⟩ := w
  obtain ⟨x, hadds, hx⟩ := add_effect exec ttl owner count now s
  rw [hx]
  dsimp only at hlog ⊢
  cases hadds with
  | refused e hwhy =>
    refine Or.inr ⟨⟨e, rfl⟩, fun k => rfl, fun n hn h1 howner => ?_⟩
    rcases hwhy _ hn with hlt | hunwritable
    · exact absurd (ltInt_one_iff.2 h1) (by simp [hlt])
    · exact absurd howner (by simp [hunwritable])
  | uncounted hinc =>
    refine Or.inr ⟨⟨_, rfl⟩, h.refused _ _ _ _ _ hinc, fun n hn h1 howner hanswers => ?_⟩
    obtain ⟨v, s', hok⟩ := hanswers
    exact absurd (congrArg Prod.fst (hinc.symm.trans hok)) (by simp)
  | unexpiring hinc hexp =>
    obtain ⟨v, s', hok⟩ := h.kept now (keyAt owner now) _
    exact absurd (congrArg Prod.fst (hexp.symm.trans hok)) (by simp)
  | added hcount h1 howner hinc hexp =>
    obtain ⟨m, n, rfl, rfl, hm, hn, hsum, hafter⟩ := h.view_added hinc hexp
    obtain rfl := Value.number.inj hcount
    -- what the laws let through can be written out, so the log takes the note
    have htakes : log.takes (some (addedNote owner (.int n) (.int (m + n)))) = true :=
      Log.takes_of_writable fun x hx => by
        obtain rfl := Option.some.inj hx
        exact writable_addedNote hlog howner (writable_of_inInt64 hn) (writable_of_inInt64 hsum)
    refine Or.inl ⟨m, n, rfl, ltInt_one_iff.1 h1, howner, hm, hn, hsum, ?_, hafter⟩
    rw [Effect.at, htakes]
    rfl

/-- An addition that fits comes about on a store that serves. -/
theorem Serves.raises (h : Serves exec view ttl) (hlog : fieldsWritable w.log.context = true)
    (h1 : 1 ≤ n) (howner : owner.writable = true)
    (hm : counterIn (view w.store w.now (keyAt owner w.now)) = some m) (hn : inInt64 n)
    (hsum : inInt64 (m + n)) :
    Raises view ttl owner (.int n) w (add exec ttl owner (.int n) w) m n := by
  rcases h.add_cases hlog owner (.int n) with ⟨m', n', hraises⟩ | ⟨-, -, hrefused⟩
  · obtain rfl : n = n' := by simpa using hraises.count_eq
    obtain rfl : m = m' := Option.some.inj (hm.symm.trans hraises.before)
    exact hraises
  · exact absurd (h.counted _ _ _ _ _ hm hn hsum) (hrefused n rfl h1 howner)

lemma add_now (exec : Backend σ) (ttl : Int) (owner count : Value) (w : World σ) :
    (add exec ttl owner count w).2.now = w.now :=
  (step_now exec ttl w (.add owner count)).trans (Int.add_zero _)

lemma add_context (exec : Backend σ) (ttl : Int) (owner count : Value) (w : World σ) :
    (add exec ttl owner count w).2.log.context = w.log.context :=
  step_context exec ttl w (.add owner count)

/-! ### Reading -/

lemma Laws.view_reading (h : Laws exec view) (owner : Value) (now : Int) (s : σ) (k : String) :
    view (reading exec owner now s).2 now k = view s now k := by
  have hread := h.view_read now (keyAt owner now) k s
  unfold reading
  by_cases howner : owner.writable = true
  · simp only [howner, if_true]
    rcases hrun : exec now (.read (keyAt owner now)) s with ⟨e | v, s'⟩ <;>
      (rw [hrun] at hread; exact hread)
  · simp only [howner, if_false, Bool.false_eq_true]

theorem Serves.reading_of_counts (h : Serves exec view ttl) (howner : owner.writable = true)
    {now : Int} {s : σ} (hcounts : Counts (view s now (keyAt owner now)) m) (hm : inInt64 m) :
    (reading exec owner now s).1 = .ok m := by
  obtain ⟨v, s', hread⟩ := h.told now (keyAt owner now) s
  have hv := (h.read _ _ _ _ _ hread).1
  rw [reading, if_pos howner, hread]
  rcases hcounts with ⟨hnone, rfl⟩ | ⟨x, hsome⟩
  · rw [hnone] at hv
    subst hv
    rfl
  · rw [hsome] at hv
    subst hv
    simp [truthy_repr, toInteger_repr hm]

lemma today_of_reading (exec : Backend σ) (owner : Value) (w : World σ) :
    (today exec owner w).1 = (reading exec owner w.now w.store).1 :=
  congrArg Prod.fst (today_eq exec owner w.now w.store w.log)

lemma today_view (h : Laws exec view) (owner : Value) (w : World σ) (k : String) :
    view (today exec owner w).2.store w.now k = view w.store w.now k := by
  obtain ⟨now, s, log⟩ := w
  rw [today_eq]
  exact h.view_reading owner now s k

/-! ### Assessing -/

lemma assess_congr {t : Tables} {plan' limit used : Value}
    (h : Plan.ofValue plan = Plan.ofValue plan') :
    t.assess plan limit used = t.assess plan' limit used := by
  have hcap (l : Limit) : t.limitOf plan (.limit l) = t.limitOf plan' (.limit l) := by
    simp only [Tables.limitOf, Tables.limitsOf, h]
  simp only [Tables.assess, hcap]

lemma found_eq {p : Plan} (hp : Plan.ofValue plan = .ok p) (n : Int) :
    found p (.ok n) = Tables.shipped.assess plan (.limit .scansPerDay) (.int n) := by
  rw [found_ok]
  exact assess_congr ((Plan.ofValue_plan p).trans hp.symm)

lemma assess_view (h : Laws exec view) (owner plan : Value) (w : World σ) (k : String) :
    view (assess exec owner plan w).2.store w.now k = view w.store w.now k := by
  obtain ⟨now, s, log⟩ := w
  cases hp : Plan.ofValue plan with
  | error e => simp only [assess, hp]
  | ok p =>
    rw [assess_eq exec owner now s hp]
    exact h.view_reading owner now s k

lemma Laws.view_step (h : Laws exec view) (ttl : Int) (w : World σ) {o : Op}
    (ho : ∀ owner count, o ≠ .add owner count) (k : String) :
    view (step exec ttl w o).2.store w.now k = view w.store w.now k := by
  cases o with
  | add owner count => exact absurd rfl (ho owner count)
  | today owner => exact today_view h owner w k
  | assess owner plan => exact assess_view h owner plan w k
  | wait micros => rfl

theorem assess_of_reading (hlog : fieldsWritable w.log.context = true) {p : Plan}
    (hp : Plan.ofValue plan = .ok p) (hr : (reading exec owner w.now w.store).1 = .ok n) :
    (assess exec owner plan w).1 = Tables.shipped.assess plan (.limit .scansPerDay) (.int n) := by
  obtain ⟨now, s, log⟩ := w
  have htakes : log.takes (assessing exec owner now s p).note = true :=
    Log.takes_of_writable fun x hx => writable_assessing hlog hx
  rw [assess_eq exec owner now s hp]
  dsimp only [Effect.at]
  rw [if_pos htakes, assessing, hr, found_eq hp]

end Entitlement.Tally
