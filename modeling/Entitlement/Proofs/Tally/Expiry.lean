import Entitlement.Proofs.Tally.Run
import Mathlib.Data.Int.Interval

/-!
How long counters stay.

An addition that comes about leaves a stamp: whose it was, and when. Which keys the store shows, and
for how long, is read off the stamps alone: the key of an account and a day is shown from the first
stamp of that day on, until a retention has passed since the last. A retention of some days reaches
over as many midnights, so an account has at most one key more than that.
-/

namespace Entitlement.Tally

structure Stamp where
  account : String
  time : Int

def Op.stamps (now : Int) : Op → Except Error Answer → List Stamp
  | .add owner _, .ok _ => [⟨owner.display, now⟩]
  | _, _ => []

def stamps (start : Int) : List Op → List (Except Error Answer) → List Stamp
  | o :: os, r :: rs => o.stamps start r ++ stamps (start + o.micros) os rs
  | _, _ => []

/-- When an account last added on a day. -/
def lastTime (ss : List Stamp) (account : String) (day : Int) : Option Int :=
  (ss.filter fun x => x.account = account ∧ dayOf x.time = day).getLast?.map Stamp.time

variable {ss : List Stamp} {account : String} {day t : Int}

lemma lastTime_snoc (x : Stamp) : lastTime (ss ++ [x]) account day =
    if x.account = account ∧ dayOf x.time = day then some x.time else lastTime ss account day := by
  unfold lastTime
  rw [List.filter_append]
  by_cases h : x.account = account ∧ dayOf x.time = day <;> simp [List.filter, h]

lemma mem_of_lastTime (h : lastTime ss account day = some t) :
    ⟨account, t⟩ ∈ ss ∧ dayOf t = day := by
  obtain ⟨x, hx, rfl⟩ := Option.map_eq_some_iff.1 h
  obtain ⟨hmem, hsame⟩ := List.mem_filter.1 (List.mem_of_getLast? hx)
  obtain ⟨rfl, hday⟩ := of_decide_eq_true hsame
  exact ⟨hmem, hday⟩

/-! ### Stores that go by the stamps -/

variable {σ : Type} {exec : Backend σ} {view : View σ} {ttl now : Int} {s s' : σ}

/-- The store shows the keys of the stamps, each until a retention after its last stamp. -/
structure Stamped (view : View σ) (ttl now : Int) (s : σ) (ss : List Stamp) : Prop where
  shown : ∀ k e, view s now k = some e → ∃ account t,
    k = dayKey account (dayOf t) ∧ lastTime ss account (dayOf t) = some t ∧
      e.expiry = some ⟨t, retention ttl⟩
  kept : ∀ account day t, lastTime ss account day = some t → now < t + microsPerDay * ttl →
    (view s now (dayKey account day)).isSome
  past : ∀ x ∈ ss, x.time ≤ now

lemma Stamped.of_empty (hempty : ∀ k, view s now k = none) : Stamped view ttl now s [] where
  shown := by
    intro k e he
    rw [hempty] at he
    cases he
  kept := nofun
  past := nofun

lemma Stamped.congr (h : Stamped view ttl now s ss) (hview : ∀ k, view s' now k = view s now k) :
    Stamped view ttl now s' ss where
  shown := fun k e he => h.shown k e ((hview k).symm.trans he)
  kept := by
    intro account day t hlast hlt
    rw [hview]
    exact h.kept account day t hlast hlt
  past := h.past

lemma Stamped.expiry_eq (h : Stamped view ttl now s ss) (hlast : lastTime ss account day = some t)
    {e : Entry} (he : view s now (dayKey account day) = some e) :
    e.expiry = some ⟨t, retention ttl⟩ := by
  obtain ⟨account', t', hk, hlast', hexpiry⟩ := h.shown _ e he
  obtain ⟨rfl, rfl⟩ := dayKey_inj.1 hk
  obtain rfl : t' = t := Option.some.inj (hlast'.symm.trans hlast)
  exact hexpiry

lemma live_of_expiry {e : Entry} (he : e.expiry = some ⟨t, retention ttl⟩) :
    Entry.live .untilExpiry now e ↔ now < t + microsPerDay * ttl := by
  rw [live_untilExpiry, he]
  simp only [Option.some.injEq, forall_eq', due_retention]

lemma Stamped.later {now' : Int} (h : Stamped view ttl now s ss) (hlaws : Laws exec view)
    (hle : now ≤ now') : Stamped view ttl now' s ss where
  shown := by
    intro k e he
    rw [hlaws.later s now now' k hle] at he
    exact h.shown k e (Option.filter_eq_some_iff.1 he).1
  kept := by
    intro account day t hlast hlt
    obtain ⟨e, he⟩ := Option.isSome_iff_exists.1 (h.kept account day t hlast (by omega))
    have hlive : e.live .untilExpiry now' = true := (live_of_expiry (h.expiry_eq hlast he)).2 hlt
    rw [hlaws.later s now now' _ hle, he, Option.filter_some, if_pos hlive, Option.isSome_some]
  past := fun x hx => (h.past x hx).trans hle

lemma Stamped.isSome_iff (h : Stamped view ttl now s ss) (hlaws : Laws exec view)
    (hlast : lastTime ss account day = some t) :
    (view s now (dayKey account day)).isSome ↔ now < t + microsPerDay * ttl := by
  constructor
  · intro hshown
    obtain ⟨e, he⟩ := Option.isSome_iff_exists.1 hshown
    exact (live_of_expiry (h.expiry_eq hlast he)).1 (hlaws.live_of_view he)
  · exact h.kept account day t hlast

/-- A key that is shown is that of a day, and at most a retention old. -/
lemma Stamped.day_of_isSome (h : Stamped view ttl now s ss) (hlaws : Laws exec view)
    (hshown : (view s now (dayKey account day)).isSome) :
    0 ≤ dayOf now - day ∧ dayOf now - day ≤ ttl := by
  obtain ⟨e, he⟩ := Option.isSome_iff_exists.1 hshown
  obtain ⟨account', t, hk, hlast, -⟩ := h.shown _ e he
  obtain ⟨rfl, rfl⟩ := dayKey_inj.1 hk
  have hpast : t ≤ now := h.past _ (mem_of_lastTime hlast).1
  have hlive := (h.isSome_iff hlaws hlast).1 hshown
  simp only [dayOf, microsPerDay, microsPerSecond, secondsPerDay] at hlive ⊢
  omega

/-- The days that an account has keys of lie between today and a retention ago. -/
lemma Stamped.card_le (h : Stamped view ttl now s ss) (hlaws : Laws exec view) (httl : 0 ≤ ttl)
    {keys : Finset String}
    (hkeys : ∀ k ∈ keys, (∃ day, k = dayKey account day) ∧ (view s now k).isSome) :
    (keys.card : Int) ≤ ttl + 1 := by
  have hsub : keys ⊆ (Finset.Icc (dayOf now - ttl) (dayOf now)).image (dayKey account) := by
    intro k hk
    obtain ⟨⟨day, rfl⟩, hshown⟩ := hkeys k hk
    have hday := h.day_of_isSome hlaws hshown
    exact Finset.mem_image_of_mem _ (Finset.mem_Icc.2 (by omega))
  have hcard := (Finset.card_le_card hsub).trans Finset.card_image_le
  rw [Int.card_Icc] at hcard
  omega

lemma Stamped.snoc {c : Option Value} (h : Stamped view ttl now s ss)
    (hview : ∀ k, view s' now k = if dayKey account (dayOf now) = k then
      some ⟨c, some ⟨now, retention ttl⟩⟩ else view s now k) :
    Stamped view ttl now s' (ss ++ [⟨account, now⟩]) where
  shown := by
    intro k e he
    rw [hview] at he
    split_ifs at he with hk
    · obtain rfl := Option.some.inj he
      exact ⟨account, now, hk.symm, by rw [lastTime_snoc, if_pos ⟨rfl, rfl⟩], rfl⟩
    · obtain ⟨account', t, rfl, hlast, hexpiry⟩ := h.shown k e he
      -- the stamps of other keys stay the last ones
      have hother : ¬ (account = account' ∧ dayOf now = dayOf t) := fun hsame =>
        hk (dayKey_inj.2 hsame)
      exact ⟨account', t, rfl, by rw [lastTime_snoc, if_neg hother, hlast], hexpiry⟩
  kept := by
    intro account' day t hlast hlt
    rw [hview]
    rw [lastTime_snoc] at hlast
    split_ifs with hk
    · rfl
    · rw [if_neg fun hsame => hk (dayKey_inj.2 hsame)] at hlast
      exact h.kept account' day t hlast hlt
  past := by
    intro x hx
    rcases List.mem_append.1 hx with hx | hx
    · exact h.past x hx
    · obtain rfl := List.mem_singleton.1 hx
      exact le_refl _

/-! ### Runs -/

variable {w : World σ}

/-- Kept for a day or more, the entry of an addition is not over at once. -/
lemma Raises.view_eq {owner count : Value} {out : Except Error Int × World σ} {m n : Int}
    (h : Raises view ttl owner count w out m n) (httl : 1 ≤ ttl) (k : String) :
    view out.2.store w.now k = if keyAt owner w.now = k then
      some ⟨some (.text (m + n).repr), some ⟨w.now, retention ttl⟩⟩ else view w.store w.now k := by
  rw [h.after, Option.filter_some, if_pos (live_retention_iff.2 httl)]

theorem Stamped.after_step (h : Stamped view ttl w.now w.store ss) (hexec : Expires exec view ttl)
    (hlog : Value.fieldsWritable w.log.context = true) (httl : 1 ≤ ttl) (o : Op) :
    Stamped view ttl (step exec ttl w o).2.now (step exec ttl w o).2.store
      (ss ++ o.stamps w.now (step exec ttl w o).1) := by
  rw [step_now]
  cases o with
  | add owner count =>
    have hnow : w.now + (Op.add owner count).micros = w.now := Int.add_zero _
    rw [step_add, hnow]
    rcases hexec.add_cases hlog owner count with ⟨m, n, hraises⟩ | ⟨⟨e, herror⟩, hview, -⟩
    · rw [hraises.answer]
      exact h.snoc (hraises.view_eq httl)
    · rw [herror]
      change Stamped view ttl w.now (add exec ttl owner count w).2.store (ss ++ [])
      rw [List.append_nil]
      exact h.congr hview
  | today _ | assess _ _ | wait _ =>
    simp only [Op.stamps, List.append_nil]
    exact (h.congr (hexec.view_step ttl w (by nofun))).later hexec.toLaws
      (Int.le_add_of_nonneg_right (Int.natCast_nonneg _))

/-- A run keeps the store to the stamps. -/
theorem Stamped.after_run (h : Stamped view ttl w.now w.store ss) (hexec : Expires exec view ttl)
    (hlog : Value.fieldsWritable w.log.context = true) (httl : 1 ≤ ttl) (ops : List Op) :
    Stamped view ttl (run exec ttl w ops).2.now (run exec ttl w ops).2.store
      (ss ++ stamps w.now ops (run exec ttl w ops).1) := by
  induction ops generalizing w ss with
  | nil =>
    change Stamped view ttl w.now w.store (ss ++ [])
    rwa [List.append_nil]
  | cons o ops ih =>
    have hrest := ih (h.after_step hexec hlog httl o) (bound_step hlog o)
    rw [step_now, List.append_assoc] at hrest
    exact hrest

/-- **Retention**: after any run from nothing, on a store that may refuse anything but expiries,
with counters kept for a day or more, every key that the store shows is that of an account and a day
on which it added, with an expiry that counts from its last addition of that day; it is shown until
that expiry is reached and no longer. An addition moves no expiry back, and readings and assessments
move none. So the keys are of the last days only, as many as counters are kept for and today, and an
account has no more keys than that. -/
theorem retention_of_run (hexec : Expires exec view ttl) (httl : 1 ≤ ttl) {start : World σ}
    (hstart : Starts view start) (ops : List Op) :
    let w := (run exec ttl start ops).2
    let ss := stamps start.now ops (run exec ttl start ops).1
    (∀ k e, view w.store w.now k = some e → ∃ account t,
        k = dayKey account (dayOf t) ∧ lastTime ss account (dayOf t) = some t ∧
          e.expiry = some ⟨t, retention ttl⟩) ∧
      (∀ account day t, lastTime ss account day = some t → ∀ later ≥ w.now,
        ((view w.store later (dayKey account day)).isSome ↔ later < t + microsPerDay * ttl)) ∧
      (∀ owner count plan,
        (∀ k e, view w.store w.now k = some e → ∃ e' t t',
          view (add exec ttl owner count w).2.store w.now k = some e' ∧
            e.expiry = some ⟨t, retention ttl⟩ ∧ e'.expiry = some ⟨t', retention ttl⟩ ∧ t ≤ t') ∧
        (∀ k, view (today exec owner w).2.store w.now k = view w.store w.now k) ∧
        ∀ k, view (assess exec owner plan w).2.store w.now k = view w.store w.now k) ∧
      (∀ account day, (view w.store w.now (dayKey account day)).isSome →
        0 ≤ dayOf w.now - day ∧ dayOf w.now - day ≤ ttl) ∧
      ∀ account (keys : Finset String), (∀ k ∈ keys, (∃ day, k = dayKey account day) ∧
        (view w.store w.now k).isSome) → (keys.card : Int) ≤ ttl + 1 := by
  intro w ss
  have hlaws := hexec.toLaws
  have h : Stamped view ttl w.now w.store ss :=
    (Stamped.of_empty hstart.empty).after_run hexec hstart.bound httl ops
  have hlog : Value.fieldsWritable w.log.context = true := hstart.bound_run exec ttl ops
  refine ⟨h.shown,
    fun account day t hlast later hle => (h.later hlaws hle).isSome_iff hlaws hlast,
    fun owner count plan => ⟨fun k e he => ?_, today_view hlaws owner w,
      assess_view hlaws owner plan w⟩,
    fun account day => h.day_of_isSome hlaws, fun account keys => h.card_le hlaws (by omega)⟩
  -- an addition sets the expiry of its key anew, and those of other keys are as they were
  obtain ⟨account, t, -, hlast, hexpiry⟩ := h.shown k e he
  have hpast : t ≤ w.now := h.past _ (mem_of_lastTime hlast).1
  rcases hexec.add_cases hlog owner count with ⟨m, n, hraises⟩ | ⟨-, hview, -⟩
  · have hview := hraises.view_eq httl k
    by_cases hk : keyAt owner w.now = k
    · exact ⟨_, t, w.now, by rw [hview, if_pos hk], hexpiry, rfl, hpast⟩
    · exact ⟨e, t, t, by rw [hview, if_neg hk, he], hexpiry, hexpiry, le_refl t⟩
  · exact ⟨e, t, t, by rw [hview, he], hexpiry, hexpiry, le_refl t⟩

/-- Counters are kept for one day. A scan in the last microsecond of a day and one in the first of
the next leave two keys, one more than the days; the first is gone a day after its scan. -/
theorem two_keys_around_midnight :
    let ada := Value.text "ada"
    let start : World Store := ⟨1709942399999999, [], Log.fresh⟩
    let ops : List Op := [.add ada (.int 1), .wait 1, .add ada (.int 1)]
    let s := (run expiring 1 start ops).2.store
    let first := dayKey "ada" (dayOf 1709942399999999)
    (shown s 1709942400000000 first).isSome ∧
      (shown s 1709942400000000 (dayKey "ada" (dayOf 1709942400000000))).isSome ∧
      (shown s 1710028799999998 first).isSome ∧ ¬ (shown s 1710028799999999 first).isSome := by
  intro ada start ops s first
  let ss : List Stamp := [⟨"ada", 1709942399999999⟩, ⟨"ada", 1709942400000000⟩]
  have hnow : (run expiring 1 start ops).2.now = 1709942400000000 := by
    unfold start ops ada
    rfl
  have hss : stamps start.now ops (run expiring 1 start ops).1 = ss := by
    unfold start ops ada
    rfl
  have hstart : Starts shown start := ⟨fun _ => rfl, rfl⟩
  obtain ⟨-, hshown, -⟩ := retention_of_run (serves_expiring 1).toExpires (le_refl (1 : Int))
    hstart ops
  rw [hnow, hss] at hshown
  have hbefore : lastTime ss "ada" (dayOf 1709942399999999) = some 1709942399999999 := by
    unfold ss
    decide
  have hafter : lastTime ss "ada" (dayOf 1709942400000000) = some 1709942400000000 := by
    unfold ss
    decide
  refine ⟨(hshown _ _ _ hbefore _ ?_).2 ?_, (hshown _ _ _ hafter _ ?_).2 ?_,
    (hshown _ _ _ hbefore _ ?_).2 ?_, fun h => absurd ((hshown _ _ _ hbefore _ ?_).1 h) ?_⟩
  all_goals decide

end Entitlement.Tally
