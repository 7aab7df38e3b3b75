import Entitlement.Proofs.Contrast
import Entitlement.Proofs.Overview

/-!
The limits that change from one plan to another.

A contrast shows how far the cap of the second plan is above that of the first, unless one of them
is unlimited. Where both are caps to be used up, this is what usage that keeps within both has left
under the one plan more than under the other, and where it is positive there is usage that only the
second plan allows.
-/

namespace Entitlement

open Settings (Session)

/-- A pair shows the caps `x` and `y`, and how far `y` is above `x` if neither is unlimited. -/
structure LimitPair.Exact (e : LimitPair) (x y : ℤ) : Prop where
  first : e.first = x
  second : e.second = y
  none_iff : e.difference = none ↔ x = unlimited ∨ y = unlimited
  difference : x ≠ unlimited → y ≠ unlimited → e.difference = some (y - x)

/-- A contrast of two plans shows `o` as the difference of a limit. -/
def Tables.Differ (t : Tables) (first second limit : Value) (o : Option ℤ) : Prop :=
  ∃ d l e, t.Contrasted first second d ∧ Limit.ofValue limit = .ok l ∧
    Assoc.find? d.limits l = some e ∧ e.difference = o

/-- Usage is judged under a plan, and allowed or not. -/
def Tables.Decides (t : Tables) (plan limit : Value) (w : Whole) (allowed : Bool) : Prop :=
  ∃ v, t.assess plan limit (.number (.whole w)) = .ok v ∧ v.allowed = allowed

/-- The difference `n` of the caps `x` and `y` accounts for usage of either: it is what usage within
both has left under the second plan more than under the first, and it tells whether there is usage
that is allowed under the second plan only. -/
structure Tables.Accounts (t : Tables) (first second limit : Value) (x y n : ℤ) : Prop where
  left : ∀ w : Whole, 0 ≤ w.toInt → w.toInt ≤ x → w.toInt ≤ y → ∃ v v' r r',
    t.assess first limit (.number (.whole w)) = .ok v ∧
      t.assess second limit (.number (.whole w)) = .ok v' ∧
      v.left = some (.int r) ∧ v'.left = some (.int r') ∧ r' - r = n
  denied : (∃ w : Whole, 0 ≤ w.toInt ∧ t.Decides second limit w true ∧
    t.Decides first limit w false) ↔ 0 < n ∧ 0 < y
  not_allowed : (∃ w : Whole, 0 ≤ w.toInt ∧ t.Decides second limit w true ∧
    ¬ t.Decides first limit w true) ↔ 0 < n ∧ 0 < y

variable {t : Tables} {a b c plan limit : Value} {x y z cap w : Whole} {l : Limit} {o : Option ℤ}

/-! ### Differences -/

lemma pairLimits_exact (x y : ℤ) : (pairLimits x y).Exact x y where
  first := rfl
  second := rfl
  none_iff := by
    show (if _ then _ else _) = _ ↔ _
    split_ifs with h
    · exact iff_of_true rfl h
    · exact iff_of_false nofun h
  difference hx hy := if_neg (not_or.2 ⟨hx, hy⟩)

lemma pairLimits_swap (x y : ℤ) :
    (pairLimits y x).difference = (pairLimits x y).difference.map (- ·) := by
  by_cases h : x = unlimited ∨ y = unlimited
  · rw [(pairLimits_exact x y).none_iff.2 h, (pairLimits_exact y x).none_iff.2 h.symm]
    rfl
  · obtain ⟨hx, hy⟩ := not_or.1 h
    rw [(pairLimits_exact x y).difference hx hy, (pairLimits_exact y x).difference hy hx,
      Option.map_some, neg_sub]

lemma find?_limits_contrast (s : Settings) (p q : Plan) (l : Limit) :
    Assoc.find? (t.contrast s p q).limits l = some (pairLimits (t.cap p l) (t.cap q l)) :=
  find?_map_all (fun l => pairLimits (t.cap p l) (t.cap q l)) l

lemma Tables.Differ.eq (ha : t.limitOf a limit = .ok x) (hb : t.limitOf b limit = .ok y)
    (h : t.Differ a b limit o) : o = (pairLimits x.toInt y.toInt).difference := by
  obtain ⟨p, l, hp, hl, rfl⟩ := limitOf_eq_ok_iff.1 ha
  obtain ⟨q, l', hq, hl', rfl⟩ := limitOf_eq_ok_iff.1 hb
  obtain ⟨d, l'', e, hd, hl'', he, rfl⟩ := h
  obtain rfl : l = l' := Except.ok.inj (hl.symm.trans hl')
  obtain rfl : l = l'' := Except.ok.inj (hl.symm.trans hl'')
  obtain ⟨s, rfl⟩ := hd.exists_eq hp hq
  rw [find?_limits_contrast] at he
  rw [← Option.some.inj he]
  rfl

/-! ### Usage of either cap -/

lemma assess_capped {v : Verdict} (hcap : t.limitOf plan limit = .ok cap)
    (hlimited : cap.toInt ≠ unlimited) (h : t.assess plan limit (.number (.whole w)) = .ok v) :
    (v.allowed = true ↔ w.toInt < cap.toInt) ∧
      v.left = some (.int (max (cap.toInt - w.toInt) 0)) := by
  obtain ⟨-, l, cap', -, hcap', hjudge⟩ := assess_cases h
  obtain rfl : cap = cap' := Except.ok.inj (hcap.symm.trans hcap')
  rcases judge_cases hjudge with ⟨hunlimited, -⟩ | ⟨-, p, -, rfl⟩
  · exact absurd hunlimited hlimited
  · exact ⟨decide_eq_true_iff, rfl⟩

lemma assess_isOk_of_le (hcap : t.limitOf plan limit = .ok cap) (h0 : 0 ≤ w.toInt)
    (h : 0 < cap.toInt → w.toInt ≤ cap.toInt) :
    ∃ v, t.assess plan limit (.number (.whole w)) = .ok v := by
  obtain ⟨-, l, -, hl, -⟩ := limitOf_eq_ok_iff.1 hcap
  rw [assess_of_limitOf h0 hl hcap]
  exact judge_isOk_of_share l (percentOf_isOk_of_le h0 h)

lemma left_sub_left (ha : t.limitOf a limit = .ok x) (hb : t.limitOf b limit = .ok y)
    (hx : x.toInt ≠ unlimited) (hy : y.toInt ≠ unlimited) (h0 : 0 ≤ w.toInt)
    (hwx : w.toInt ≤ x.toInt) (hwy : w.toInt ≤ y.toInt) :
    ∃ v v' r r', t.assess a limit (.number (.whole w)) = .ok v ∧
      t.assess b limit (.number (.whole w)) = .ok v' ∧
      v.left = some (.int r) ∧ v'.left = some (.int r') ∧ r' - r = y.toInt - x.toInt := by
  obtain ⟨v, hv⟩ := assess_isOk_of_le ha h0 fun _ => hwx
  obtain ⟨v', hv'⟩ := assess_isOk_of_le hb h0 fun _ => hwy
  refine ⟨v, v', _, _, hv, hv', (assess_capped ha hx hv).2, (assess_capped hb hy hv').2, ?_⟩
  rw [max_eq_left (by omega), max_eq_left (by omega)]
  omega

lemma exists_decides (ha : t.limitOf a limit = .ok x) (hb : t.limitOf b limit = .ok y)
    (hx : x.toInt ≠ unlimited) (hy : y.toInt ≠ unlimited) (hlt : x.toInt < y.toInt)
    (hpos : 0 < y.toInt) :
    ∃ w : Whole, 0 ≤ w.toInt ∧ t.Decides b limit w true ∧ t.Decides a limit w false := by
  have h0 : 0 ≤ (Whole.int (max x.toInt 0)).toInt := le_max_right _ _
  have hwy : (Whole.int (max x.toInt 0)).toInt < y.toInt := max_lt hlt hpos
  obtain ⟨v, hv⟩ := assess_isOk_of_le ha h0 fun hpos => (max_eq_left hpos.le).le
  obtain ⟨v', hv'⟩ := assess_isOk_of_le hb h0 fun _ => hwy.le
  refine ⟨.int (max x.toInt 0), h0, ⟨v', hv', (assess_capped hb hy hv').1.2 hwy⟩, v, hv, ?_⟩
  rw [Bool.eq_false_iff, ne_eq, (assess_capped ha hx hv).1]
  exact not_lt.2 (le_max_left _ _)

/-- Usage that one plan allows and the other does not, be it judged there or not, lies between the
caps. -/
lemma lt_of_decides (ha : t.limitOf a limit = .ok x) (hb : t.limitOf b limit = .ok y)
    (hx : x.toInt ≠ unlimited) (hy : y.toInt ≠ unlimited) (h0 : 0 ≤ w.toInt)
    (hallowed : t.Decides b limit w true) (hnot : ¬ t.Decides a limit w true) :
    x.toInt < y.toInt ∧ 0 < y.toInt := by
  obtain ⟨v', hv', hallowed⟩ := hallowed
  have hwy : w.toInt < y.toInt := (assess_capped hb hy hv').1.1 hallowed
  have hxw : x.toInt ≤ w.toInt := by
    by_contra hwx
    obtain ⟨v, hv⟩ := assess_isOk_of_le ha h0 fun _ => (not_le.1 hwx).le
    exact hnot ⟨v, hv, (assess_capped ha hx hv).1.2 (not_le.1 hwx)⟩
  exact ⟨hxw.trans_lt hwy, h0.trans_lt hwy⟩

lemma accounts_sub (ha : t.limitOf a limit = .ok x) (hb : t.limitOf b limit = .ok y)
    (hx : x.toInt ≠ unlimited) (hy : y.toInt ≠ unlimited) :
    t.Accounts a b limit x.toInt y.toInt (y.toInt - x.toInt) where
  left w := left_sub_left ha hb hx hy
  denied := by
    rw [sub_pos]
    refine ⟨fun ⟨w, h0, hallowed, v, hv, hdenied⟩ => ?_, fun ⟨hlt, hpos⟩ =>
      exists_decides ha hb hx hy hlt hpos⟩
    refine lt_of_decides ha hb hx hy h0 hallowed fun ⟨v', hv', hallowed⟩ => ?_
    obtain rfl : v = v' := Except.ok.inj (hv.symm.trans hv')
    cases hdenied.symm.trans hallowed
  not_allowed := by
    rw [sub_pos]
    refine ⟨fun ⟨w, h0, hallowed, hnot⟩ => lt_of_decides ha hb hx hy h0 hallowed hnot,
      fun ⟨hlt, hpos⟩ => ?_⟩
    obtain ⟨w, h0, hallowed, v, hv, hdenied⟩ := exists_decides ha hb hx hy hlt hpos
    refine ⟨w, h0, hallowed, fun ⟨v', hv', hallowed⟩ => ?_⟩
    obtain rfl : v = v' := Except.ok.inj (hv.symm.trans hv')
    cases hdenied.symm.trans hallowed

/-- **Differences of limits account for usage**, for any limits: two plans can be contrasted
wherever there are settings, the contrast shows the caps of both and their difference unless one is
unlimited, differences turn round and add up, and the difference of two limited caps accounts for
usage. -/
theorem differences_account (ha : t.limitOf a limit = .ok x) (hb : t.limitOf b limit = .ok y)
    (hc : t.limitOf c limit = .ok z) :
    (∀ given s u s', settingsOr given s = (.ok u, s') →
        ∃ d, t.contrastOf a b given s = (.ok d, s')) ∧
      (∀ d, t.Contrasted a b d → ∃ l e, Limit.ofValue limit = .ok l ∧
        Assoc.find? d.limits l = some e ∧ e.Exact x.toInt y.toInt) ∧
      (∀ o o', t.Differ a b limit o → t.Differ b a limit o' → o' = o.map (- ·)) ∧
      (x.toInt ≠ unlimited → y.toInt ≠ unlimited → z.toInt ≠ unlimited →
        ∀ ab bc ac, t.Differ a b limit ab → t.Differ b c limit bc → t.Differ a c limit ac →
          ∃ m n, ab = some m ∧ bc = some n ∧ ac = some (m + n)) ∧
      (x.toInt ≠ unlimited → y.toInt ≠ unlimited → ∀ o, t.Differ a b limit o →
        ∃ n, o = some n ∧ t.Accounts a b limit x.toInt y.toInt n) := by
  refine ⟨?_, ?_, ?_, ?_, ?_⟩
  · intro given s u s' hu
    obtain ⟨p, -, hp, -⟩ := limitOf_eq_ok_iff.1 ha
    obtain ⟨q, -, hq, -⟩ := limitOf_eq_ok_iff.1 hb
    exact ⟨t.contrast u p q, Tables.contrastOf_of_settings hp hq hu⟩
  · intro d hd
    obtain ⟨p, l, hp, hl, rfl⟩ := limitOf_eq_ok_iff.1 ha
    obtain ⟨q, l', hq, hl', rfl⟩ := limitOf_eq_ok_iff.1 hb
    obtain rfl : l = l' := Except.ok.inj (hl.symm.trans hl')
    obtain ⟨u, rfl⟩ := hd.exists_eq hp hq
    exact ⟨l, _, hl, find?_limits_contrast u p q l, pairLimits_exact _ _⟩
  · intro o o' ho ho'
    rw [ho.eq ha hb, ho'.eq hb ha]
    exact pairLimits_swap _ _
  · intro hx hy hz ab bc ac hab hbc hac
    refine ⟨y.toInt - x.toInt, z.toInt - y.toInt, ?_, ?_, ?_⟩
    · exact (hab.eq ha hb).trans ((pairLimits_exact _ _).difference hx hy)
    · exact (hbc.eq hb hc).trans ((pairLimits_exact _ _).difference hy hz)
    · rw [sub_add_sub_cancel']
      exact (hac.eq ha hc).trans ((pairLimits_exact _ _).difference hx hz)
  · intro hx hy o ho
    exact ⟨y.toInt - x.toInt, (ho.eq ha hb).trans ((pairLimits_exact _ _).difference hx hy),
      accounts_sub ha hb hx hy⟩

/-- A cap below zero, one of two hundred digits and one of zero: seen from the first the second is
far ahead and the third a little, and only the second has usage that the first does not allow. -/
theorem differences_of_odd_caps :
    let t := ((Tables.shipped.withLimits .starter ⟨.int (-5), .int 0, .int 0, .int 0⟩).withLimits
      .pro ⟨.int (10 ^ 200), .int 0, .int 0, .int 0⟩).withLimits
      .business ⟨.int 0, .int 0, .int 0, .int 0⟩
    let scans := Value.text "scansPerDay"
    let u : Settings := ⟨"INFO", Settings.defaultStoreUrl, 7, .zero, .zero, .zero, .zero⟩
    (∃ ab l e, t.contrastOf (.plan .starter) (.text "PRO") (some u) .start = (.ok ab, .start) ∧
        Assoc.find? ab.limits l = some e ∧ e.Exact (-5) (10 ^ 200)) ∧
      (∃ w : Whole, 0 ≤ w.toInt ∧ t.Decides (.text "PRO") scans w true ∧
        t.Decides (.plan .starter) scans w false) ∧
      ¬ ∃ w : Whole, 0 ≤ w.toInt ∧ t.Decides (.plan .business) scans w true ∧
        ¬ t.Decides (.plan .starter) scans w true := by
  intro t scans u
  have hu : settingsOr (some u) .start = (.ok u, .start) := rfl
  have ha : t.limitOf (.plan .starter) scans = .ok (.int (-5)) := rfl
  have hb : t.limitOf (.text "PRO") scans = .ok (.int (10 ^ 200)) := rfl
  have hc : t.limitOf (.plan .business) scans = .ok (.int 0) := rfl
  have hlarge : (10 : ℤ) ^ 200 ≠ unlimited := by decide
  obtain ⟨hab, hpairs, -, -, haccounts⟩ := differences_account ha hb hc
  obtain ⟨hac, hpairs', -, -, haccounts'⟩ := differences_account ha hc hb
  obtain ⟨ab, hab⟩ := hab (some u) .start u .start hu
  obtain ⟨l, e, hl, he, hexact⟩ := hpairs ab ⟨_, _, _, hab⟩
  obtain ⟨n, hn, haccount⟩ := haccounts (by decide) hlarge _ ⟨ab, l, e, ⟨_, _, _, hab⟩, hl, he, rfl⟩
  obtain ⟨ac, hac⟩ := hac (some u) .start u .start hu
  obtain ⟨l', e', hl', he', -⟩ := hpairs' ac ⟨_, _, _, hac⟩
  obtain ⟨n', -, haccount'⟩ :=
    haccounts' (by decide) (by decide) _ ⟨ac, l', e', ⟨_, _, _, hac⟩, hl', he', rfl⟩
  refine ⟨⟨ab, l, e, hab, he, hexact⟩, haccount.denied.2 ⟨?_, ?_⟩, fun h => ?_⟩
  · rw [hexact.difference (by decide) hlarge] at hn
    rw [← Option.some.inj hn]
    decide
  · decide
  · exact absurd (haccount'.not_allowed.1 h).2 (by decide)

end Entitlement
