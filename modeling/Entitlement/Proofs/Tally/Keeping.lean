import Entitlement.Proofs.Tally.Laws

/-!
Stores that count to given numbers and drop nothing before an instant.

An increment adds to one number, and an expiry that is far enough changes none, so a store that
is only incremented and given such expiries keeps every counter up to that instant.
-/

namespace Entitlement.Tally

variable {σ : Type} {exec : Backend σ} {view : View σ} {s s' : σ} {now limit : Int}
  {f : String → Int}

/-- The store counts to `f k` at every key `k`, and drops nothing before an instant. -/
def Keeps (view : View σ) (s : σ) (now limit : Int) (f : String → Int) : Prop :=
  ∀ k, (view s now k = none ∧ f k = 0) ∨
    ∃ x, view s now k = some ⟨some (.text (f k).repr), x⟩ ∧ ∀ y, x = some y → limit ≤ y.due

lemma Keeps.of_empty (hempty : ∀ k, view s now k = none) (limit : Int) :
    Keeps view s now limit fun _ => 0 := fun k => Or.inl ⟨hempty k, rfl⟩

lemma Keeps.counts (h : Keeps view s now limit f) (k : String) : Counts (view s now k) (f k) := by
  rcases h k with h | ⟨x, h, -⟩
  · exact Or.inl h
  · exact Or.inr ⟨x, h⟩

lemma Keeps.congr (h : Keeps view s now limit f) (hview : ∀ k, view s' now k = view s now k) :
    Keeps view s' now limit f := by
  intro k
  rw [hview]
  exact h k

lemma Keeps.later (h : Keeps view s now limit f) (hlaws : Laws exec view) {now' : Int}
    (hle : now ≤ now') (hlt : now' < limit) : Keeps view s now' limit f := by
  intro k
  rw [hlaws.later s now now' k hle]
  rcases h k with ⟨hview, hf⟩ | ⟨x, hview, hx⟩
  · exact Or.inl ⟨by rw [hview, Option.filter_none], hf⟩
  · refine Or.inr ⟨x, ?_, hx⟩
    rw [hview, Option.filter_some, if_pos]
    rw [live_untilExpiry]
    intro y hy
    have := hx y hy
    omega

/-- An increment that is answered gives the sum, adds to its key and leaves the expiry of the
key. -/
lemma Keeps.increment (h : Keeps view s now limit f) (hlaws : Laws exec view) {key : String}
    {n : Int} {v : Value} (hinc : exec now (.increment key (.int n)) s = (.ok v, s')) :
    v = .int (f key + n) ∧ Keeps view s' now limit fun k => f k + if key = k then n else 0 := by
  obtain ⟨m, n', hn, hv, hm, -, -, hafter⟩ := hlaws.increment _ _ _ _ _ _ hinc
  obtain rfl : n = n' := by simpa using hn
  obtain rfl : f key = m := Option.some.inj ((h.counts key).counterIn.symm.trans hm)
  refine ⟨hv, fun k => ?_⟩
  by_cases hk : key = k
  · subst hk
    simp only [if_true]
    rw [hafter]
    -- a key that was not there has no expiry yet
    rcases h key with ⟨hview, -⟩ | ⟨x, hview, hx⟩
    · exact Or.inr ⟨none, by rw [hview]; rfl, nofun⟩
    · exact Or.inr ⟨x, by rw [hview]; rfl, hx⟩
  · have hother := hlaws.other now (.increment key (.int n)) s k hk
    rw [hinc] at hother
    simp only [if_neg hk, Int.add_zero, hother]
    exact h k

lemma Keeps.expire (h : Keeps view s now limit f) (hlaws : Laws exec view) {key : String}
    {seconds : Int} {v : Value} (hexp : exec now (.expire key seconds) s = (.ok v, s'))
    (hpos : 0 < f key) (hlt : now < limit) (hle : limit ≤ (⟨now, seconds⟩ : Expiry).due) :
    Keeps view s' now limit f := by
  intro k
  by_cases hk : key = k
  · subst hk
    rw [hlaws.expire _ _ _ _ _ _ hexp]
    -- a key that counts is there
    rcases h key with ⟨-, hf⟩ | ⟨x, hview, -⟩
    · omega
    · have hlive : Entry.live .untilExpiry now
          ⟨some (.text (f key).repr), some ⟨now, seconds⟩⟩ := by
        rw [live_untilExpiry]
        rintro y ⟨⟩
        exact Int.lt_of_lt_of_le hlt hle
      refine Or.inr ⟨some ⟨now, seconds⟩, ?_, ?_⟩
      · rw [hview, Option.map_some, Option.filter_some, if_pos hlive]
      · rintro y ⟨⟩
        exact hle
  · have hother := hlaws.other now (.expire key seconds) s k hk
    rw [hexp] at hother
    rw [hother]
    exact h k

end Entitlement.Tally
