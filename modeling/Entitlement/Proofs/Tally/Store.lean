import Entitlement.Proofs.Tally.Laws

/-!
A store that keeps the laws and refuses nothing that fits.

What a store of entries shows of a key is the entry that it has, unless it has expired.
-/

namespace Entitlement.Tally

/-- The store that drops expired keys. -/
abbrev expiring : Backend Store := Store.exec .untilExpiry

abbrev shown : View Store := fun s now k => s.find? .untilExpiry now k

namespace Store

variable {s : Store} {now : Int} {key k : String}

lemma find?_put (e : Entry) : Store.find? (Assoc.put s key e) .untilExpiry now k =
    if key = k then (some e).filter (Entry.live .untilExpiry now)
    else s.find? .untilExpiry now k := by
  simp only [find?, Assoc.find?_put, beq_iff_eq]
  split <;> rfl

lemma live_entry : Entry.live .untilExpiry now (s.entry .untilExpiry now k) := by
  unfold entry
  cases h : s.find? .untilExpiry now k with
  | none => rfl
  | some e => exact (Option.filter_eq_some_iff.1 h).2

lemma counterIn_find? : counterIn (s.find? .untilExpiry now key) =
    counterOf ((s.entry .untilExpiry now key).counter.getD (.text "0")) := by
  unfold counterIn entry
  cases s.find? .untilExpiry now key <;> rfl

lemma expiry_entry : (s.entry .untilExpiry now key).expiry =
    (s.find? .untilExpiry now key).bind Entry.expiry := by
  unfold entry
  cases s.find? .untilExpiry now key <;> rfl

/-! ### Increments -/

lemma increment_ok {m n : Int} (hm : counterIn (s.find? .untilExpiry now key) = some m)
    (hn : inInt64 n) (hsum : inInt64 (m + n)) : s.increment .untilExpiry now key (.int n) =
      (.ok (.int (m + n)), Assoc.put s key
        { s.entry .untilExpiry now key with counter := some (.text (m + n).repr) }) := by
  rw [counterIn_find?] at hm
  simp [increment, hn, hm, hsum]

lemma increment_error {amount : Value}
    (h : ∀ m n, amount = .int n → counterIn (s.find? .untilExpiry now key) = some m → inInt64 n →
      ¬ inInt64 (m + n)) :
    ∃ e, s.increment .untilExpiry now key amount = (.error e, s) := by
  rw [counterIn_find?] at h
  unfold increment
  split
  · rename_i n
    by_cases hn : inInt64 n
    · simp only [hn, Bool.not_true, Bool.false_eq_true, if_false]
      split
      · exact ⟨_, rfl⟩
      · rename_i m hm
        have hsum : inInt64 (m + n) = false := by simpa using h m n rfl hm hn
        exact ⟨.overflow, by simp [hsum]⟩
    · exact ⟨.notWhole, by simp [hn]⟩
  · exact ⟨_, rfl⟩

lemma increment_cases (s : Store) (now : Int) (key : String) (amount : Value) :
    (∃ m n, amount = .int n ∧ counterIn (s.find? .untilExpiry now key) = some m ∧ inInt64 n ∧
        inInt64 (m + n)) ∨
      ∃ e, s.increment .untilExpiry now key amount = (.error e, s) := by
  by_cases hfits : ∃ m n, amount = .int n ∧ counterIn (s.find? .untilExpiry now key) = some m ∧
      inInt64 n ∧ inInt64 (m + n)
  · exact Or.inl hfits
  · exact Or.inr (increment_error fun m n hint hm hn hsum => hfits ⟨m, n, hint, hm, hn, hsum⟩)

/-! ### Expiries -/

/-- An expiry replaces the one of a key that is there; if it is reached at once, the key is
gone. -/
lemma find?_expire (seconds : Int) :
    (s.expire .untilExpiry now key seconds).find? .untilExpiry now k =
      if key = k then
        ((s.find? .untilExpiry now key).map fun e =>
          { e with expiry := some ⟨now, seconds⟩ }).filter (Entry.live .untilExpiry now)
      else s.find? .untilExpiry now k := by
  unfold expire
  cases h : s.find? .untilExpiry now key with
  | none =>
    by_cases hk : key = k
    · subst hk; simp [h]
    · simp [hk]
  | some e => simp only [find?_put, Option.getD_some, Option.map_some]

end Store

open Store in
lemma laws_expiring : Laws expiring shown where
  later s now now' k hle := (filter_live_later hle _).symm
  other now c s k hk := by
    cases c with
    | increment key amount =>
      rcases increment_cases s now key amount with ⟨m, n, rfl, hm, hn, hsum⟩ | ⟨e, he⟩
      · simp only [expiring, exec, increment_ok hm hn hsum]
        exact (find?_put _).trans (if_neg hk)
      · simp only [expiring, exec, he]
    | expire key seconds =>
      exact (find?_expire seconds).trans (if_neg hk)
    | read key => rfl
  refused now c s e s' hrun k := by
    cases c with
    | increment key amount =>
      rcases increment_cases s now key amount with ⟨m, n, rfl, hm, hn, hsum⟩ | ⟨e, he⟩
      · simp only [expiring, exec, increment_ok hm hn hsum] at hrun
        cases hrun
      · simp only [expiring, exec, he] at hrun
        cases hrun
        rfl
    | expire key seconds => cases hrun
    | read key => cases hrun
  increment now key amount s v s' hrun := by
    rcases increment_cases s now key amount with ⟨m, n, rfl, hm, hn, hsum⟩ | ⟨e, he⟩
    · simp only [expiring, exec, increment_ok hm hn hsum] at hrun
      cases hrun
      refine ⟨m, n, rfl, rfl, hm, hn, hsum, ?_⟩
      rw [shown, find?_put, if_pos rfl, ← expiry_entry]
      exact if_pos live_entry
    · simp only [expiring, exec, he] at hrun
      cases hrun
  expire now key seconds s v s' hrun := by
    cases hrun
    exact (find?_expire seconds).trans (if_pos rfl)
  read now key s v s' hrun := by
    cases hrun
    refine ⟨?_, fun k => rfl⟩
    unfold shown Store.read entry
    cases s.find? .untilExpiry now key <;> rfl

lemma serves_expiring (ttl : Int) : Serves expiring shown ttl where
  toLaws := laws_expiring
  kept _ _ _ := ⟨_, _, rfl⟩
  counted _ _ _ _ _ hm hn hsum := ⟨_, _, Store.increment_ok hm hn hsum⟩
  told _ _ _ := ⟨_, _, rfl⟩

end Entitlement.Tally
