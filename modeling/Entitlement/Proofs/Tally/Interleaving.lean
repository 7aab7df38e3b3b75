import Entitlement.Proofs.Tally.Tracking

/-!
Concurrent additions lose nothing and count nothing twice.

Whatever the order of the turns, the store counts at each key what the calls that were counted
there add up to, and each call is answered the sum up to its own increment.
-/

namespace Entitlement.Tally

/-! ### Totals -/

section Totals

variable {ι σ : Type} [DecidableEq ι] [Fintype ι] {view : View σ} {owner : ι → Value}
  {count : ι → Int} {ttl start : Int} {ms : List (Move ι)} {s : Scene ι σ} {i : ι}

lemma Tracks.finished (h : Tracks view owner count ttl start ms s) {r : Except Error Int}
    (hphase : s.phase i = .finished r) : ∃ (k : String) (j : Nat) (t : Int), r = .ok t ∧
      keyOf owner start ms i = some k ∧ s.wire[j]? = some (Call.increment count i k t) ∧
      t = added k (s.wire.take (j + 1)) := by
  have hstage := h.stage i
  unfold Stage at hstage
  split at hstage
  · rw [hstage.2] at hphase
    cases hphase
  · obtain ⟨k, -, hkeyed⟩ := hstage
    rw [hkeyed] at hphase
    cases hphase
  · obtain ⟨k, j, t, -, -, -, -, hcounted⟩ := hstage
    rw [hcounted] at hphase
    cases hphase
  · obtain ⟨k, j, t, hkey, hwire, hfinished⟩ := hstage
    rw [hfinished] at hphase
    obtain ⟨-, hreply⟩ := h.replied j _ k _ hwire rfl
    refine ⟨k, j, t, (Phase.finished.inj hphase).symm, hkey, hwire, ?_⟩
    simpa [Call.increment] using hreply

lemma Tracks.gain_nonneg (h : Tracks view owner count ttl start ms s) (hcount : ∀ i, 1 ≤ count i)
    {e : Exchange ι} (he : e ∈ s.wire) (key : String) : 0 ≤ e.gain key := by
  obtain ⟨j, hj⟩ := List.mem_iff_getElem?.1 he
  unfold Exchange.gain
  split
  · next k n hcommand =>
    obtain ⟨hn, -⟩ := h.replied j e k _ hj hcommand
    obtain rfl : n = count e.caller := by simpa using hn
    have := hcount e.caller
    split <;> omega
  · exact le_refl 0

lemma Tracks.total_lt (h : Tracks view owner count ttl start ms s) (hcount : ∀ i, 1 ≤ count i)
    {j j' : Nat} (hj : j < j') {k : String} {t : Int}
    (hwire : s.wire[j']? = some (Call.increment count i k t)) :
    added k (s.wire.take (j + 1)) < added k (s.wire.take (j' + 1)) := by
  have hgain : (Call.increment count i k t).gain k = count i := if_pos rfl
  have hsplit : s.wire.take j' = s.wire.take (j + 1) ++ (s.wire.take j').drop (j + 1) := by
    conv_lhs => rw [← List.take_append_drop (j + 1) (s.wire.take j'), List.take_take,
      min_eq_left (by omega)]
  have hrest : 0 ≤ added k ((s.wire.take j').drop (j + 1)) := by
    apply List.sum_nonneg
    intro n hn
    obtain ⟨e, he, rfl⟩ := List.mem_map.1 hn
    exact h.gain_nonneg hcount (List.mem_of_mem_take (List.mem_of_mem_drop he)) k
  have hle : added k (s.wire.take (j + 1)) ≤ added k (s.wire.take j') := by
    rw [hsplit]
    simp only [added, List.map_append, List.sum_append] at hrest ⊢
    omega
  have hpos := hcount i
  rw [added_take_succ hwire, hgain]
  omega

lemma Tracks.total_ne (h : Tracks view owner count ttl start ms s) (hcount : ∀ i, 1 ≤ count i)
    {i' : ι} (hne : i ≠ i') {k : String} (hkey : keyOf owner start ms i = some k)
    (hkey' : keyOf owner start ms i' = some k) {t t' : Int} (ht : s.phase i = .finished (.ok t))
    (ht' : s.phase i' = .finished (.ok t')) : t ≠ t' := by
  obtain ⟨k₁, j, t₁, hr, hk, hwire, htotal⟩ := h.finished ht
  obtain ⟨k₂, j', t₂, hr', hk', hwire', htotal'⟩ := h.finished ht'
  obtain rfl : k₁ = k := Option.some.inj (hk.symm.trans hkey)
  obtain rfl : k₂ = k₁ := Option.some.inj (hk'.symm.trans hkey')
  obtain rfl : t = t₁ := Except.ok.inj hr
  obtain rfl : t' = t₂ := Except.ok.inj hr'
  rcases Nat.lt_trichotomy j j' with hj | rfl | hj
  · have := h.total_lt hcount hj hwire'
    omega
  · rw [hwire] at hwire'
    exact absurd (congrArg Exchange.caller (Option.some.inj hwire')) hne
  · have := h.total_lt hcount hj hwire
    omega

lemma Tracks.sent_iff (h : Tracks view owner count ttl start ms s) (k : String) :
    (∃ e ∈ s.wire, e.caller = i ∧ e.command = .increment k (.int (count i))) ↔
      2 ≤ turns i ms ∧ keyOf owner start ms i = some k := by
  constructor
  · rintro ⟨e, he, rfl, hcommand⟩
    refine ⟨h.sent e he, ?_⟩
    rw [h.addressed e he, hcommand]
    rfl
  · rintro ⟨hturns, hkey⟩
    have hstage := h.stage i
    unfold Stage at hstage
    split at hstage
    · omega
    · omega
    all_goals
      obtain ⟨k', j, t, hk, hwire, -⟩ := hstage
      obtain rfl : k' = k := Option.some.inj (hk.symm.trans hkey)
      exact ⟨_, List.mem_of_getElem? hwire, rfl, rfl⟩

end Totals

/-! ### Main result -/

section Main

variable {ι σ : Type} [DecidableEq ι] [Fintype ι] {exec : Backend σ} {view : View σ}
  {owner : ι → Value} {count : ι → Int} {ttl : Int} {w : World σ} {ms : List (Move ι)}

/-- What the calls of a schedule add up to depends only on who was counted on which day. -/
lemma counted_congr (owner : ι → Value) (count : ι → Int) {ms' : List (Move ι)} {start : Int}
    (hturns : ∀ i, 3 ≤ turns i ms ∧ 3 ≤ turns i ms')
    (hday : ∀ i, (began start i ms).map dayOf = (began start i ms').map dayOf) (key : String) :
    counted owner count start ms' key = counted owner count start ms key := by
  have hkey (i : ι) : keyOf owner start ms' i = keyOf owner start ms i := by
    have hkeyOf (ms : List (Move ι)) : keyOf owner start ms i =
        ((began start i ms).map dayOf).map (dayKey (owner i).display) := by
      rw [keyOf, Option.map_map]
      rfl
    rw [hkeyOf, hkeyOf, hday]
  have hran (i : ι) : 2 ≤ turns i ms' ↔ 2 ≤ turns i ms := by
    obtain ⟨h, h'⟩ := hturns i
    exact iff_of_true (by omega) (by omega)
  simp only [counted, hkey, hran]

/-- **Concurrent additions**: calls that add to counters of a store that serves and is empty, in
turns of any order with readings and time in between, lose no count and count none twice, as long as
the time that passes is shorter than counters are kept and no counter is too large to be stored. In
every state each counter is the sum of the counts of the calls that were counted there; a call that
has finished answers what its key was counted up to, and different calls on one key answer
differently; all commands of a call address the key of the day on which it began; and once all calls
have finished, the counters depend on those days only and not on the order of the turns. -/
theorem concurrent_additions (hserves : Serves exec view ttl) (hstart : Starts view w)
    (hcount : ∀ i, 1 ≤ count i) (howner : ∀ i, (owner i).writable = true)
    (helapsed : elapsed ms < microsPerDay * ttl)
    (hfit : ∀ k, counted owner count w.now ms k ≤ int64Max) :
    let s := play exec ttl (wholeCalls owner count) w ms
    (∀ k, s.counterAt view k = some (counted owner count w.now ms k)) ∧
      (∀ i k, (∃ e ∈ s.wire, e.caller = i ∧ e.command = .increment k (.int (count i))) ↔
        2 ≤ turns i ms ∧ keyOf owner w.now ms i = some k) ∧
      (∀ i, 3 ≤ turns i ms → ∃ (k : String) (j : Nat) (t : Int),
        s.wire[j]? = some ⟨i, .increment k (.int (count i)), .ok (.int t)⟩ ∧
        t = added k (s.wire.take (j + 1)) ∧ s.phase i = .finished (.ok t)) ∧
      (∀ i i' k t t', i ≠ i' → keyOf owner w.now ms i = some k →
        keyOf owner w.now ms i' = some k → s.phase i = .finished (.ok t) →
        s.phase i' = .finished (.ok t') → t ≠ t') ∧
      (∀ e ∈ s.wire, ∃ t, began w.now e.caller ms = some t ∧
        e.command.key = keyAt (owner e.caller) t) ∧
      ∀ ms', elapsed ms' < microsPerDay * ttl → (∀ i, 3 ≤ turns i ms ∧ 3 ≤ turns i ms') →
        (∀ i, (began w.now i ms).map dayOf = (began w.now i ms').map dayOf) →
        ∀ k, (play exec ttl (wholeCalls owner count) w ms').counterAt view k =
          s.counterAt view k := by
  intro s
  have h : Tracks view owner count ttl w.now ms s :=
    tracks_play hserves hstart hcount howner helapsed hfit
  have hcounter (k : String) : s.counterAt view k = some (counted owner count w.now ms k) :=
    (h.kept.counts k).counterIn
  refine ⟨hcounter, fun i k => h.sent_iff k, fun i hturns => ?_, ?_, fun e he => ?_, ?_⟩
  · obtain ⟨n, hn⟩ := Nat.exists_eq_add_of_le' hturns
    have hstage := h.stage i
    rw [hn] at hstage
    obtain ⟨_, _, _, -, -, hphase⟩ := hstage
    obtain ⟨k, j, t, hr, -, hwire, ht⟩ := h.finished hphase
    rw [hr] at hphase
    exact ⟨k, j, t, hwire, ht, hphase⟩
  · intro i i' k t t' hne hkey hkey' ht ht'
    exact h.total_ne hcount hne hkey hkey' ht ht'
  · obtain ⟨t, ht, hkey⟩ := Option.map_eq_some_iff.1 (h.addressed e he)
    exact ⟨t, ht, hkey.symm⟩
  · intro ms' helapsed' hturns hday k
    have hsame := counted_congr owner count hturns hday
    have h' : Tracks view owner count ttl w.now ms' _ :=
      tracks_play hserves hstart hcount howner helapsed' fun k => (hsame k).trans_le (hfit k)
    rw [hcounter, ← hsame]
    exact (h'.kept.counts k).counterIn

/-- Two calls for one owner that begin before midnight and are counted after it, in turns and one
after the other. -/
theorem two_calls_across_midnight :
    let owner : Bool → Value := fun _ => .text "ada"
    let count : Bool → Int := fun b => if b then 3 else 2
    let w : World Store := ⟨1709942390000000, [], Log.fresh⟩
    let ms : List (Move Bool) := [.turn false, .turn true, .wait 20000000, .turn true, .turn false,
      .today (.text "ada"), .turn false, .turn true]
    let ms' : List (Move Bool) := [.turn false, .turn false, .turn false, .turn true, .turn true,
      .turn true]
    ∃ s t t', s = play expiring 1 (wholeCalls owner count) w ms ∧
      s.counterAt shown (keyAt (.text "ada") w.now) = some 5 ∧ s.phase false = .finished (.ok t) ∧
      s.phase true = .finished (.ok t') ∧ t ≠ t' ∧
      (play expiring 1 (wholeCalls owner count) w ms').counterAt shown (keyAt (.text "ada") w.now) =
        some 5 := by
  intro owner count w ms ms'
  have hcount (i : Bool) : 1 ≤ count i := by cases i <;> decide
  have hstart : Starts shown w := ⟨fun _ => rfl, rfl⟩
  have hfit (k : String) : counted owner count w.now ms k ≤ int64Max :=
    (counted_le_sum hcount k).trans (by decide)
  obtain ⟨hcounter, -, htotal, hne, -, hfinal⟩ := concurrent_additions
    (serves_expiring 1) hstart hcount (fun _ => rfl)
    (by decide : (elapsed ms : Int) < microsPerDay * 1) hfit
  have hkey (i : Bool) : keyOf owner w.now ms i = some (keyAt (.text "ada") w.now) := by
    cases i <;> rfl
  have hfive : counted owner count w.now ms (keyAt (.text "ada") w.now) = 5 := by
    simp only [counted, hkey, and_true]
    decide
  obtain ⟨-, -, t, -, -, ht⟩ := htotal false (by decide)
  obtain ⟨-, -, t', -, -, ht'⟩ := htotal true (by decide)
  have hfirst := hcounter (keyAt (.text "ada") w.now)
  rw [hfive] at hfirst
  have hsecond := hfinal ms' (by decide) (by decide) (by decide) (keyAt (.text "ada") w.now)
  exact ⟨_, t, t', rfl, hfirst, ht, ht', hne _ _ _ t t' (by decide) (hkey _) (hkey _) ht ht',
    hsecond.trans hfirst⟩

end Main

end Entitlement.Tally
