import Entitlement.Proofs.Tally.Run

/-!
The daily quota over whole runs.

Within a day a total only grows, so a denial lasts for the day. An addition that a verdict of the
moment before leaves room for keeps the total within the quota: that is the one step of an
induction on the run.
-/

namespace Entitlement.Tally

def dailyCap (p : Plan) : Int := ((Tables.shipped.limits p).get .scansPerDay).toInt

lemma dailyCap_nonneg {p : Plan} (hcap : dailyCap p ≠ unlimited) : 0 ≤ dailyCap p := by
  cases p with
  | enterprise => exact absurd rfl hcap
  | _ => decide

/-- The verdict on a total of a day, but for the share of the cap. -/
def dailyVerdict (p : Plan) (n percent : Int) : Verdict :=
  ⟨.scansPerDay, .int n, (Tables.shipped.limits p).get .scansPerDay, decide (n < dailyCap p),
    percent, some (.int (max (dailyCap p - n) 0))⟩

variable {σ : Type} {exec : Backend σ} {view : View σ} {ttl : Int} {start : World σ}
  {ops : List Op} {owner plan : Value} {p : Plan}

lemma verdict_answer (hserves : Serves exec view ttl) (httl : 1 ≤ ttl) (hstart : Starts view start)
    (hfit : ∀ account day, total (recorded start.now ops) account day ≤ int64Max)
    (howner : owner.writable = true) {i : Nat} (ho : ops[i]? = some (.assess owner plan))
    (hp : Plan.ofValue plan = .ok p) (hcap : dailyCap p ≠ unlimited) :
    ∃ percent, (run exec ttl start ops).1[i]? = some (.ok (.verdict
      (dailyVerdict p (tallied start.now (ops.take i) owner.display) percent))) := by
  have h0 := tallied_nonneg start.now (ops.take i) owner.display
  obtain ⟨percent, hpercent⟩ :=
    percentOf_isOk (w := .int (tallied start.now (ops.take i) owner.display)) h0 (by omega)
      (natAbs_tallied_lt hfit i owner.display) ((Tables.shipped.limits p).get .scansPerDay).toInt
  refine ⟨percent, ?_⟩
  rw [assess_answer hserves httl hstart hfit howner ho hp, assess_of_plan hp _ h0,
    judge_capped _ _ hcap,
    hpercent]
  rfl

/-! ### Totals along a run -/

lemma tallied_mono {start : Int} {i j : Nat} (hij : i ≤ j)
    (hday : dayOf (clock start (ops.take i)) = dayOf (clock start (ops.take j)))
    (account : String) :
    tallied start (ops.take i) account ≤ tallied start (ops.take j) account := by
  have htake : ops.take i = (ops.take j).take i := by rw [List.take_take, min_eq_left hij]
  rw [tallied, tallied, ← hday, htake]
  exact total_recorded_take_le start (ops.take j) i

lemma total_recorded_take_succ {start : Int} {i : Nat} {o : Op} (ho : ops[i]? = some o)
    (account : String) (day : Int) : total (recorded start (ops.take (i + 1))) account day =
      total (recorded start (ops.take i)) account day +
        total (o.deeds (clock start (ops.take i))) account day := by
  rw [recorded_take_succ start ho, total_append]

lemma tallied_take_succ_assess {start : Int} {i : Nat} (ho : ops[i]? = some (.assess owner plan))
    (account : String) :
    tallied start (ops.take (i + 1)) account = tallied start (ops.take i) account := by
  have hclock : clock start (ops.take (i + 1)) = clock start (ops.take i) := by
    rw [List.take_add_one, ho, Option.toList_some, clock_append]
    exact Int.add_zero _
  rw [tallied, tallied, hclock, total_recorded_take_succ ho]
  exact Int.add_zero _

/-- What an operation adds to a total is nothing, or the count of an addition for that account
on that day. -/
lemma total_deeds_cases (o : Op) (now : Int) (account : String) (day : Int) :
    total (o.deeds now) account day = 0 ∨ ∃ owner n, o = .add owner (.int n) ∧ 1 ≤ n ∧
      owner.writable = true ∧ owner.display = account ∧ dayOf now = day ∧
      total (o.deeds now) account day = n := by
  unfold Op.deeds
  split
  · next owner n =>
    by_cases hdeed : 1 ≤ n ∧ owner.writable = true
    · rw [if_pos hdeed, total_singleton]
      by_cases hkey : owner.display = account ∧ dayOf now = day
      · exact Or.inr ⟨owner, n, rfl, hdeed.1, hdeed.2, hkey.1, hkey.2, if_pos hkey⟩
      · exact Or.inl (if_neg hkey)
    · exact Or.inl (by rw [if_neg hdeed, total_nil])
  · exact Or.inl rfl

/-- One more operation keeps the totals of an account within a cap if, being an addition, it fits
into what the day has left. -/
lemma total_take_succ_le {start : Int} {i : Nat} {account : String} {cap : Int}
    (hroom : ∀ (owner : Value) (n : Int), ops[i]? = some (.add owner (.int n)) → 1 ≤ n →
      owner.writable = true → owner.display = account →
        tallied start (ops.take i) account + n ≤ cap)
    (hle : ∀ day, total (recorded start (ops.take i)) account day ≤ cap) (day : Int) :
    total (recorded start (ops.take (i + 1))) account day ≤ cap := by
  cases ho : ops[i]? with
  | none =>
    have htake : ops.take (i + 1) = ops.take i := by
      rw [List.take_add_one, ho, Option.toList_none, List.append_nil]
    rw [htake]
    exact hle day
  | some o =>
    rw [total_recorded_take_succ ho]
    rcases total_deeds_cases o (clock start (ops.take i)) account day with
      h | ⟨owner, n, rfl, h1, howner, hacc, rfl, h⟩
    · have := hle day
      omega
    · rw [h]
      exact hroom owner n ho h1 howner hacc

/-! ### The quota -/

/-- A verdict in a run that allows an addition of `n` leaves room for it in the total of the
day. -/
lemma room_of_allowed (hserves : Serves exec view ttl) (httl : 1 ≤ ttl)
    (hstart : Starts view start)
    (hfit : ∀ account day, total (recorded start.now ops) account day ≤ int64Max)
    (howner : owner.writable = true) {i : Nat} (ho : ops[i]? = some (.assess owner plan))
    (hp : Plan.ofValue plan = .ok p) (hcap : dailyCap p ≠ unlimited) {v : Verdict} {left n : Int}
    (hv : (run exec ttl start ops).1[i]? = some (.ok (.verdict v)))
    (hallowed : v.allowed = true) (hleft : v.left = some (.int left)) (hn : n ≤ left) :
    tallied start.now (ops.take i) owner.display + n ≤ dailyCap p := by
  obtain ⟨percent, hans⟩ := verdict_answer hserves httl hstart hfit howner ho hp hcap
  rw [hans] at hv
  obtain rfl : dailyVerdict p (tallied start.now (ops.take i) owner.display) percent = v := by
    simpa using hv
  have hlt : tallied start.now (ops.take i) owner.display < dailyCap p := of_decide_eq_true hallowed
  have hroom : max (dailyCap p - tallied start.now (ops.take i) owner.display) 0 = left := by
    simpa [dailyVerdict] using hleft
  omega

/-- **Daily quota**: on a store that serves, in a run from nothing, with counters kept for a day or
more and no total too large to be stored, for every plan with a limit: a denial lasts for the rest
of the day, also under any plan that gives no more; if each addition for an account follows an
assessment that leaves room for it, no day's total exceeds the limit; and an assessment on a day
without records allows everything. -/
theorem daily_quota (hserves : Serves exec view ttl) (httl : 1 ≤ ttl) (hstart : Starts view start)
    (hfit : ∀ account day, total (recorded start.now ops) account day ≤ int64Max)
    (owner : Value) (howner : owner.writable = true) (p : Plan) (hcap : dailyCap p ≠ unlimited) :
    (∀ i j plan plan' q v, i ≤ j → ops[i]? = some (.assess owner plan) →
        ops[j]? = some (.assess owner plan') → Plan.ofValue plan = .ok p →
        Plan.ofValue plan' = .ok q → dailyCap q ≠ unlimited → dailyCap q ≤ dailyCap p →
        dayOf (clock start.now (ops.take i)) = dayOf (clock start.now (ops.take j)) →
        (run exec ttl start ops).1[i]? = some (.ok (.verdict v)) → v.allowed = false →
        ∃ v', (run exec ttl start ops).1[j]? = some (.ok (.verdict v')) ∧
          v'.allowed = false) ∧
      ((∀ (j : Nat) (owner' : Value) (n : Int), ops[j]? = some (.add owner' (.int n)) → 1 ≤ n →
          owner'.writable = true → owner'.display = owner.display →
          ∃ (i : Nat) (plan : Value) (v : Verdict) (left : Int),
            i + 1 = j ∧ ops[i]? = some (.assess owner plan) ∧ Plan.ofValue plan = .ok p ∧
            (run exec ttl start ops).1[i]? = some (.ok (.verdict v)) ∧ v.allowed = true ∧
            v.left = some (.int left) ∧ n ≤ left) →
        ∀ i, (∀ day, total (recorded start.now (ops.take i)) owner.display day ≤ dailyCap p) ∧
          ∃ n ≤ dailyCap p,
            (today exec owner (run exec ttl start (ops.take i)).2).1 = .ok n) ∧
      (∀ i plan, 1 ≤ dailyCap p → ops[i]? = some (.assess owner plan) →
        Plan.ofValue plan = .ok p →
        (∀ d ∈ recorded start.now (ops.take i), d.account = owner.display →
          dayOf d.time ≠ dayOf (clock start.now (ops.take i))) →
        ∃ v, (run exec ttl start ops).1[i]? = some (.ok (.verdict v)) ∧ v.allowed = true ∧
          v.left = some (.int (dailyCap p))) := by
  refine ⟨?_, ?_, ?_⟩
  -- a denial lasts, since the total of the day only grows
  · intro i j plan plan' q v hij hi hj hp hq hcap' hle hday hv hdenied
    obtain ⟨percent, hans⟩ := verdict_answer hserves httl hstart hfit howner hi hp hcap
    obtain ⟨percent', hans'⟩ := verdict_answer hserves httl hstart hfit howner hj hq hcap'
    rw [hans] at hv
    obtain rfl : dailyVerdict p (tallied start.now (ops.take i) owner.display) percent = v := by
      simpa using hv
    have hge : ¬ tallied start.now (ops.take i) owner.display < dailyCap p :=
      of_decide_eq_false hdenied
    have hmono := tallied_mono hij hday owner.display
    exact ⟨_, hans', decide_eq_false (by omega)⟩
  -- additions that were checked stay within the limit, by induction on the position
  · intro hcheck i
    have hle (day : Int) :
        total (recorded start.now (ops.take i)) owner.display day ≤ dailyCap p := by
      induction i generalizing day with
      | zero => exact dailyCap_nonneg hcap
      | succ i ih =>
        refine total_take_succ_le (fun owner' n ho h1 howner' hacc => ?_) ih day
        obtain ⟨i, plan, v, left, rfl, hi, hp, hv, hallowed, hleft, hn⟩ :=
          hcheck i owner' n ho h1 howner' hacc
        rw [tallied_take_succ_assess hi]
        exact room_of_allowed hserves httl hstart hfit howner hi hp hcap hv hallowed hleft hn
    refine ⟨hle, _, hle (dayOf (clock start.now (ops.take i))), ?_⟩
    rw [today_of_reading]
    exact reading_take hserves httl hstart hfit howner i
  -- a day without records begins with the whole limit
  · intro i plan h1 hi hp hnone
    obtain ⟨percent, hans⟩ := verdict_answer hserves httl hstart hfit howner hi hp hcap
    have hzero : tallied start.now (ops.take i) owner.display = 0 := by
      rw [tallied, total, List.filter_eq_nil_iff.2]
      · rfl
      · intro d hd
        have := hnone d hd
        simpa using this
    rw [hzero] at hans
    refine ⟨_, hans, decide_eq_true (by omega), ?_⟩
    rw [dailyVerdict, Int.sub_zero, max_eq_left (by omega)]

/-- A day whose quota is used up at once, and the day after. -/
theorem quota_used_up :
    let start : World Store := ⟨1709942400000000, [], Log.fresh⟩
    let ops : List Op := [.assess (.text "ada") (.plan .starter), .add (.text "ada") (.int 3),
      .assess (.text "ada") (.plan .starter), .wait 60000000,
      .assess (.text "ada") (.plan .starter), .wait 86400000000,
      .assess (.text "ada") (.plan .starter)]
    let answers := (run expiring 1 start ops).1
    (∃ v, answers[4]? = some (.ok (.verdict v)) ∧ v.allowed = false) ∧
      (∀ i, (∀ day, total (recorded start.now (ops.take i)) "ada" day ≤ 3) ∧ ∃ n ≤ 3,
        (today expiring (.text "ada") (run expiring 1 start (ops.take i)).2).1 = .ok n) ∧
      ∃ v, answers[6]? = some (.ok (.verdict v)) ∧ v.allowed = true ∧ v.left = some (.int 3) := by
  intro start ops answers
  have hfit (account : String) (day : Int) :
      total (recorded start.now ops) account day ≤ int64Max :=
    (total_le_sum fun _ => count_pos_of_mem_recorded).trans (by decide)
  have hp := Plan.ofValue_plan .starter
  have hcap : dailyCap .starter ≠ unlimited := by decide
  have hserves := serves_expiring 1
  have hstart : Starts shown start := ⟨fun _ => rfl, rfl⟩
  obtain ⟨hdenial, hbound, hfresh⟩ := daily_quota hserves (le_refl (1 : Int)) hstart hfit
    (.text "ada") rfl .starter hcap
  have hverdict (i : Nat) (hi : ops[i]? = some (.assess (.text "ada") (.plan .starter))) :=
    verdict_answer hserves (le_refl (1 : Int)) hstart hfit rfl hi hp hcap
  refine ⟨?_, hbound ?_, hfresh 6 (.plan .starter) (by decide) rfl hp (by decide)⟩
  · obtain ⟨percent, hv⟩ := hverdict 2 rfl
    exact hdenial 2 4 (.plan .starter) (.plan .starter) .starter _ (by decide) rfl rfl hp hp hcap
      le_rfl rfl hv rfl
  · intro j owner n ho h1 howner hacc
    obtain ⟨percent, hv⟩ := hverdict 0 rfl
    rcases j with _ | _ | _ | _ | _ | _ | _ | j <;> simp [ops] at ho
    obtain ⟨rfl, rfl⟩ := ho
    exact ⟨0, .plan .starter, _, 3, rfl, rfl, hp, hv, rfl, rfl, le_rfl⟩

end Entitlement.Tally
