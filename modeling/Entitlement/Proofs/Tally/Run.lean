import Entitlement.Proofs.Tally.Ledger
import Entitlement.Proofs.Tally.Store

/-!
Runs answer what was recorded.

One operation keeps the store true to the records; so does a whole run, by induction on it. What
an operation of a run answers is then read off the records of the operations before it.
-/

namespace Entitlement.Tally

open Value (fieldsWritable)

section Backend

variable {σ : Type} (exec : Backend σ) (ttl : Int)

lemma step_add (w : World σ) (owner count : Value) : step exec ttl w (.add owner count) =
    ((add exec ttl owner count w).1.map .total, (add exec ttl owner count w).2) := rfl

lemma step_today (w : World σ) (owner : Value) : step exec ttl w (.today owner) =
    ((today exec owner w).1.map .count, (today exec owner w).2) := rfl

lemma step_assess (w : World σ) (owner plan : Value) : step exec ttl w (.assess owner plan) =
    ((assess exec owner plan w).1.map .verdict, (assess exec owner plan w).2) := rfl

variable {exec ttl} in
lemma bound_step {w : World σ} (hlog : fieldsWritable w.log.context = true) (o : Op) :
    fieldsWritable (step exec ttl w o).2.log.context = true := by
  rw [step_context, hlog]

lemma run_context (w : World σ) (ops : List Op) :
    (run exec ttl w ops).2.log.context = w.log.context := by
  induction ops generalizing w with
  | nil => rfl
  | cons o ops ih => exact (ih _).trans (step_context exec ttl w o)

/-- The answer at a position is that of the operation there, in the world that the operations
before it lead to. -/
lemma run_getElem? (w : World σ) (ops : List Op) (i : Nat) :
    (run exec ttl w ops).1[i]? =
      ops[i]?.map fun o => (step exec ttl (run exec ttl w (ops.take i)).2 o).1 := by
  induction ops generalizing w i with
  | nil => simp
  | cons o ops ih =>
    cases i with
    | zero => simp
    | succ i =>
      rw [run_cons, List.getElem?_cons_succ, List.getElem?_cons_succ, List.take_succ_cons, run_cons]
      exact ih _ _

end Backend

/-! ### One operation -/

variable {σ : Type} {exec : Backend σ} {view : View σ} {ttl : Int} {w : World σ} {ds : List Deed}
  {owner count : Value} {n : Int}

lemma inInt64_total (hpos : ∀ d ∈ ds, 1 ≤ d.count) {account : String} {day : Int}
    (hfit : total ds account day ≤ int64Max) : inInt64 (total ds account day) :=
  inInt64_of_nonneg (total_nonneg hpos account day) hfit

lemma Holds.after_add (h : Holds view ttl w.now w.store ds) (hserves : Serves exec view ttl)
    (hlog : fieldsWritable w.log.context = true) (httl : 1 ≤ ttl) (howner : owner.writable = true)
    (h1 : 1 ≤ n) (hfit : total ds owner.display (dayOf w.now) + n ≤ int64Max) :
    (add exec ttl owner (.int n) w).1 = .ok (total ds owner.display (dayOf w.now) + n) ∧
      Holds view ttl w.now (add exec ttl owner (.int n) w).2.store
        (ds ++ [⟨owner.display, w.now, n⟩]) := by
  have h0 := total_nonneg h.pos owner.display (dayOf w.now)
  have hsum : inInt64 (total ds owner.display (dayOf w.now) + n) :=
    inInt64_of_nonneg (by omega) hfit
  have hraises := hserves.raises hlog h1 howner (h.counts httl owner.display).counterIn
    (inInt64_of_nonneg (by omega) (by omega)) hsum
  exact ⟨hraises.answer, h.snoc h1 hraises.after⟩

lemma Holds.reading_eq (h : Holds view ttl w.now w.store ds) (hserves : Serves exec view ttl)
    (httl : 1 ≤ ttl) (howner : owner.writable = true)
    (hfit : total ds owner.display (dayOf w.now) ≤ int64Max) :
    (reading exec owner w.now w.store).1 = .ok (total ds owner.display (dayOf w.now)) := by
  refine hserves.reading_of_counts howner ?_ (inInt64_total h.pos hfit)
  rw [keyAt_eq]
  exact h.counts httl owner.display

lemma deeds_of_refused {now : Int} (hc : ∀ n, count = .int n → 1 ≤ n → ¬ owner.writable = true) :
    (Op.add owner count).deeds now = [] := by
  unfold Op.deeds
  split
  · next h =>
    obtain ⟨rfl, rfl⟩ := Op.add.inj h
    exact if_neg fun ⟨h1, howner⟩ => hc _ rfl h1 howner
  · rfl

theorem Holds.after_step (h : Holds view ttl w.now w.store ds) (hserves : Serves exec view ttl)
    (hlog : fieldsWritable w.log.context = true) (httl : 1 ≤ ttl) (o : Op)
    (hfit : ∀ account day, total (ds ++ o.deeds w.now) account day ≤ int64Max) :
    Holds view ttl (step exec ttl w o).2.now (step exec ttl w o).2.store
      (ds ++ o.deeds w.now) := by
  rw [step_now]
  cases o with
  | add owner count =>
    have hnow : w.now + (Op.add owner count).micros = w.now := Int.add_zero _
    rw [step_add, hnow]
    by_cases hc : ∃ n, count = .int n ∧ 1 ≤ n ∧ owner.writable = true
    · obtain ⟨n, rfl, h1, howner⟩ := hc
      have hdeeds : (Op.add owner (.int n)).deeds w.now = [⟨owner.display, w.now, n⟩] :=
        if_pos ⟨h1, howner⟩
      have hday := hfit owner.display (dayOf w.now)
      rw [hdeeds, total_append, total_singleton, if_pos ⟨rfl, rfl⟩] at hday
      rw [hdeeds]
      exact (h.after_add hserves hlog httl howner h1 hday).2
    · rw [deeds_of_refused fun n hn h1 howner => hc ⟨n, hn, h1, howner⟩, List.append_nil]
      rcases hserves.add_cases hlog owner count with ⟨m, n, hraises⟩ | ⟨-, hview, -⟩
      · exact absurd ⟨n, hraises.count_eq, hraises.pos, hraises.writable⟩ hc
      · exact h.congr hview
  | today _ | assess _ _ | wait _ =>
    -- nothing is recorded, and what is shown can only grow old
    simp only [Op.deeds, List.append_nil]
    exact (h.congr (hserves.view_step ttl w (by nofun))).later hserves.toLaws
      (Int.le_add_of_nonneg_right (Int.natCast_nonneg _))

/-! ### Whole runs -/

lemma run_now (exec : Backend σ) (ttl : Int) (w : World σ) (ops : List Op) :
    (run exec ttl w ops).2.now = clock w.now ops := by
  induction ops generalizing w with
  | nil => rfl
  | cons o ops ih =>
    rw [run_cons, ih, step_now]
    rfl

/-- A run keeps the store true to the records, as long as no total is too large to be stored. -/
theorem Holds.after_run (h : Holds view ttl w.now w.store ds) (hserves : Serves exec view ttl)
    (hlog : fieldsWritable w.log.context = true) (httl : 1 ≤ ttl) (ops : List Op)
    (hfit : ∀ account day, total (ds ++ recorded w.now ops) account day ≤ int64Max) :
    Holds view ttl (run exec ttl w ops).2.now (run exec ttl w ops).2.store
      (ds ++ recorded w.now ops) := by
  induction ops generalizing w ds with
  | nil =>
    change Holds view ttl w.now w.store (ds ++ [])
    rwa [List.append_nil]
  | cons o ops ih =>
    have hfirst (account : String) (day : Int) :
        total (ds ++ o.deeds w.now) account day ≤ int64Max := by
      refine le_trans ?_ (hfit account day)
      rw [recorded, ← List.append_assoc]
      exact total_le_append fun d => count_pos_of_mem_recorded
    have hstep := h.after_step hserves hlog httl o hfirst
    rw [recorded, ← List.append_assoc, ← step_now exec ttl] at hfit ⊢
    exact ih hstep (bound_step hlog o) hfit

/-- What a run that is accounted for begins with: nothing in the store, and nothing bound in the log
that cannot be written out. -/
structure Starts (view : View σ) (w : World σ) : Prop where
  empty : ∀ k, view w.store w.now k = none
  bound : fieldsWritable w.log.context = true

variable {start : World σ} {ops : List Op}

/-- Before the operation at any position of a run from nothing, the store is true to the records
so far. -/
lemma holds_take (hserves : Serves exec view ttl) (httl : 1 ≤ ttl) (hstart : Starts view start)
    (hfit : ∀ account day, total (recorded start.now ops) account day ≤ int64Max) (i : Nat) :
    Holds view ttl (run exec ttl start (ops.take i)).2.now
      (run exec ttl start (ops.take i)).2.store (recorded start.now (ops.take i)) :=
  (Holds.of_empty hstart.empty).after_run hserves hstart.bound httl (ops.take i)
    fun account day => (total_recorded_take_le start.now ops i).trans (hfit account day)

lemma Starts.bound_run (h : Starts view start) (exec : Backend σ) (ttl : Int) (os : List Op) :
    fieldsWritable (run exec ttl start os).2.log.context = true := by
  rw [run_context, h.bound]

lemma tallied_le (hfit : ∀ account day, total (recorded start.now ops) account day ≤ int64Max)
    (i : Nat) (account : String) : tallied start.now (ops.take i) account ≤ int64Max :=
  (total_recorded_take_le start.now ops i).trans (hfit account _)

lemma tallied_nonneg (start : Int) (os : List Op) (account : String) :
    0 ≤ tallied start os account :=
  total_nonneg (fun _ => count_pos_of_mem_recorded) account _

lemma natAbs_tallied_lt
    (hfit : ∀ account day, total (recorded start.now ops) account day ≤ int64Max)
    (i : Nat) (account : String) : (tallied start.now (ops.take i) account).natAbs < 2 ^ 63 := by
  have h0 := tallied_nonneg start.now (ops.take i) account
  have h1 := tallied_le hfit i account
  rw [int64Max] at h1
  omega

lemma reading_take (hserves : Serves exec view ttl) (httl : 1 ≤ ttl) (hstart : Starts view start)
    (hfit : ∀ account day, total (recorded start.now ops) account day ≤ int64Max)
    (howner : owner.writable = true) (i : Nat) :
    (reading exec owner (run exec ttl start (ops.take i)).2.now
      (run exec ttl start (ops.take i)).2.store).1 =
        .ok (tallied start.now (ops.take i) owner.display) := by
  have hreading := (holds_take hserves httl hstart hfit i).reading_eq hserves httl howner
    (by rw [run_now]; exact tallied_le hfit i owner.display)
  rw [hreading, run_now]
  rfl

lemma assess_answer (hserves : Serves exec view ttl) (httl : 1 ≤ ttl) (hstart : Starts view start)
    (hfit : ∀ account day, total (recorded start.now ops) account day ≤ int64Max)
    (howner : owner.writable = true) {i : Nat} {plan : Value} {p : Plan}
    (ho : ops[i]? = some (.assess owner plan)) (hp : Plan.ofValue plan = .ok p) :
    (run exec ttl start ops).1[i]? = some ((Tables.shipped.assess plan (.limit .scansPerDay)
      (.int (tallied start.now (ops.take i) owner.display))).map .verdict) := by
  have hreading := reading_take hserves httl hstart hfit howner i
  rw [run_getElem?, ho, Option.map_some, step_assess,
    assess_of_reading (hstart.bound_run exec ttl _) hp hreading]

/-- **Daily accounting**: on a store that serves, in a run from nothing, with counters kept for a
day or more and no total too large to be stored, every addition answers the total of the day with
itself, every reading answers exactly that total, and every assessment is the verdict on it. -/
theorem answers_of_recorded (hserves : Serves exec view ttl) (httl : 1 ≤ ttl)
    (hstart : Starts view start)
    (hfit : ∀ account day, total (recorded start.now ops) account day ≤ int64Max)
    (i : Nat) (owner : Value) (howner : owner.writable = true) :
    (∀ n : Int, ops[i]? = some (.add owner (.int n)) → 1 ≤ n →
        (run exec ttl start ops).1[i]? =
          some (.ok (.total (tallied start.now (ops.take i) owner.display + n)))) ∧
      (ops[i]? = some (.today owner) → (run exec ttl start ops).1[i]? =
        some (.ok (.count (tallied start.now (ops.take i) owner.display)))) ∧
      (∀ plan p, ops[i]? = some (.assess owner plan) → Plan.ofValue plan = .ok p →
        ∃ v, Tables.shipped.assess plan (.limit .scansPerDay)
            (.int (tallied start.now (ops.take i) owner.display)) = .ok v ∧
          (run exec ttl start ops).1[i]? = some (.ok (.verdict v))) := by
  refine ⟨fun n ho h1 => ?_, fun ho => ?_, fun plan p ho hp => ?_⟩
  · have hholds := holds_take hserves httl hstart hfit i
    have hnext := (total_recorded_take_le start.now ops (i + 1)).trans
      (hfit owner.display (dayOf (clock start.now (ops.take i))))
    have hdeeds : (Op.add owner (.int n)).deeds (clock start.now (ops.take i)) =
      [⟨owner.display, clock start.now (ops.take i), n⟩] := if_pos ⟨h1, howner⟩
    rw [recorded_take_succ _ ho, hdeeds, total_append, total_singleton, if_pos ⟨rfl, rfl⟩] at hnext
    obtain ⟨hans, -⟩ := hholds.after_add hserves (hstart.bound_run exec ttl _) httl howner h1
      (by rwa [run_now])
    rw [run_getElem?, ho, Option.map_some, step_add, hans, run_now]
    rfl
  · have hreading := reading_take hserves httl hstart hfit howner i
    rw [run_getElem?, ho, Option.map_some, step_today, today_of_reading, hreading]
    rfl
  · obtain ⟨v, hv⟩ := assess_isOk (t := Tables.shipped) hp .scansPerDay
      (tallied_nonneg start.now (ops.take i) owner.display) (by omega)
      (natAbs_tallied_lt hfit i owner.display)
    refine ⟨v, hv, ?_⟩
    rw [assess_answer hserves httl hstart hfit howner ho hp, hv]
    rfl

/-- A record made as a day begins and kept for one day is still there in the last microsecond of the
day, and is gone a microsecond later. -/
theorem answers_around_midnight :
    let start : World Store := ⟨1709942400000000, [], Log.fresh⟩
    let ops : List Op := [.add (.text "ada") (.int 2), .wait 86399999999, .today (.text "ada"),
      .add (.text "ada") (.int 1), .assess (.text "ada") (.plan .starter), .wait 1,
      .today (.text "ada")]
    let answers := (run expiring 1 start ops).1
    answers[2]? = some (.ok (.count 2)) ∧ answers[3]? = some (.ok (.total 3)) ∧
      (∃ v, Tables.shipped.assess (.plan .starter) (.limit .scansPerDay) (.int 3) = .ok v ∧
        answers[4]? = some (.ok (.verdict v))) ∧
      answers[6]? = some (.ok (.count 0)) := by
  intro start ops answers
  have hfit (account : String) (day : Int) :
      total (recorded start.now ops) account day ≤ int64Max :=
    (total_le_sum fun _ => count_pos_of_mem_recorded).trans (by decide)
  have hstart : Starts shown start := ⟨fun _ => rfl, rfl⟩
  have h (i : Nat) := answers_of_recorded (serves_expiring 1) (le_refl (1 : Int)) hstart hfit i
    (.text "ada") rfl
  exact ⟨(h 2).2.1 rfl, (h 3).1 1 rfl le_rfl, (h 4).2.2 _ .starter rfl (Plan.ofValue_plan _),
    (h 6).2.1 rfl⟩

end Entitlement.Tally
