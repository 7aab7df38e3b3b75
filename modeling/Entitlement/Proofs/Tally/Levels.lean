import Entitlement.Proofs.Tally.Daily
import Entitlement.Proofs.Tally.Store
import Entitlement.Tally.Session

/-!
Sessions that are logged from different levels on.

Two worlds that differ in what their logs print, and in nothing else, answer alike and stay so, as
long as all that is told can be written out. The log of the higher threshold then holds what the
other holds, as far as it reaches that threshold.
-/

namespace Entitlement

/-- What is required is answered without the log, or is refused and told. -/
lemma require_told (t : Tables) (plan limit used : Value) :
    (∃ r, ∀ log, t.require plan limit used log = (r, log)) ∨
      ∃ v p, t.assess plan limit used = .ok v ∧ v.allowed = false ∧
        ∀ log, t.require plan limit used log =
          match log.writeQuota .info "quota_exceeded" (refusalFields p v) with
          | (.error e, log) => (.error e, log)
          | (.ok _, log) => (.error (.exceeded v), log) := by
  simp only [require_eq_settle]
  cases hassess : t.assess plan limit used with
  | error e => exact Or.inl ⟨.error e, fun log => rfl⟩
  | ok v =>
    cases hv : v.allowed with
    | true => exact Or.inl ⟨.ok v, fun log => if_pos hv⟩
    | false =>
      have hdenied : ¬ v.finding.allowed = true := Bool.eq_false_iff.1 hv
      cases hp : Plan.ofValue plan with
      | error e =>
        refine Or.inl ⟨.error e, fun log => ?_⟩
        rw [settle, if_neg hdenied, hp]
        rfl
      | ok p =>
        refine Or.inr ⟨v, p, rfl, hv, fun log => ?_⟩
        rw [settle, if_neg hdenied, hp]
        rfl

namespace Tally

/-- Whether a refusal of usage can be written out, should it come to one. -/
def Act.Writable (t : Tables) : Act → Prop
  | .op _ => True
  | .require plan limit used => ∀ v, t.assess plan limit used = .ok v → v.allowed = false →
    v.used.writable = true ∧ v.cap.writable = true

/-- So it is for tables with caps in range, as those that are shipped, and usage of any size. -/
lemma Act.writable_of_capsInRange {t : Tables} (ht : t.CapsInRange) (a : Act) : a.Writable t := by
  cases a with
  | op o => trivial
  | require plan limit used => exact fun v => writable_of_denied ht

lemma Laws.answersWritable {σ : Type} {exec : Backend σ} {view : View σ} (h : Laws exec view) :
    AnswersWritable exec := by
  intro now key amount s v s' hinc
  obtain ⟨m, n, rfl, rfl, -, hn, hsum, -⟩ := h.increment _ _ _ _ _ _ hinc
  exact ⟨writable_of_inInt64 hn, writable_of_inInt64 hsum⟩

/-- Two worlds that differ only in their logs. The log of the second was told the same and has the
threshold `n`. -/
structure Alike {σ : Type} (n : Nat) (w w' : World σ) : Prop where
  now : w'.now = w.now
  store : w'.store = w.store
  log : Log.Quieter n w.log w'.log

variable {σ : Type} {n : Nat} {w w' : World σ} {t : Tables} {exec : Backend σ}

theorem Alike.after_act (h : Alike n w w') (hexec : AnswersWritable exec) (ttl : Int) (a : Act)
    (ha : a.Writable t) :
    (act t exec ttl w' a).1 = (act t exec ttl w a).1 ∧
      Alike n (act t exec ttl w a).2 (act t exec ttl w' a).2 := by
  obtain ⟨now, s, log⟩ := w
  obtain ⟨now', s', log'⟩ := w'
  obtain ⟨hnow, hstore, hlog⟩ := h
  obtain rfl : now' = now := hnow
  obtain rfl : s' = s := hstore
  -- nothing is bound in the logs, so neither fails on a note that can be written out
  have htakes {x : Option Note} (hx : ∀ y ∈ x, (y.event []).writable = true) :
      log.takes x = true ∧ log'.takes x = true := by
    refine ⟨Log.takes_of_writable fun y hy => ?_, Log.takes_of_writable fun y hy => ?_⟩
    · rw [hlog.context]
      exact hx y hy
    · rw [hlog.context']
      exact hx y hy
  cases a with
  | op o =>
    obtain ⟨x, hx, -, hwritable⟩ := step_effect exec ttl now' s' o
    obtain ⟨htakes, htakes'⟩ := htakes (hwritable hexec [] rfl)
    change (step exec ttl ⟨now', s', log'⟩ o).1 = (step exec ttl ⟨now', s', log⟩ o).1 ∧
      Alike n (step exec ttl ⟨now', s', log⟩ o).2 (step exec ttl ⟨now', s', log'⟩ o).2
    rw [hx, hx, Effect.at, Effect.at, htakes, htakes']
    exact ⟨rfl, rfl, rfl, hlog.tell x.note⟩
  | require plan limit used =>
    rcases require_told t plan limit used with ⟨r, hr⟩ | ⟨v, p, hassess, hv, hr⟩
    · simp only [act, hr]
      exact ⟨trivial, rfl, rfl, hlog⟩
    · obtain ⟨hused, hcap⟩ := ha v hassess hv
      obtain ⟨htakes, htakes'⟩ := htakes (x := some ⟨.info, "quota_exceeded", [],
          refusalFields p v⟩) fun y hy => by
        obtain rfl := Option.some.inj hy
        exact writable_refusalEvent (f := v.finding) rfl hused hcap p
      simp only [act, hr, Log.writeQuota_eq_tell hlog.quota, Log.writeQuota_eq_tell hlog.quota',
        htakes, htakes', if_true]
      exact ⟨trivial, rfl, rfl, (hlog.tell _).fixed⟩

/-- A session answers alike in worlds that are alike, and leaves them so. -/
theorem Alike.after_session (h : Alike n w w') (hexec : AnswersWritable exec) (ttl : Int)
    (as : List Act) (has : ∀ a ∈ as, a.Writable t) :
    (session t exec ttl w' as).1 = (session t exec ttl w as).1 ∧
      Alike n (session t exec ttl w as).2 (session t exec ttl w' as).2 := by
  induction as generalizing w w' with
  | nil =>
    rw [session_nil, session_nil]
    exact ⟨rfl, h⟩
  | cons a as ih =>
    obtain ⟨ha, has⟩ := List.forall_mem_cons.1 has
    obtain ⟨hanswer, hnext⟩ := h.after_act hexec ttl a ha
    obtain ⟨hanswers, hlast⟩ := ih hnext has
    rw [session_cons, session_cons, hanswer, hanswers]
    exact ⟨rfl, hlast⟩

/-- **Logging decides nothing**: the same session, from the same clock and store, with a log that
was just set to one level and with one that was just set to another that lets no more through, has
the same answers and leaves the same clock, store and context; and what the second log prints is
what the first prints and reaches the threshold of the second, unchanged and in order. The store may
refuse and answer what it likes that can be written out, and usage that is refused can be written
out, as with caps in range any can. -/
theorem session_of_levels (t : Tables) (hexec : AnswersWritable exec) (ttl : Int)
    {level level' : Value} {log log' : Log} (hlevel : Log.fresh.configure level = (.ok (), log))
    (hlevel' : Log.fresh.configure level' = (.ok (), log')) (hle : log.threshold ≤ log'.threshold)
    (now : Int) (s : σ) (as : List Act) (has : ∀ a ∈ as, a.Writable t) :
    let x := session t exec ttl ⟨now, s, log⟩ as
    let x' := session t exec ttl ⟨now, s, log'⟩ as
    x'.1 = x.1 ∧ x'.2.now = x.2.now ∧ x'.2.store = x.2.store ∧
      x'.2.log.context = x.2.log.context ∧
      x'.2.log.printed = x.2.log.printed.filter fun e => log'.threshold ≤ e.level.number := by
  intro x x'
  have hstart : Alike log'.threshold ⟨now, s, log⟩ ⟨now, s, log'⟩ :=
    ⟨rfl, rfl, Log.quieter_of_configure hlevel hlevel' hle⟩
  obtain ⟨hanswers, hend⟩ := hstart.after_session hexec ttl as has
  exact ⟨hanswers, hend.now, hend.store, hend.log.context'.trans hend.log.context.symm,
    hend.log.printed⟩

/-- Seven scans of ada's, where none are given and usage is required to be within that: logged from
debugging on, the session leaves two events; from information on, the second of them. -/
theorem session_of_seven_scans :
    let t := Tables.shipped.withLimits .starter ⟨.int 0, .int 1, .bool true, .int unlimited⟩
    let ada := Value.text "ada"
    let debugging := (Log.fresh.configure (.text "debug")).2
    let informing := (Log.fresh.configure (.text "Info")).2
    let as : List Act := [.op (.add ada (.int 7)),
      .require (.plan .starter) (.limit .scansPerDay) (.int 7), .op (.today ada)]
    let x := session t expiring 7 ⟨1709985600000000, [], debugging⟩ as
    let x' := session t expiring 7 ⟨1709985600000000, [], informing⟩ as
    let refusal : Event := ⟨.info, "quota_exceeded", [("plan", .text "STARTER"),
      ("limit_name", .text "scansPerDay"), ("current", .int 7), ("limit", .int 0)]⟩
    x'.1 = x.1 ∧ x'.2.store = x.2.store ∧
      x.2.log.printed = [⟨.debug, "scan_recorded",
        [("owner_id", ada), ("count", .int 7), ("daily_total", .int 7)]⟩, refusal] ∧
      x'.2.log.printed = [refusal] := by
  intro t ada debugging informing as x x' refusal
  have hdebugging : Log.fresh.configure (.text "debug") = (.ok (), debugging) := rfl
  have hinforming : Log.fresh.configure (.text "Info") = (.ok (), informing) := rfl
  have has : ∀ a ∈ as, a.Writable t := by
    simp only [as, List.forall_mem_cons, List.not_mem_nil, false_imp_iff, implies_true, and_true]
    refine ⟨trivial, fun v hv _ => ?_, trivial⟩
    obtain rfl := Except.ok.inj hv
    exact ⟨rfl, rfl⟩
  obtain ⟨hanswers, -, hstore, -, hprinted⟩ := session_of_levels t laws_expiring.answersWritable 7
    hdebugging hinforming (by decide) 1709985600000000 [] as has
  have hall : x.2.log.printed = [⟨.debug, "scan_recorded",
      [("owner_id", ada), ("count", .int 7), ("daily_total", .int 7)]⟩, refusal] := by
    unfold x as debugging refusal t ada
    rfl
  refine ⟨hanswers, hstore, hall, ?_⟩
  rw [hprinted, hall]
  rfl

end Tally

end Entitlement
