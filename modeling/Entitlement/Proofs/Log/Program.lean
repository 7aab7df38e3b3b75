import Entitlement.Log.Program
import Entitlement.Proofs.Log.Nesting
import Entitlement.Proofs.Tally.Effect

/-!
Where blocks nest.

The programs that leave records are programs of nested blocks, apart from the steps that set the
level or that enter and leave a context on their own: a block with a record is an attempt at a
block, and a requirement is at most one call. The quota check of the tally is a block around at most
one call.
-/

namespace Entitlement

namespace Log

/-! ### Programs one after the other -/

lemma Run.andThen_assoc (r : Run) (next next' : Log → Run) :
    (r.andThen next).andThen next' = r.andThen fun log => (next log).andThen next' := by
  unfold andThen
  cases hr : r.raised with
  | some m => simp only [hr]
  | none =>
    dsimp only
    cases hnext : (next r.log).raised <;> simp only [hnext, List.append_assoc]

lemma execAll_append (log : Log) (ss ss' : List Stmt) :
    execAll log (ss ++ ss') = (execAll log ss).andThen fun log => execAll log ss' := by
  induction ss generalizing log with
  | nil => rfl
  | cons s ss ih =>
    rw [List.cons_append, execAll, execAll, Run.andThen_assoc]
    simp only [ih]

lemma execAll_singleton (log : Log) (s : Stmt) : execAll log [s] = exec log s := by
  rw [execAll]
  unfold Run.andThen
  cases h : (exec log s).raised <;> simp [execAll, ← h]

lemma exec_block_log (log : Log) (values : Bindings) (body : List Stmt) :
    (exec log (.block values body)).log =
      (execAll (log.enter values).1 body).log.exit (log.enter values).2 := by
  rw [exec]
  rfl

/-! ### Records -/

def requiring (plan limit used : Value) : List Stmt :=
  match Tables.shipped.assess plan limit used, Plan.ofValue plan with
  | .ok v, .ok p =>
    if v.allowed then [] else [.attempt [.log .quota .info "quota_exceeded" (refusalFields p v)]]
  | _, _ => []

mutual

/-- The program of a step, if it keeps to nested blocks and leaves the level alone. -/
def Step.stmts? : Step → Option (List Stmt)
  | .log level name values => some [.attempt [.log .common level name values]]
  | .block values steps => (stmtsOf? steps).map fun body => [.attempt [.block values body]]
  | .raise message => some [.raise message]
  | .require plan limit used => some (requiring plan limit used)
  | .configure _ => none
  | .enter _ _ => none
  | .exit _ => none

def stmtsOf? : List Step → Option (List Stmt)
  | [] => some []
  | s :: ss => s.stmts?.bind fun stmts => (stmtsOf? ss).map (stmts ++ ·)

end

def behind (shown : List Event) (log : Log) : Log := { log with printed := shown ++ log.printed }

def Record.stopped (rec : Record) : Option String :=
  match rec.answer with
  | .error (.stopped m) => some m
  | _ => none

/-- A program with records that runs like one without. What the records have taken off the log and
what is still on it are what the other has printed, and the records of blocks show the contexts that
its blocks have left. -/
structure Matches (shown : List Event) (out : State × List Record × Option String) (r : Run) :
    Prop where
  log : r.log = out.1.log.behind (shown ++ out.2.1.flatMap Record.log)
  raised : r.raised = out.2.2
  blocks : r.visits.map (fun v => (v.after, v.raised)) =
    (out.2.1.filter fun rec => rec.origin = .block).map fun rec => (rec.context, rec.stopped)

variable {st : State} {shown : List Event} {values : Bindings} {r : Run}

lemma say_behind (log : Log) (logger : Logger) (level : Level) (name : String)
    (values : Bindings) :
    (log.behind shown).say logger level name values =
      ((log.say logger level name values).1,
        (log.say logger level name values).2.behind shown) := by
  cases logger with
  | common =>
    dsimp only [say]
    rw [write, write, writeAt_eq, writeAt_eq]
    exact congrArg _ (congrArg _ (List.append_assoc ..))
  | quota =>
    dsimp only [say]
    rw [writeQuota_eq, writeQuota_eq]
    exact congrArg _ (congrArg _ (List.append_assoc ..))

lemma execAll_attempt_log (log : Log) (logger : Logger) (level : Level) (name : String)
    (values : Bindings) : execAll log [.attempt [.log logger level name values]] =
      ⟨(log.say logger level name values).2, [], none⟩ := by
  rw [execAll_singleton, exec, execAll_singleton, exec]
  rcases log.say logger level name values with ⟨e | _, log'⟩ <;> rfl

/-- A record takes off the log what it shows, which stays in front of what follows. -/
lemma matches_record (shown : List Event) (st : State) {origin : Origin}
    (answer : Except Failure Answer) (h : origin ≠ .block) :
    Matches shown ((st.record origin answer).2, [(st.record origin answer).1], none)
      ⟨st.log.behind shown, [], none⟩ where
  log := by simp [State.record, behind]
  raised := rfl
  blocks := by simp [State.record, h]

lemma Matches.andThen {st' : State} {recs recs' : List Record} {raised : Option String}
    {next : Log → Run} (h : Matches shown (st, recs, none) r)
    (hnext : Matches (shown ++ recs.flatMap Record.log) (st', recs', raised) (next r.log)) :
    Matches shown (st', recs ++ recs', raised) (r.andThen next) := by
  have hraised : r.raised = none := h.raised
  unfold Run.andThen
  rw [hraised]
  exact {
    log := by
      dsimp only
      rw [hnext.log, List.flatMap_append, List.append_assoc]
    raised := hnext.raised
    blocks := by
      dsimp only
      rw [List.map_append, h.blocks, hnext.blocks, List.filter_append, List.map_append] }

lemma Matches.block {steps : List Step} {body : List Stmt}
    (h : Matches shown (runSteps { st with log := (st.log.enter values).1 } steps)
      (execAll ((st.log.enter values).1.behind shown) body)) :
    Matches shown (runStep st (.block values steps))
      (execAll (st.log.behind shown) [.attempt [.block values body]]) := by
  rw [execAll_singleton, exec, execAll_singleton, exec, runStep]
  rcases hrun : runSteps { st with log := (st.log.enter values).1 } steps with ⟨st', recs, raised⟩
  rw [hrun] at h
  -- binding does not look at what is in front
  have hentered : (st.log.behind shown).enter values =
      ((st.log.enter values).1.behind shown, (st.log.enter values).2) := rfl
  unfold within
  rw [hentered]
  dsimp only
  rw [hrun, h.log, h.raised]
  exact {
    log := by simp [State.record, behind, exit]
    raised := rfl
    blocks := by
      dsimp only
      rw [List.map_append, h.blocks, List.filter_append, List.map_append]
      cases raised <;> rfl }

lemma requiring_behind (log : Log) (plan limit used : Value) :
    execAll (log.behind shown) (requiring plan limit used) =
      ⟨(Tables.shipped.require plan limit used log).2.behind shown, [], none⟩ := by
  unfold requiring Tables.require
  cases Tables.shipped.assess plan limit used with
  | error e => rfl
  | ok v =>
    cases Plan.ofValue plan with
    | error e =>
      dsimp only
      split <;> rfl
    | ok p =>
      dsimp only
      split
      · rfl
      · rw [execAll_attempt_log, say_behind]
        dsimp only [say]
        rcases log.writeQuota .info "quota_exceeded" (refusalFields p _) with ⟨e | _, log'⟩ <;> rfl

lemma matches_requiring (shown : List Event) (st : State) (plan limit used : Value) :
    Matches shown (runStep st (.require plan limit used))
      (execAll (st.log.behind shown) (requiring plan limit used)) := by
  rw [requiring_behind, runStep]
  exact matches_record shown _ _ (by decide)

mutual

lemma matches_runStep (s : Step) {st : State} {stmts : List Stmt} (shown : List Event)
    (h : s.stmts? = some stmts) :
    Matches shown (runStep st s) (execAll (st.log.behind shown) stmts) := by
  cases s with
  | log level name values =>
    cases h
    rw [execAll_attempt_log, say_behind, runStep]
    exact matches_record shown _ _ (by decide)
  | block values steps =>
    obtain ⟨body, hbody, rfl⟩ := Option.map_eq_some_iff.1 h
    exact Matches.block (matches_runSteps steps shown hbody)
  | raise message =>
    cases h
    rw [execAll_singleton, exec, runStep]
    exact ⟨by simp [behind], rfl, rfl⟩
  | require plan limit used =>
    cases h
    exact matches_requiring shown st plan limit used
  | configure level => cases h
  | enter id values => cases h
  | exit id => cases h

lemma matches_runSteps (ss : List Step) {st : State} {stmts : List Stmt} (shown : List Event)
    (h : stmtsOf? ss = some stmts) :
    Matches shown (runSteps st ss) (execAll (st.log.behind shown) stmts) := by
  cases ss with
  | nil =>
    cases h
    exact ⟨by simp [runSteps, execAll, behind], rfl, rfl⟩
  | cons s ss =>
    obtain ⟨first, hfirst, h⟩ := Option.bind_eq_some_iff.1 h
    obtain ⟨rest, hrest, rfl⟩ := Option.map_eq_some_iff.1 h
    have hstep : Matches shown (runStep st s) (execAll (st.log.behind shown) first) :=
      matches_runStep s shown hfirst
    rw [execAll_append, runSteps]
    rcases hrun : runStep st s with ⟨st', recs, _ | m⟩
    · -- what the first step has recorded is in front for the rest
      rw [hrun] at hstep
      refine hstep.andThen ?_
      rw [hstep.log]
      exact matches_runSteps ss _ hrest
    · -- neither goes on after an exception
      rw [hrun] at hstep
      have hraised : (execAll (st.log.behind shown) first).raised = some m := hstep.raised
      unfold Run.andThen
      rw [hraised]
      exact hstep

end

/-- The record of a block that nests: the context that it shows is the one of the blocks around. -/
structure Exit.Shows (context : Bindings) (x : Exit) (rec : Record) : Prop where
  stopped : rec.stopped = x.raised
  context : ∀ k, Assoc.find? rec.context k = (bound x.blocks k).or (Assoc.find? context k)

/-- **Records nest**: what the records of a program have taken off the log, with what is still on
it, is what the calls that were reached print, and the record of a block shows the context that is
bound without it. -/
theorem runSteps_nests {steps : List Step} {ss : List Stmt} (h : stmtsOf? steps = some ss)
    (st : State) :
    (runSteps st steps).2.2 = (st.log.way ss).raised ∧
      (runSteps st steps).1.log.context = st.log.context ∧
      List.Forall₂ (Exit.Shows st.log.context) (st.log.way ss).exits
        ((runSteps st steps).2.1.filter fun rec => rec.origin = .block) ∧
      ∃ es, (runSteps st steps).2.1.flatMap Record.log ++ (runSteps st steps).1.log.printed =
          st.log.printed ++ es ∧
        List.Forall₂ (Call.Prints st.log.context) (st.log.heard (st.log.way ss).calls) es := by
  have hmatches : Matches [] (runSteps st steps) (execAll st.log ss) := matches_runSteps steps [] h
  have hnests := nests_execAll st.log ss
  obtain ⟨es, hprinted, hes⟩ := hnests.printed
  have hlog := hmatches.log
  refine ⟨hmatches.raised.symm.trans hnests.raised, ?_, ?_, es, ?_, hes⟩
  · rw [← hnests.context, hlog]
    rfl
  · have hshown : List.Forall₂ (fun (x : Exit) (seen : Bindings × Option String) =>
        seen.2 = x.raised ∧
          ∀ k, Assoc.find? seen.1 k = (bound x.blocks k).or (Assoc.find? st.log.context k))
        (st.log.way ss).exits ((execAll st.log ss).visits.map fun v => (v.after, v.raised)) := by
      rw [List.forall₂_map_right_iff]
      refine hnests.visits.imp fun x v hv => ⟨hv.raised, fun k => ?_⟩
      rw [hv.after, hv.before]
    rw [hmatches.blocks, List.forall₂_map_right_iff] at hshown
    exact hshown.imp fun x rec hrec => ⟨hrec.1, hrec.2⟩
  · rw [← hprinted, hlog]
    rfl

end Log

/-! ### The quota check -/

namespace Tally

open Log

def checking : Except Error Verdict → List Stmt
  | .error e => [.raise e.message]
  | .ok v =>
    if v.allowed then [] else [.log .common .info "daily_scan_limit_reached" (deniedFields v)]

/-- A check of a known plan is one block, which an error goes through. -/
theorem assess_nests {σ : Type} (backend : Backend σ) (owner : Value) {plan : Value} {p : Plan}
    (hp : Plan.ofValue plan = .ok p) (w : World σ) :
    (assess backend owner plan w).2.log =
      (exec w.log (.block [("owner_id", owner), ("plan", .text p.wire)]
        (checking (found p (reading backend owner w.now w.store).1)))).log := by
  obtain ⟨now, s, log⟩ := w
  rw [assess_eq backend owner now s hp, exec_block_log, assessing, Effect.at]
  cases found p (reading backend owner now s).1 with
  | error e => rw [deniedNote?, checking, execAll_singleton, exec, tell_none, exit_enter_self]
  | ok v =>
    cases hv : v.allowed with
    | true => simp only [deniedNote?, checking, hv, if_true, execAll, tell_none, exit_enter_self]
    | false =>
      have hwrite := @exit_write_enter log .info "daily_scan_limit_reached" (deniedFields v)
        [("owner_id", owner), ("plan", .text p.wire)]
      simp only [deniedNote?, checking, hv, Bool.false_eq_true, if_false, execAll_singleton, exec,
        say]
      rw [deniedNote]
      refine (congrArg Prod.snd hwrite).symm.trans ?_
      rcases (log.enter [("owner_id", owner), ("plan", .text p.wire)]).1.write .info
        "daily_scan_limit_reached" (deniedFields v) with ⟨e | _, log'⟩ <;> rfl

end Tally

end Entitlement
