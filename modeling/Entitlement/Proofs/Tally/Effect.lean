import Entitlement.Proofs.Assessment.Refusal
import Entitlement.Proofs.Log.Note
import Entitlement.Proofs.Writing
import Entitlement.Tally.Run

/-!
What operations do, told without the log.

An operation answers, leaves a store and tells the log at most one note, and none of the three
depends on the log: not on its threshold, and not on what is bound in it. Only if the log fails on
the note does its error take the place of the answer. This holds on a store of any kind, also on one
that refuses commands. Everything that is said of the log of a run follows from it.
-/

namespace Entitlement.Tally

open Value (fieldsWritable)

/-- The answer of an operation, the store after it, and what it tells the log, if anything. -/
structure Effect (σ α : Type) where
  answer : Except Error α
  store : σ
  note : Option Note

variable {σ α β : Type}

/-- What an effect comes to at an instant, on a log. -/
def Effect.at (x : Effect σ α) (now : Int) (log : Log) : Except Error α × World σ :=
  (if log.takes x.note then x.answer else .error .unwritable, ⟨now, x.store, log.tell x.note⟩)

def Effect.map (f : α → β) (x : Effect σ α) : Effect σ β := ⟨x.answer.map f, x.store, x.note⟩

lemma Effect.at_none (r : Except Error α) (s : σ) (now : Int) (log : Log) :
    Effect.at ⟨r, s, none⟩ now log = (r, ⟨now, s, log⟩) := by
  simp [Effect.at]

lemma Effect.at_map (f : α → β) (x : Effect σ α) (now : Int) (log : Log) :
    (x.map f).at now log = ((x.at now log).1.map f, (x.at now log).2) := by
  unfold Effect.at Effect.map
  by_cases h : log.takes x.note = true <;> simp [h, Except.map]

def addedNote (owner : Value) (n : Number) (total : Value) : Note :=
  ⟨.debug, "scan_recorded", [], addedFields owner n total⟩

def deniedNote (owner : Value) (p : Plan) (v : Verdict) : Note :=
  ⟨.info, "daily_scan_limit_reached", [("owner_id", owner), ("plan", .text p.wire)],
    deniedFields v⟩

def deniedNote? (owner : Value) (p : Plan) : Except Error Verdict → Option Note
  | .ok v => if v.allowed then none else some (deniedNote owner p v)
  | .error _ => none

lemma writable_addedNote {context : Bindings} {owner total : Value} {n : Number}
    (hcontext : fieldsWritable context = true) (howner : owner.writable = true)
    (hn : n.writable = true) (htotal : total.writable = true) :
    ((addedNote owner n total).event context).writable = true := by
  refine Event.writable_make hcontext ?_
  simp [addedNote, addedFields, fieldsWritable, Value.writable, howner, hn, htotal]

lemma writable_deniedNote {context : Bindings} {owner : Value} {p : Plan} {v : Verdict}
    (hcontext : fieldsWritable context = true) (howner : owner.writable = true)
    (hused : v.used.writable = true) (hcap : v.cap.writable = true) :
    ((deniedNote owner p v).event context).writable = true := by
  refine Event.writable_make ?_ ?_
  · have hbound : fieldsWritable [("owner_id", owner), ("plan", Value.text p.wire)] = true := by
      simp [fieldsWritable, Value.writable, howner]
    rw [Value.fieldsWritable_iff] at hcontext hbound ⊢
    exact Assoc.forall_mem_putAll (P := fun v : Value => v.writable = true) hcontext hbound
  · have hlimit : (Number.whole v.cap).writable = true := hcap
    simp [deniedNote, deniedFields, fieldsWritable, Value.writable, hused, hlimit]

section Operations

variable (exec : Backend σ) (ttl : Int) (owner count plan : Value) (now : Int) (s : σ)

/-! ### Adding -/

/-- What an addition can come to: it is refused for its count or its owner, the store refuses one of
its two commands, or it comes about and tells of the reply to its increment. -/
inductive Adds : Effect σ Int → Prop where
  | refused (e : Error)
      (hwhy : ∀ n, count = .number n → n.ltInt 1 = true ∨ owner.writable = false) :
      Adds ⟨.error e, s, none⟩
  | uncounted {e : StoreError} {s' : σ}
      (hinc : exec now (.increment (keyAt owner now) count) s = (.error e, s')) :
      Adds ⟨.error (.store e), s', none⟩
  | unexpiring {total : Value} {e : StoreError} {s' s'' : σ}
      (hinc : exec now (.increment (keyAt owner now) count) s = (.ok total, s'))
      (hexp : exec now (.expire (keyAt owner now) (retention ttl)) s' = (.error e, s'')) :
      Adds ⟨.error (.store e), s'', none⟩
  | added {n : Number} {total v : Value} {s' s'' : σ} (hcount : count = .number n)
      (h1 : n.ltInt 1 = false) (howner : owner.writable = true)
      (hinc : exec now (.increment (keyAt owner now) count) s = (.ok total, s'))
      (hexp : exec now (.expire (keyAt owner now) (retention ttl)) s' = (.ok v, s'')) :
      Adds ⟨toInteger total, s'', some (addedNote owner n total)⟩

theorem add_effect : ∃ x, Adds exec ttl owner count now s x ∧
    ∀ log, add exec ttl owner count ⟨now, s, log⟩ = x.at now log := by
  cases hcount : ordered count with
  | error e =>
    refine ⟨_, .refused e fun n hn => ?_, fun log => ?_⟩
    · rw [hn] at hcount
      cases hcount
    · simp only [add, hcount, Effect.at_none]
  | ok n =>
    have hn : count = .number n := by
      unfold ordered at hcount
      split at hcount <;> cases hcount
      rfl
    by_cases h1 : n.ltInt 1 = true
    · refine ⟨_, .refused (Error.countNotPositive n).raised fun m hm => ?_, fun log => ?_⟩
      · obtain rfl : n = m := Value.number.inj (hn.symm.trans hm)
        exact Or.inl h1
      · simp only [add, hcount, h1, if_true, Effect.at_none]
    by_cases howner : owner.writable = true
    -- from here on the store is asked
    · rcases hinc : exec now (.increment (keyAt owner now) count) s with ⟨e | total, s'⟩
      · refine ⟨_, .uncounted hinc, fun log => ?_⟩
        simp [add, hcount, h1, howner, World.exec, hinc, Effect.at_none]
      · rcases hexp : exec now (.expire (keyAt owner now) (retention ttl)) s' with ⟨e | v, s''⟩
        · refine ⟨_, .unexpiring hinc hexp, fun log => ?_⟩
          simp [add, hcount, h1, howner, World.exec, hinc, hexp, Effect.at_none]
        · refine ⟨_, .added hn (Bool.eq_false_iff.2 h1) howner hinc hexp, fun log => ?_⟩
          have hwrite : log.write .debug "scan_recorded" (addedFields owner n total) =
              (if log.takes (some (addedNote owner n total)) then .ok () else .error .unwritable,
                log.tell (some (addedNote owner n total))) := Log.write_eq_tell
          by_cases htakes : log.takes (some (addedNote owner n total)) = true <;>
            simp [add, hcount, h1, howner, World.exec, hinc, hexp, hwrite, htakes, Effect.at]
    · refine ⟨_, .refused .unwritable fun m _ => Or.inr (Bool.eq_false_iff.2 howner), fun log => ?_⟩
      simp [add, hcount, h1, howner, Effect.at_none]

/-! ### Reading -/

/-- What a reading answers, and the store after it. It tells nothing. -/
def reading : Except Error Int × σ :=
  if owner.writable then
    match exec now (.read (keyAt owner now)) s with
    | (.error e, s') => (.error (.store e), s')
    | (.ok v, s') => (if v.truthy then toInteger v else .ok 0, s')
  else (.error .unwritable, s)

theorem today_eq (log : Log) : today exec owner ⟨now, s, log⟩ =
    ((reading exec owner now s).1, ⟨now, (reading exec owner now s).2, log⟩) := by
  unfold today reading World.exec
  by_cases howner : owner.writable = true
  · simp only [howner]
    rcases exec now (.read (keyAt owner now)) s with ⟨e | v, s'⟩ <;> rfl
  · simp [howner]

variable {exec owner now s} in
lemma writable_of_reading {n : Int} (h : (reading exec owner now s).1 = .ok n) :
    owner.writable = true := by
  by_contra howner
  rw [reading, if_neg howner] at h
  cases h

/-! ### Assessing -/

def found (p : Plan) (n : Except Error Int) : Except Error Verdict :=
  n.bind fun n => Tables.shipped.assess (.plan p) (.limit .scansPerDay) (.int n)

lemma found_ok (p : Plan) (n : Int) :
    found p (.ok n) = Tables.shipped.assess (.plan p) (.limit .scansPerDay) (.int n) := rfl

/-- What an assessment of a known plan comes to. -/
def assessing (p : Plan) : Effect σ Verdict :=
  ⟨found p (reading exec owner now s).1, (reading exec owner now s).2,
    deniedNote? owner p (found p (reading exec owner now s).1)⟩

variable {exec owner now s} in
/-- What is told of an assessment can be written out: usage that is denied has a share. -/
lemma writable_assessing {context : Bindings} (hcontext : fieldsWritable context = true)
    {p : Plan} {x : Note} (hx : x ∈ (assessing exec owner now s p).note) :
    (x.event context).writable = true := by
  unfold assessing at hx
  cases hn : (reading exec owner now s).1 with
  | error e =>
    rw [hn] at hx
    cases hx
  | ok n =>
    rw [hn, found_ok] at hx
    cases hfound : Tables.shipped.assess (.plan p) (.limit .scansPerDay) (.int n) with
    | error e =>
      rw [hfound] at hx
      cases hx
    | ok v =>
      rw [hfound] at hx
      cases hv : v.allowed with
      | true => simp [deniedNote?, hv] at hx
      | false =>
        -- usage too long to write would have no share
        obtain ⟨hused, hcap⟩ := writable_of_denied capsInRange_shipped hfound hv
        obtain rfl : deniedNote owner p v = x := by simpa [deniedNote?, hv] using hx
        exact writable_deniedNote hcontext (writable_of_reading hn) hused hcap

lemma assessPlan_eq (p : Plan) (log : Log) : assessPlan exec owner p ⟨now, s, log⟩ =
    match found p (reading exec owner now s).1 with
    | .error e => (.error e, ⟨now, (reading exec owner now s).2, log⟩)
    | .ok v =>
      if v.allowed then (.ok v, ⟨now, (reading exec owner now s).2, log⟩)
      else
        match log.write .info "daily_scan_limit_reached" (deniedFields v) with
        | (.error e, log) => (.error e, ⟨now, (reading exec owner now s).2, log⟩)
        | (.ok _, log) => (.ok v, ⟨now, (reading exec owner now s).2, log⟩) := by
  unfold assessPlan found
  rw [today_eq]
  cases (reading exec owner now s).1 with
  | error e => rfl
  | ok n => rfl

variable {plan} in
theorem assess_eq {p : Plan} (hp : Plan.ofValue plan = .ok p) (log : Log) :
    assess exec owner plan ⟨now, s, log⟩ = (assessing exec owner now s p).at now log := by
  simp only [assess, hp, assessPlan_eq, assessing]
  cases found p (reading exec owner now s).1 with
  | error e => simp only [deniedNote?, Effect.at_none, Log.exit_enter_self]
  | ok v =>
    cases hv : v.allowed with
    | true =>
      simp only [deniedNote?, hv, if_true, Effect.at_none, Log.exit_enter_self]
    | false =>
      -- the note is written in the block and told with what is bound for it
      have hwrite := @Log.exit_write_enter log .info "daily_scan_limit_reached" (deniedFields v)
        [("owner_id", owner), ("plan", .text p.wire)]
      rw [← deniedNote] at hwrite
      simp only [deniedNote?, hv, Bool.false_eq_true, if_false, Effect.at]
      rcases hlog : (log.enter [("owner_id", owner), ("plan", .text p.wire)]).1.write .info
        "daily_scan_limit_reached" (deniedFields v) with ⟨r, log'⟩
      rw [hlog] at hwrite
      obtain ⟨hr, hlog'⟩ := Prod.mk.inj hwrite
      rw [← hlog']
      obtain rfl : r = _ := hr
      cases log.takes (some (deniedNote owner p v)) <;> rfl

end Operations

/-! ### What is reported -/

/-- A store that answers an increment with a whole number, if it answers. -/
def AnswersWhole (exec : Backend σ) : Prop :=
  ∀ now key amount s v s', exec now (.increment key amount) s = (.ok v, s') → ∃ t, v = .int t

/-- A store whose answers to increments can be written out, as those of one that counts in 64 bits
can. -/
def AnswersWritable (exec : Backend σ) : Prop :=
  ∀ now key amount s v s', exec now (.increment key amount) s = (.ok v, s') →
    amount.writable = true ∧ v.writable = true

/-- The events that an operation with an answer is to leave in a log without context: one for an
addition that came about, one for a verdict that does not allow more, and none otherwise. -/
inductive Reports : Op → Except Error Answer → List Event → Prop where
  | added (owner count : Value) (t : Int) :
    Reports (.add owner count) (.ok (.total t))
      [⟨.debug, "scan_recorded",
        [("owner_id", owner.logged), ("count", count), ("daily_total", .int t)]⟩]
  | counted (owner : Value) (n : Int) : Reports (.today owner) (.ok (.count n)) []
  | allowed (owner plan : Value) (v : Verdict) (h : v.allowed = true) :
    Reports (.assess owner plan) (.ok (.verdict v)) []
  | denied (owner plan : Value) (p : Plan) (v : Verdict) (hp : Plan.ofValue plan = .ok p)
      (h : v.allowed = false) :
    Reports (.assess owner plan) (.ok (.verdict v))
      [⟨.info, "daily_scan_limit_reached",
        [("owner_id", owner.logged), ("plan", .text p.wire), ("current", .number v.used),
          ("limit", .number (.whole v.cap))]⟩]
  | waited (micros : Nat) : Reports (.wait micros) (.ok .passed) []
  | failed (o : Op) (e : Error) : Reports o (.error e) []

/-- What is to be reported is settled by the operation and its answer. -/
lemma Reports.eq {o : Op} {r : Except Error Answer} {es es' : List Event} (h : Reports o r es)
    (h' : Reports o r es') : es = es' := by
  cases h with
  | added => cases h'; rfl
  | counted => cases h'; rfl
  | allowed _ _ v hv =>
    cases h' with
    | allowed => rfl
    | denied _ _ _ _ _ hv' => rw [hv] at hv'; cases hv'
  | denied _ _ p v hp hv =>
    cases h' with
    | allowed _ _ _ hv' => rw [hv] at hv'; cases hv'
    | denied _ _ p' _ hp' _ =>
      obtain rfl : p = p' := Except.ok.inj (hp.symm.trans hp')
      rfl
  | waited => cases h'; rfl
  | failed => cases h'; rfl

/-- The log takes the values of a note as they are printed, and the keys are none of its own. -/
lemma event_addedNote (owner : Value) (n : Number) (t : Int) :
    (addedNote owner n (.int t)).event [] = ⟨.debug, "scan_recorded",
      [("owner_id", owner.logged), ("count", .number n), ("daily_total", .int t)]⟩ := by
  simp [Note.event, addedNote, addedFields, Event.make, Assoc.putAll, Assoc.put, reserved,
    Value.loggedFields, Value.logged]

lemma event_deniedNote (owner : Value) (p : Plan) (v : Verdict) :
    (deniedNote owner p v).event [] = ⟨.info, "daily_scan_limit_reached",
      [("owner_id", owner.logged), ("plan", .text p.wire), ("current", .number v.used),
        ("limit", .number (.whole v.cap))]⟩ := by
  simp [Note.event, deniedNote, deniedFields, Event.make, Assoc.putAll, Assoc.put, reserved,
    Value.loggedFields, Value.logged]

/-! ### Any operation -/

def Op.micros : Op → Nat
  | .wait micros => micros
  | _ => 0

/-- **Steps**: what an operation answers, leaves in the store and tells does not depend on the log,
what it tells is what is to be reported of its answer, and it can be written out if the replies of
the store can. -/
theorem step_effect (exec : Backend σ) (ttl now : Int) (s : σ) (o : Op) :
    ∃ x : Effect σ Answer, (∀ log, step exec ttl ⟨now, s, log⟩ o = x.at (now + o.micros) log) ∧
      (AnswersWhole exec → Reports o x.answer (x.note.toList.map (Note.event []))) ∧
      (AnswersWritable exec → ∀ context, fieldsWritable context = true →
        ∀ y ∈ x.note, (y.event context).writable = true) := by
  cases o with
  | add owner count =>
    have hnow : now + (Op.add owner count).micros = now := Int.add_zero now
    obtain ⟨x, hadds, hx⟩ := add_effect exec ttl owner count now s
    refine ⟨x.map .total, fun log => by rw [step, hx, hnow, Effect.at_map], fun hwhole => ?_,
      fun hwritable context hcontext y hy => ?_⟩
    · cases hadds with
      | refused e => exact .failed _ e
      | uncounted => exact .failed _ _
      | unexpiring => exact .failed _ _
      | @added n total _ _ _ hcount _ _ hinc _ =>
        obtain ⟨t, rfl⟩ := hwhole _ _ _ _ _ _ hinc
        rw [hcount, Effect.map, Option.toList_some, List.map_singleton, event_addedNote]
        exact .added owner (.number n) t
    · cases hadds with
      | refused => cases hy
      | uncounted => cases hy
      | unexpiring => cases hy
      | added hcount _ howner hinc _ =>
        obtain ⟨hamount, htotal⟩ := hwritable _ _ _ _ _ _ hinc
        rw [hcount] at hamount
        obtain rfl := Option.some.inj hy
        exact writable_addedNote hcontext howner hamount htotal
  | today owner =>
    have hnow : now + (Op.today owner).micros = now := Int.add_zero now
    refine ⟨⟨(reading exec owner now s).1.map .count, (reading exec owner now s).2, none⟩,
      fun log => by rw [step, today_eq, hnow, Effect.at_none], fun _ => ?_, fun _ _ _ => nofun⟩
    cases (reading exec owner now s).1 with
    | error e => exact .failed _ e
    | ok n => exact .counted owner n
  | assess owner plan =>
    have hnow : now + (Op.assess owner plan).micros = now := Int.add_zero now
    rw [hnow]
    cases hp : Plan.ofValue plan with
    | error e =>
      refine ⟨⟨.error e, s, none⟩, fun log => ?_, fun _ => .failed _ e, fun _ _ _ => nofun⟩
      simp only [step, assess, hp, Effect.at_none, Except.map]
    | ok p =>
      refine ⟨(assessing exec owner now s p).map .verdict,
        fun log => by rw [step, assess_eq exec owner now s hp, Effect.at_map], fun _ => ?_,
        fun _ context hcontext y hy => writable_assessing hcontext hy⟩
      rw [Effect.map, assessing]
      cases found p (reading exec owner now s).1 with
      | error e => exact .failed _ e
      | ok v =>
        -- only a verdict that does not allow more is told of
        cases hv : v.allowed with
        | true =>
          rw [deniedNote?, if_pos hv]
          exact .allowed owner plan v hv
        | false =>
          rw [deniedNote?, if_neg (Bool.eq_false_iff.1 hv), Option.toList_some,
            List.map_singleton, event_deniedNote]
          exact .denied owner plan p v hp hv
  | wait micros =>
    exact ⟨⟨.ok .passed, s, none⟩, fun log => (Effect.at_none _ s _ log).symm,
      fun _ => .waited micros, fun _ _ _ => nofun⟩

lemma step_now (exec : Backend σ) (ttl : Int) (w : World σ) (o : Op) :
    (step exec ttl w o).2.now = w.now + o.micros := by
  obtain ⟨x, hx, -⟩ := step_effect exec ttl w.now w.store o
  exact congrArg (·.2.now) (hx w.log)

lemma step_context (exec : Backend σ) (ttl : Int) (w : World σ) (o : Op) :
    (step exec ttl w o).2.log.context = w.log.context := by
  obtain ⟨x, hx, -⟩ := step_effect exec ttl w.now w.store o
  exact congrArg (·.2.log.context) (hx w.log)

end Entitlement.Tally
