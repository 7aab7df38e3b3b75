import Entitlement.Proofs.Assessment
import Entitlement.Proofs.Log.Event
import Entitlement.Proofs.Writing
import Entitlement.Tables.Installed

/-!
A refusal is a verdict that does not allow, and one event.

Requiring usage to be allowed is assessing it. An error of the assessment goes through, a verdict
that allows is returned as it is, and neither touches the log. A verdict that does not allow becomes
an error that carries it, and the quota log gets one event that names the plan, which was resolved
by then. So it is for tables of whole limits and for rows of any kind, as long as the event can be
written out. The quota log goes by the threshold of its first call, whatever the log goes by later.
-/

namespace Entitlement

/-- An event that tells of a refusal. Under its own four keys stands what was refused, under all
others what the context binds. -/
structure Event.Tells (e : Event) (context : Bindings) (p : Plan) (f : Finding) : Prop where
  level : e.level = .info
  name : e.name = "quota_exceeded"
  plan : Assoc.find? e.fields "plan" = some (.text p.wire)
  limitName : Assoc.find? e.fields "limit_name" = some (.text f.limit.wire)
  current : Assoc.find? e.fields "current" = some (.number f.used)
  limit : Assoc.find? e.fields "limit" = some (.number f.cap)
  others : ∀ k ∉ ["plan", "limit_name", "current", "limit"], Assoc.find? e.fields k =
    if reserved.contains k then none else (Assoc.find? context k).map Value.logged

def refusalEvent (context : Bindings) (p : Plan) (f : Finding) : Event :=
  .make .info "quota_exceeded" context (Installed.refusalFields p f)

/-- What requiring makes of an assessment, whatever kind of verdict it gives. A verdict that does
not allow has its event written out if the quota log goes that low. -/
structure Enforces {ε ν : Type} (finding : ν → Finding) (exceeded : ν → ε) (message : ε → String)
    (plan limit used : Value) (log : Log) (assessed : Except ε ν) (outcome : Except ε ν × Log) :
    Prop where
  failed : ∀ e, assessed = .error e → outcome = (.error e, log)
  allowed : ∀ v, assessed = .ok v → (finding v).allowed = true → outcome = (.ok v, log)
  denied : ∀ v, assessed = .ok v → (finding v).allowed = false →
    Limit.ofValue limit = .ok (finding v).limit ∧ used = .number (finding v).used ∧
      promptFor (.limit (finding v).limit) = .ok (message (exceeded v)) ∧
      ∃ p, Plan.ofValue plan = .ok p ∧
        (refusalEvent log.context p (finding v)).Tells log.context p (finding v) ∧
        ((log.quotaLevel ≤ Level.info.number →
            (refusalEvent log.context p (finding v)).writable = true) →
          outcome = (.error (exceeded v),
            { log with
              quotaThreshold := some log.quotaLevel
              printed := log.printed ++
                if log.quotaLevel ≤ Level.info.number then
                  [refusalEvent log.context p (finding v)]
                else [] }))

variable {ε ν : Type} {t : Tables} {i : Installed} {plan limit used cap : Value} {l : Limit}
  {n : Number} {p : Plan} {v : Verdict} {f : Finding} {log : Log} {cap' : Whole}

/-! ### The event -/

lemma find?_refusalFields (context : Bindings) (p : Plan) (f : Finding) (k : String) :
    Assoc.find? (Assoc.putAll context (Installed.refusalFields p f)) k =
      if "limit" = k then some (.number f.cap)
      else if "current" = k then some (.number f.used)
      else if "limit_name" = k then some (.text f.limit.wire)
      else if "plan" = k then some (.text p.wire)
      else Assoc.find? context k := by
  simp only [Installed.refusalFields, Assoc.putAll_cons, Assoc.putAll_nil, Assoc.find?_put,
    beq_iff_eq]

lemma tells_refusalEvent (context : Bindings) (p : Plan) (f : Finding) :
    (refusalEvent context p f).Tells context p f where
  level := rfl
  name := rfl
  plan := by rw [refusalEvent, Event.find?_make, find?_refusalFields]; rfl
  limitName := by rw [refusalEvent, Event.find?_make, find?_refusalFields]; rfl
  current := by rw [refusalEvent, Event.find?_make, find?_refusalFields]; rfl
  limit := by rw [refusalEvent, Event.find?_make, find?_refusalFields]; rfl
  others k hk := by
    simp only [List.mem_cons, List.not_mem_nil, or_false, not_or] at hk
    obtain ⟨hplan, hname, hcurrent, hlimit⟩ := hk
    rw [refusalEvent, Event.find?_make, find?_refusalFields, if_neg (Ne.symm hlimit),
      if_neg (Ne.symm hcurrent), if_neg (Ne.symm hname), if_neg (Ne.symm hplan)]

lemma writable_refusalEvent {context : Bindings} (hcontext : Value.fieldsWritable context = true)
    (hused : f.used.writable = true) (hcap : f.cap.writable = true) (p : Plan) :
    (refusalEvent context p f).writable = true := by
  refine Event.writable_make hcontext ?_
  simp [Installed.refusalFields, Value.fieldsWritable, Value.writable, hused, hcap]

lemma writable_cap_of_denied {cap w : Whole} (h : judge l cap (.whole w) = .ok v)
    (hv : v.allowed = false) (hcap : cap.toInt = unlimited ∨ 0 ≤ cap.toInt)
    (hw : w.writable = true) : v.cap.writable = true := by
  rcases judge_cases h with ⟨-, rfl⟩ | ⟨hlimited, p, -, rfl⟩
  · cases hv
  · have hreached : ¬ w.toInt < cap.toInt := of_decide_eq_false hv
    exact Whole.writable_of_le (hcap.resolve_left hlimited) (not_lt.1 hreached) hw

/-- Every cap is unlimited, or positive and in the range of doubles. -/
def Tables.CapsInRange (t : Tables) : Prop := ∀ p l,
  ((t.limits p).get l).toInt = unlimited ∨
    0 < ((t.limits p).get l).toInt ∧ ((t.limits p).get l).toInt < 2 ^ 1024

lemma capsInRange_shipped : Tables.shipped.CapsInRange := by
  have hlarge : (365 : ℤ) < 2 ^ 1024 := by
    calc (365 : ℤ) < 2 ^ 9 := by decide
      _ ≤ 2 ^ 1024 := pow_le_pow_right₀ (by decide) (by decide)
  have hcaps : ∀ p l, ((Tables.shipped.limits p).get l).toInt = unlimited ∨
      0 < ((Tables.shipped.limits p).get l).toInt ∧
        ((Tables.shipped.limits p).get l).toInt ≤ 365 := by
    intro p l
    cases p <;> cases l <;> decide
  exact fun p l => (hcaps p l).imp_right fun ⟨h0, hle⟩ => ⟨h0, hle.trans_lt hlarge⟩

lemma writable_of_judge (h : judge l cap' n = .ok v) (hv : v.allowed = false)
    (hneg : n.ltInt 0 = false)
    (hcap : cap'.toInt = unlimited ∨ 0 < cap'.toInt ∧ cap'.toInt < 2 ^ 1024) :
    v.used.writable = true ∧ v.cap.writable = true := by
  obtain ⟨-, rfl, rfl⟩ := judge_fields h
  rcases hcap with hcap | ⟨hpos, hlt⟩
  · rw [judge_unlimited hcap] at h
    rw [← Except.ok.inj h] at hv
    cases hv
  refine ⟨?_, Whole.writable_of_lt hpos.le (by decide) hlt⟩
  cases hused : v.used with
  | float x => rfl
  | whole w =>
    rw [hused] at h hneg
    have h0 : 0 ≤ w.toInt := not_lt.1 (of_decide_eq_false hneg)
    rcases judge_cases h with ⟨hcap, -⟩ | ⟨-, percent, hpercent, -⟩
    · rw [hcap] at hpos
      cases hpos
    rcases percentOf_cases h0 hpercent with ⟨hcap, -⟩ | ⟨c, L, hc, hL, hL0, hproduct, -⟩
    · exact absurd hpos (not_lt.2 hcap)
    have hcast (k : ℕ) : ((2 ^ k : ℕ) : ℤ) = 2 ^ k := Int.natCast_pow 2 k
    -- the quotient is a double, so usage has no more bits than two doubles
    have hlarge : ¬ 2 ^ 1024 * L ≤ c := fun hle =>
      (Share.bound_le_quotient hL0 hle).not_gt ((Share.quotient_le_product hL0).trans_lt hproduct)
    have hcap : L < 2 ^ 1024 := by
      rw [hL, ← hcast] at hlt
      exact Int.ofNat_lt.1 hlt
    have hused : c < 2 ^ (1024 + 1024) := by
      calc c < 2 ^ 1024 * L := not_le.1 hlarge
        _ ≤ 2 ^ 1024 * 2 ^ 1024 := Nat.mul_le_mul_left _ hcap.le
        _ = 2 ^ (1024 + 1024) := (pow_add 2 1024 1024).symm
    refine Whole.writable_of_lt (k := 1024 + 1024) h0 (by decide) ?_
    rw [hc, ← hcast]
    exact Int.ofNat_lt.2 hused

/-- With caps in range, a verdict that does not allow can be written out. -/
lemma writable_of_denied (ht : t.CapsInRange) (h : t.assess plan limit used = .ok v)
    (hv : v.allowed = false) : v.used.writable = true ∧ v.cap.writable = true := by
  obtain ⟨n, l, cap, -, hneg, -, hcap, hjudge⟩ := assess_eq_ok_iff.1 h
  obtain ⟨p, l', -, -, hget⟩ := limitOf_eq_ok_iff.1 hcap
  have hrange := ht p l'
  rw [hget] at hrange
  exact writable_of_judge hjudge hv hneg hrange

lemma promptFor_limit (l : Limit) : promptFor (.limit l) = .ok l.prompt := by
  cases l <;> rfl

/-! ### What an assessment has found -/

lemma resolved_of_assess (h : t.assess plan limit used = .ok v) :
    ∃ p, Plan.ofValue plan = .ok p ∧ Limit.ofValue limit = .ok v.limit ∧ used = .number v.used := by
  obtain ⟨n, l, cap, rfl, -, hl, hcap, hjudge⟩ := assess_eq_ok_iff.1 h
  obtain ⟨p, -, hp, -⟩ := limitOf_eq_ok_iff.1 hcap
  obtain ⟨rfl, rfl, -⟩ := judge_fields hjudge
  exact ⟨p, hp, hl, rfl⟩

lemma judgeDouble_fields {x : Binary64} (h : judgeDouble l x n = .ok f) :
    f.limit = l ∧ f.used = n := by
  unfold judgeDouble at h
  split_ifs at h
  · cases h
    exact ⟨rfl, rfl⟩
  · obtain ⟨percent, -, h⟩ := bind_eq_ok_iff.1 h
    obtain ⟨left, -, h⟩ := bind_eq_ok_iff.1 h
    cases h
    exact ⟨rfl, rfl⟩

/-- Only numbers are judged, and the finding is on the limit and the usage that it was asked
about. -/
lemma judgeValue_fields (h : judgeValue l cap n = .ok f) : f.limit = l ∧ f.used = n := by
  match cap with
  | .number (.whole w) =>
    obtain ⟨v, hv, rfl⟩ := map_eq_ok_iff.1 (mapError_eq_ok_iff.1 h)
    obtain ⟨hl, hn, -⟩ := judge_fields hv
    exact ⟨hl, hn⟩
  | .number (.float x) => exact judgeDouble_fields (mapError_eq_ok_iff.1 h)

namespace Installed

lemma resolved_of_assess (h : i.assess plan limit used = .ok f) :
    ∃ p, Plan.ofValue plan = .ok p ∧ Limit.ofValue limit = .ok f.limit ∧ used = .number f.used := by
  match used with
  | .number n =>
    replace h : (if n.ltInt 0 then _ else _) = _ := h
    split_ifs at h
    · cases h
    · obtain ⟨l, hl, h⟩ := bind_eq_ok_iff.1 h
      obtain ⟨cap, hcap, hjudge⟩ := bind_eq_ok_iff.1 h
      unfold limitOf at hcap
      obtain ⟨p, hp, -⟩ := bind_eq_ok_iff.1 hcap
      obtain ⟨rfl, rfl⟩ := judgeValue_fields hjudge
      exact ⟨p, mapError_eq_ok_iff.1 hp, mapError_eq_ok_iff.1 hl, rfl⟩

end Installed

/-! ### What is made of it -/

def settle (finding : ν → Finding) (exceeded : ν → ε) (refused : Error → ε) (plan : Value)
    (log : Log) : Except ε ν → Except ε ν × Log
  | .error e => (.error e, log)
  | .ok v =>
    if (finding v).allowed then (.ok v, log)
    else
      match Plan.ofValue plan with
      | .error e => (.error (refused e), log)
      | .ok p =>
        match log.writeQuota .info "quota_exceeded" (Installed.refusalFields p (finding v)) with
        | (.error e, log) => (.error (refused e), log)
        | (.ok _, log) => (.error (exceeded v), log)

lemma require_eq_settle (t : Tables) (plan limit used : Value) (log : Log) :
    t.require plan limit used log =
      settle Verdict.finding .exceeded id plan log (t.assess plan limit used) := by
  unfold Tables.require settle
  cases t.assess plan limit used with
  | error e => rfl
  | ok v => cases Plan.ofValue plan <;> rfl

lemma Installed.require_eq_settle (i : Installed) (plan limit used : Value) (log : Log) :
    i.require plan limit used log =
      settle id .exceeded .refused plan log (i.assess plan limit used) := by
  unfold Installed.require settle
  cases i.assess plan limit used with
  | error e => rfl
  | ok f => cases Plan.ofValue plan <;> rfl

lemma writeQuota_refusal (h : log.quotaLevel ≤ Level.info.number →
    (refusalEvent log.context p f).writable = true) :
    log.writeQuota .info "quota_exceeded" (Installed.refusalFields p f) =
      (.ok (),
        { log with
          quotaThreshold := some log.quotaLevel
          printed := log.printed ++
            if log.quotaLevel ≤ Level.info.number then [refusalEvent log.context p f]
            else [] }) := by
  have hlevel : (refusalEvent log.context p f).level = .info := rfl
  rw [Log.writeQuota_eq, ← refusalEvent]
  by_cases hle : log.quotaLevel ≤ Level.info.number
  · simp [Event.breaks, Event.isPrinted, hlevel, hle, h hle]
  · simp [Event.breaks, Event.isPrinted, hlevel, hle]

lemma enforces_settle {finding : ν → Finding} {exceeded : ν → ε} {refused : Error → ε}
    {message : ε → String} {assessed : Except ε ν}
    (hmessage : ∀ v, message (exceeded v) = (finding v).limit.prompt)
    (hresolved : ∀ v, assessed = .ok v → ∃ p, Plan.ofValue plan = .ok p ∧
      Limit.ofValue limit = .ok (finding v).limit ∧ used = .number (finding v).used) :
    Enforces finding exceeded message plan limit used log assessed
      (settle finding exceeded refused plan log assessed) where
  failed e h := by rw [h, settle]
  allowed v h hv := by rw [h, settle, if_pos hv]
  denied v h hv := by
    obtain ⟨p, hp, hl, hused⟩ := hresolved v h
    refine ⟨hl, hused, by rw [hmessage, promptFor_limit], p, hp, tells_refusalEvent _ _ _, ?_⟩
    intro hwritable
    rw [h, settle, if_neg (Bool.eq_false_iff.1 hv), hp]
    dsimp only
    rw [writeQuota_refusal hwritable]

lemma enforces_require (t : Tables) (plan limit used : Value) (log : Log) :
    Enforces Verdict.finding .exceeded Error.message plan limit used log
      (t.assess plan limit used) (t.require plan limit used log) := by
  rw [require_eq_settle]
  exact enforces_settle (fun v => rfl) fun v hv => resolved_of_assess hv

lemma Installed.enforces_require (i : Installed) (plan limit used : Value) (log : Log) :
    Enforces id .exceeded Lapse.message plan limit used log (i.assess plan limit used)
      (i.require plan limit used log) := by
  rw [Installed.require_eq_settle]
  exact enforces_settle (fun f => rfl) fun f hf => Installed.resolved_of_assess hf

lemma require_of_unwritable (h : t.assess plan limit used = .ok v) (hv : v.allowed = false)
    (hp : Plan.ofValue plan = .ok p) (hlevel : log.quotaLevel ≤ Level.info.number)
    (hwritable : (refusalEvent log.context p v.finding).writable = false) :
    (t.require plan limit used log).1 = .error .unwritable := by
  have hbreaks : (refusalEvent log.context p v.finding).breaks log.quotaLevel = true := by
    rw [Event.breaks, hwritable, Bool.not_false, Bool.and_true]
    exact decide_eq_true hlevel
  have hdenied : ¬ v.finding.allowed = true := Bool.eq_false_iff.1 hv
  rw [require_eq_settle, h, settle, if_neg hdenied, hp]
  dsimp only
  rw [Log.writeQuota_eq, ← refusalEvent, if_pos hbreaks]
  rfl

end Entitlement
