import Entitlement.Proofs.Assessment.Refusal
import Entitlement.Proofs.Tables.Audit
import Entitlement.Proofs.Tables.Installed

/-!
Tables that were accepted leave no operation without an answer.

Accepted rows read as tables, whatever spelling their keys have, with caps from zero up or
unlimited. So no lookup can fail, no cap is divided by that is not positive, and usage that a double
can hold is judged. What an operation may still refuse is usage that has reached its limit, which is
told unless something is bound that cannot be written out.
-/

namespace Entitlement

variable {α : Type} {permissions : List (Value × List String)}
  {limits : List (Value × Tables.Record)} {plan other limit : Value} {p q : Plan} {l : Limit}
  {w : Whole} {given : Option Settings} {s s' : Settings.Session} {x : Settings} {t : Tables}

/-! ### Rows of accepted tables -/

lemma Limits.ext_get {r r' : Limits α} (h : ∀ l, r.get l = r'.get l) : r = r' := by
  obtain ⟨a, b, c, d⟩ := r
  obtain ⟨a', b', c', d'⟩ := r'
  obtain rfl : a = a' := h .scansPerDay
  obtain rfl : b = b' := h .maxWorkspaces
  obtain rfl : c = c' := h .maxUsersPerWorkspace
  obtain rfl : d = d' := h .retentionDays
  rfl

namespace Tables

lemma Record.Sound.exists_whole {r : Record} (h : r.Sound) :
    ∃ ws : Limits Whole, r = .limits ws.values ∧
      ∀ l, (ws.get l).toInt = unlimited ∨ 0 ≤ (ws.get l).toInt := by
  obtain ⟨ls, rfl, hls⟩ := h
  choose f hf hcap using hls
  have hget (l : Limit) : (Limits.mk (f .scansPerDay) (f .maxWorkspaces) (f .maxUsersPerWorkspace)
      (f .retentionDays)).get l = f l := by
    cases l <;> rfl
  refine ⟨⟨f .scansPerDay, f .maxWorkspaces, f .maxUsersPerWorkspace, f .retentionDays⟩, ?_, ?_⟩
  · exact congrArg Record.limits (Limits.ext_get fun l => by
      rw [hf, Limits.values, Limits.get_map, hget])
  · intro l
    rw [hget]
    exact (hcap l).symm

end Tables

namespace Installed

lemma exists_find? {rows : List (Value × α)} {v : Value}
    (h : ∃ key ∈ rows.map (·.1), v.same key = true) :
    ∃ row ∈ rows, Assoc.find? rows v = some row.2 := by
  induction rows with
  | nil => simp at h
  | cons row rows ih =>
    by_cases hrow : row.1.same v = true
    · exact ⟨row, List.mem_cons_self, if_pos hrow⟩
    · obtain ⟨key, hkey, hsame⟩ := h
      rcases List.mem_cons.1 hkey with rfl | hkey
      · exact absurd (Value.same_symm hsame) hrow
      · obtain ⟨row', hrow', hfind⟩ := ih ⟨key, hkey, hsame⟩
        exact ⟨row', List.mem_cons_of_mem _ hrow', (if_neg hrow).trans hfind⟩

theorem exists_reads (h : Tables.validate permissions limits Tables.allPlans = .ok ()) :
    ∃ t, Reads ⟨permissions, limits⟩ t ∧
      ∀ p l, ((t.limits p).get l).toInt = unlimited ∨ 0 ≤ ((t.limits p).get l).toInt := by
  obtain ⟨vs, hvs, hwell⟩ := Tables.validate_eq_ok_iff.1 h
  have hplan (p : Plan) : Value.plan p ∈ vs := by
    obtain rfl := Option.some.inj hvs
    exact List.mem_map_of_mem (by cases p <;> decide)
  have hpermissions (p : Plan) :
      ∃ ps, (Installed.mk permissions limits).permissionsAt p = .ok ps := by
    obtain ⟨row, -, hfind⟩ := exists_find? (hwell.permissionKeys.1 _ (hplan p))
    exact ⟨row.2, by simp only [permissionsAt, rowOf, hfind]⟩
  have hrecords (p : Plan) : ∃ ws : Limits Whole, (Installed.mk permissions limits).recordAt p =
        .ok (.limits ws.values) ∧
      ∀ l, (ws.get l).toInt = unlimited ∨ 0 ≤ (ws.get l).toInt := by
    obtain ⟨row, hrow, hfind⟩ := exists_find? (hwell.limitKeys.1 _ (hplan p))
    obtain ⟨ws, hws, hcaps⟩ := (hwell.records row hrow).exists_whole
    exact ⟨ws, by simp only [recordAt, rowOf, hfind, hws], hcaps⟩
  -- one row for each plan makes a table
  choose ps hps using hpermissions
  choose ws hws hcaps using hrecords
  exact ⟨⟨ps, ws⟩, ⟨hps, hws⟩, hcaps⟩

/-! ### Every operation answers -/

lemma require_cases {i : Installed} {v : Verdict} {cap : Whole}
    (hf : i.assess plan limit (.number (.whole w)) = .ok v.finding)
    (hv : judge l cap (.whole w) = .ok v) (hcap : cap.toInt = unlimited ∨ 0 ≤ cap.toInt)
    (h0 : 0 ≤ w.toInt) (hw : w.toInt < 2 ^ 1016) {log : Log}
    (hlog : Value.fieldsWritable log.context = true) :
    (i.require plan limit (.number (.whole w)) log).1 = .ok v.finding ∨
      (i.require plan limit (.number (.whole w)) log).1 = .error (.exceeded v.finding) := by
  have henforces := i.enforces_require plan limit (.number (.whole w)) log
  cases hallowed : v.allowed with
  | true => exact Or.inl (congrArg Prod.fst (henforces.allowed _ hf hallowed))
  | false =>
    have hused : v.used.writable = true := by
      rw [(judge_fields hv).2.1]
      exact Whole.writable_of_lt h0 (by decide) hw
    have hwritable : v.finding.cap.writable = true := writable_cap_of_denied hv hallowed hcap
      (Whole.writable_of_lt h0 (by decide) hw)
    obtain ⟨-, -, -, p, -, -, hdenied⟩ := henforces.denied _ hf hallowed
    exact Or.inr (congrArg Prod.fst
      (hdenied fun _ => writable_refusalEvent hlog hused hwritable p))

/-- **Totality on accepted tables**: for plans and limits given as members or by wire name, and
usage below `2 ^ 1016`, every cap is from zero up or unlimited, every operation comes about, and all
that can be refused is usage that has reached its limit, in a context that can be written out. -/
theorem answers_of_validated
    (h : Tables.validate permissions limits Tables.allPlans = .ok ())
    (hp : Plan.ofValue plan = .ok p) (hq : Plan.ofValue other = .ok q)
    (hl : Limit.ofValue limit = .ok l) (h0 : 0 ≤ w.toInt) (hw : w.toInt < 2 ^ 1016)
    (hx : settingsOr given s = (.ok x, s')) (log : Log) :
    let i : Installed := ⟨permissions, limits⟩
    let used : Value := .number (.whole w)
    (∃ cap : Whole, i.limitOf plan limit = .ok (.number (.whole cap)) ∧
        (cap.toInt = unlimited ∨ 0 ≤ cap.toInt)) ∧
      (∃ ps, i.permissionsOf plan = .ok ps) ∧
      (∃ ls, i.limitsOf plan = .ok ls) ∧
      (∃ f, i.assess plan limit used = .ok f) ∧
      (∃ o, i.overviewOf plan given s = (.ok o, s')) ∧
      (∃ os, i.overviews given s = (.ok os, s')) ∧
      (∃ c, i.contrastOf plan other given s = (.ok c, s')) ∧
      (Value.fieldsWritable log.context = true →
        (∃ f, (i.require plan limit used log).1 = .ok f) ∨
          ∃ f, (i.require plan limit used log).1 = .error (.exceeded f)) := by
  intro i used
  obtain ⟨t, ht, hcaps⟩ := exists_reads h
  have hcap : t.limitOf plan limit = .ok ((t.limits p).get l) :=
    limitOf_eq_ok_iff.2 ⟨p, l, hp, hl, rfl⟩
  obtain ⟨v, hv⟩ := judge_isOk l ((t.limits p).get l) h0 le_rfl (by omega)
  have hf : i.assess plan limit used = .ok v.finding := by
    rw [ht.assess_eq, assess_of_limitOf h0 hl hcap, hv]
    rfl
  refine ⟨⟨_, ?_, hcaps p l⟩, ⟨t.permissions p, ?_⟩, ⟨(t.limits p).values.byWire, ?_⟩, ⟨_, hf⟩,
    ⟨t.overview x p, ?_⟩, ⟨Plan.all.map (t.overview x), ?_⟩, ⟨t.contrast x p q, ?_⟩, ?_⟩
  · rw [ht.limitOf_eq, hcap]
    rfl
  · rw [ht.permissionsOf_eq, Tables.permissionsOf, hp]
    rfl
  · rw [ht.limitsOf_eq, Tables.limitsOf, hp]
    rfl
  · rw [ht.overviewOf_eq, Tables.overviewOf, hp, hx]
    rfl
  · rw [ht.overviews_eq, Tables.overviews, hx]
    rfl
  · rw [ht.contrastOf_eq, Tables.contrastOf, hp, hq, hx]
    rfl
  · intro hlog
    rcases require_cases hf hv (hcaps p l) h0 hw hlog with hok | hexceeded
    · exact Or.inl ⟨_, hok⟩
    · exact Or.inr ⟨_, hexceeded⟩

/-- Rows under wire names, of which one limit is written as a truth value that stands for none, one
is unlimited and one is far above every double. -/
theorem rows_by_wire_name_answer :
    let x : Settings := ⟨"INFO", Settings.defaultStoreUrl, 7, .zero, .zero, .zero, .nan⟩
    let permissions : List (Value × List String) := Plan.all.map fun p => (.text p.wire, [])
    let record : Tables.Record := .limits ⟨.bool false, .int unlimited, .int (10 ^ 400), .int 1⟩
    let limits := Plan.all.reverse.map fun p => (Value.text p.wire, record)
    let i : Installed := ⟨permissions, limits⟩
    Tables.validate permissions limits Tables.allPlans = .ok () ∧
      (∃ cap : Whole, i.limitOf (.text "PRO") (.limit .scansPerDay) = .ok (.number (.whole cap)) ∧
        (cap.toInt = unlimited ∨ 0 ≤ cap.toInt)) ∧
      (∃ f, i.assess (.text "PRO") (.limit .scansPerDay) (.int 5) = .ok f) ∧
      ∃ c, i.contrastOf (.text "PRO") (.plan .business) (some x) .start = (.ok c, .start) := by
  intro x permissions record limits i
  have hfive : (5 : ℤ) < 2 ^ 1016 :=
    lt_of_lt_of_le (by decide : (5 : ℤ) < 2 ^ 3) (pow_le_pow_right₀ (by decide) (by decide))
  have hok : Tables.validate permissions limits Tables.allPlans = .ok () := rfl
  have hpro : Plan.ofValue (.text "PRO") = .ok .pro := Plan.ofValue_wire .pro
  have hx : settingsOr (some x) .start = (.ok x, .start) := rfl
  obtain ⟨hcap, -, -, hassess, -, -, hcontrast, -⟩ := answers_of_validated (w := .int 5) hok hpro
    (Plan.ofValue_plan .business) (Limit.ofValue_limit .scansPerDay) (by decide) hfive hx .fresh
  exact ⟨hok, hcap, hassess, hcontrast⟩

end Installed

end Entitlement
