import Entitlement.Proofs.Assessment
import Entitlement.Proofs.Keys

/-!
Which tables the check accepts.

Both tables have to be keyed by the plans, no less and no more, where keys count as the same across
their spellings, and each row of the limits has to be a limits record of whole numbers from zero up
or the mark of an unlimited limit. Every stage of the check accepts just what its part of this says,
so order, repetition and what is permitted play no part.
-/

namespace Entitlement.Tables

/-- Two lists of keys are the same set: every key of one is the same as some key of the other. -/
def SameKeys (vs ws : List Value) : Prop :=
  (∀ v ∈ vs, ∃ w ∈ ws, v.same w = true) ∧ ∀ w ∈ ws, ∃ v ∈ vs, w.same v = true

/-- A limits record of whole numbers, each from zero up or the mark of an unlimited limit. -/
def Record.Sound (r : Record) : Prop :=
  ∃ ls, r = .limits ls ∧ ∀ l, ∃ w, ls.get l = .number (.whole w) ∧
    (0 ≤ w.toInt ∨ w.toInt = unlimited)

/-- Tables with a row for each of the plans and for nothing else, and sound limits records. -/
structure WellFormed {α : Type} (permissions : List (Value × α)) (limits : List (Value × Record))
    (plans : List Value) : Prop where
  permissionKeys : SameKeys plans (permissions.map (·.1))
  limitKeys : SameKeys plans (limits.map (·.1))
  bothKeys : SameKeys (permissions.map (·.1)) (limits.map (·.1))
  records : ∀ row ∈ limits, row.2.Sound

variable {α β : Type} {permissions : List (Value × α)} {permissions' : List (Value × β)}
  {limits limits' : List (Value × Record)} {plans : Value} {table : TableName}
  {key v w : Value} {vs vs' ws ws' ps : List Value}

/-! ### Sets of keys -/

namespace SameKeys

lemma symm (h : SameKeys vs ws) : SameKeys ws vs := ⟨h.2, h.1⟩

lemma trans (h : SameKeys vs ws) (h' : SameKeys ws ps) : SameKeys vs ps := by
  constructor
  · intro v hv
    obtain ⟨w, hw, hvw⟩ := h.1 v hv
    obtain ⟨p, hp, hwp⟩ := h'.1 w hw
    exact ⟨p, hp, Value.same_trans hvw hwp⟩
  · intro p hp
    obtain ⟨w, hw, hpw⟩ := h'.2 p hp
    obtain ⟨v, hv, hwv⟩ := h.2 w hw
    exact ⟨v, hv, Value.same_trans hpw hwv⟩

lemma of_mem_iff (h : SameKeys vs ws) (hvs : ∀ v, v ∈ vs ↔ v ∈ vs') (hws : ∀ w, w ∈ ws ↔ w ∈ ws') :
    SameKeys vs' ws' := by
  simpa only [SameKeys, hvs, hws] using h

end SameKeys

lemma mem_of_mem_distinct : v ∈ distinct vs → v ∈ vs := by
  induction vs with
  | nil => exact id
  | cons w vs ih =>
    intro h
    rcases List.mem_cons.1 h with rfl | h
    · exact List.mem_cons_self
    · exact List.mem_cons_of_mem _ (ih (List.mem_filter.1 h).1)

lemma exists_mem_distinct (h : v ∈ vs) : ∃ w ∈ distinct vs, w = v ∨ w.same v = true := by
  induction vs with
  | nil => cases h
  | cons u vs ih =>
    rcases List.mem_cons.1 h with rfl | h
    · exact ⟨v, List.mem_cons_self, Or.inl rfl⟩
    · obtain ⟨w, hw, hwv⟩ := ih h
      by_cases huw : u.same w = true
      · refine ⟨u, List.mem_cons_self, Or.inr ?_⟩
        rcases hwv with rfl | hwv
        · exact huw
        · exact Value.same_trans huw hwv
      · refine ⟨w, List.mem_cons_of_mem _ (List.mem_filter.2 ⟨hw, ?_⟩), hwv⟩
        exact congrArg Bool.not (Bool.eq_false_iff.2 huw)

lemma sameKeys_distinct_iff : SameKeys (distinct vs) ws ↔ SameKeys vs ws := by
  -- what was dropped equals something that was kept
  constructor
  · rintro ⟨hvs, hws⟩
    constructor
    · intro v hv
      obtain ⟨u, hu, huv⟩ := exists_mem_distinct hv
      obtain ⟨w, hw, huw⟩ := hvs u hu
      rcases huv with rfl | huv
      · exact ⟨w, hw, huw⟩
      · exact ⟨w, hw, Value.same_trans (Value.same_symm huv) huw⟩
    · intro w hw
      obtain ⟨v, hv, hwv⟩ := hws w hw
      exact ⟨v, mem_of_mem_distinct hv, hwv⟩
  · rintro ⟨hvs, hws⟩
    constructor
    · intro v hv
      exact hvs v (mem_of_mem_distinct hv)
    · intro w hw
      obtain ⟨v, hv, hwv⟩ := hws w hw
      obtain ⟨u, hu, huv⟩ := exists_mem_distinct hv
      rcases huv with rfl | huv
      · exact ⟨u, hu, hwv⟩
      · exact ⟨u, hu, Value.same_trans hwv (Value.same_symm huv)⟩

/-! ### The stages of the check -/

lemma expected_eq_ok_iff : expected plans = .ok ps ↔
    ∃ vs, plans.elements? = some vs ∧ (∀ v ∈ vs, v.hashable = true) ∧ distinct vs = ps := by
  unfold expected
  cases plans.elements? with
  | none => simp
  | some vs =>
    simp only [Option.some.injEq, exists_eq_left']
    cases hfind : vs.find? fun v => !v.hashable with
    | none =>
      have hall : ∀ v ∈ vs, v.hashable = true := by simpa using hfind
      simpa using fun _ => hall
    | some v =>
      have hmem : v ∈ vs := List.mem_of_find?_eq_some hfind
      have hnot : ¬ v.hashable = true := by simpa using List.find?_some hfind
      exact iff_of_false (fun h => nomatch h) fun h => hnot (h.1 v hmem)

lemma without_eq_nil_iff : without vs ws = [] ↔ ∀ v ∈ vs, ∃ w ∈ ws, v.same w = true := by
  simp only [without, List.filter_eq_nil_iff, Bool.not_eq_true', Bool.not_eq_false,
    List.any_eq_true]
  rfl

lemma checkKeys_eq_ok_iff : checkKeys table vs ws = .ok () ↔ SameKeys vs ws := by
  unfold SameKeys
  rw [← without_eq_nil_iff, ← without_eq_nil_iff]
  unfold checkKeys
  cases without vs ws with
  | nil =>
    cases without ws vs with
    | nil => simp
    | cons w unknown =>
      -- unknown keys are refused whether they can be written out or not
      dsimp only
      split <;> simp
  | cons v missing =>
    dsimp only
    generalize (v :: missing).mapM wireName = names
    cases names <;> simp [bind, Except.bind]

lemma acceptable_eq_true_iff : acceptable v = true ↔
    ∃ w, v = .number (.whole w) ∧ (0 ≤ w.toInt ∨ w.toInt = unlimited) := by
  unfold acceptable
  split <;> simp_all

lemma badLimit?_eq_none_iff {r : Limits Value} :
    badLimit? r = none ↔ ∀ l, acceptable (r.get l) = true := by
  have hall (l : Limit) : l ∈ Limit.all := by cases l <;> decide
  simp [badLimit?, hall]

lemma checkRecord_eq_ok_iff {r : Record} : checkRecord key r = .ok () ↔ r.Sound := by
  cases r with
  | other v => simp [checkRecord, Record.Sound]
  | limits r =>
    simp only [Record.Sound, Record.limits.injEq, exists_eq_left', ← acceptable_eq_true_iff,
      ← badLimit?_eq_none_iff, checkRecord]
    cases badLimit? r with
    | none => simp
    | some l => cases wireName key <;> simp [bind, Except.bind]

lemma checkRecords_eq_ok_iff :
    checkRecords limits = .ok () ↔ ∀ row ∈ limits, row.2.Sound := by
  induction limits with
  | nil => simp [checkRecords]
  | cons row rows ih =>
    simp only [checkRecords, bind_eq_ok_iff, Unique.exists_iff, PUnit.default_eq_unit,
      checkRecord_eq_ok_iff, ih, List.forall_mem_cons]

lemma validate_eq_ok_iff : validate permissions limits plans = .ok () ↔
    ∃ vs, plans.elements? = some vs ∧ WellFormed permissions limits vs := by
  simp only [validate, bind_eq_ok_iff, Unique.exists_iff, PUnit.default_eq_unit,
    expected_eq_ok_iff, checkKeys_eq_ok_iff, checkRecords_eq_ok_iff]
  constructor
  · rintro ⟨_, ⟨vs, hplans, -, rfl⟩, hpermissions, hlimits, hrecords⟩
    rw [sameKeys_distinct_iff] at hpermissions hlimits
    exact ⟨vs, hplans, hpermissions, hlimits, hpermissions.symm.trans hlimits, hrecords⟩
  · rintro ⟨vs, hplans, h⟩
    have hashable (v : Value) (hv : v ∈ vs) : v.hashable = true := by
      obtain ⟨w, -, hvw⟩ := h.permissionKeys.1 v hv
      exact Value.hashable_of_same hvw
    exact ⟨_, ⟨vs, hplans, hashable, rfl⟩, sameKeys_distinct_iff.2 h.permissionKeys,
      sameKeys_distinct_iff.2 h.limitKeys, h.records⟩

/-! ### Acceptance -/

/-- Well-formedness is about sets of keys and about rows one by one. -/
lemma WellFormed.of_same (h : WellFormed permissions limits vs)
    (hpermissions : (permissions.map (·.1)).Perm (permissions'.map (·.1)))
    (hlimits : limits.Perm limits') (hvs : ∀ v, v ∈ vs ↔ v ∈ vs') :
    WellFormed permissions' limits' vs' := by
  have hkeys : ∀ w, w ∈ limits.map (·.1) ↔ w ∈ limits'.map (·.1) :=
    fun w => (hlimits.map _).mem_iff
  exact
    { permissionKeys := h.permissionKeys.of_mem_iff hvs fun w => hpermissions.mem_iff
      limitKeys := h.limitKeys.of_mem_iff hvs hkeys
      bothKeys := h.bothKeys.of_mem_iff (fun w => hpermissions.mem_iff) hkeys
      records := fun row hrow => h.records row (hlimits.mem_iff.2 hrow) }

/-- **Exactness of the check**: well-formed tables are accepted and all others refused. The order
of the rows of either table, the order and repetition of the plans and the contents of the
permission rows make no difference. -/
theorem validate_exact (permissions : List (Value × α)) (limits : List (Value × Record))
    (plans : Value) :
    (validate permissions limits plans = .ok () ↔
        ∃ vs, plans.elements? = some vs ∧ WellFormed permissions limits vs) ∧
      ((∃ e, validate permissions limits plans = .error e) ↔
        ¬ ∃ vs, plans.elements? = some vs ∧ WellFormed permissions limits vs) ∧
      ∀ (permissions' : List (Value × β)) (limits' : List (Value × Record)) (plans' : Value)
        (vs vs' : List Value), plans.elements? = some vs → plans'.elements? = some vs' →
        (permissions.map (·.1)).Perm (permissions'.map (·.1)) → limits.Perm limits' →
        (∀ v, v ∈ vs ↔ v ∈ vs') →
        (validate permissions limits plans = .ok () ↔
          validate permissions' limits' plans' = .ok ()) := by
  refine ⟨validate_eq_ok_iff, ?_, ?_⟩
  · rw [← validate_eq_ok_iff]
    cases validate permissions limits plans <;> simp
  · intro permissions' limits' plans' vs vs' hplans hplans' hpermissions hlimits hvs
    simp only [validate_eq_ok_iff, hplans, hplans', Option.some.injEq, exists_eq_left']
    constructor
    · intro h
      exact h.of_same hpermissions hlimits hvs
    · intro h
      exact h.of_same hpermissions.symm hlimits.symm fun v => (hvs v).symm

/-- Limits under wire names, with a truth value and the mark of an unlimited one among them, are
accepted, also in reverse order, with other permissions and with a plan repeated. -/
theorem rows_by_wire_name :
    let permissions : List (Value × List String) := Plan.all.map fun p => (.plan p, [p.display])
    let permissions' : List (Value × Unit) := Plan.all.reverse.map fun p => (.plan p, ())
    let limits := Plan.all.map fun p =>
      (Value.text p.wire, Record.limits ⟨.int 3, .bool true, .int unlimited, .int 0⟩)
    let plans : List Value := .plan .pro :: Plan.all.reverse.map .plan
    (∃ vs, allPlans.elements? = some vs ∧ WellFormed permissions limits vs) ∧
      validate permissions' limits.reverse (.list plans) = .ok () := by
  intro permissions permissions' limits plans
  have hok : validate permissions limits allPlans = .ok () := rfl
  have hplans (v : Value) : v ∈ Plan.all.map Value.plan ↔ v ∈ plans := by
    simp only [plans, Plan.all, List.map_cons, List.map_nil, List.reverse_cons, List.reverse_nil,
      List.nil_append, List.cons_append, List.mem_cons]
    tauto
  obtain ⟨hiff, -, hsame⟩ := validate_exact (β := Unit) permissions limits allPlans
  refine ⟨hiff.1 hok, (hsame permissions' limits.reverse (.list plans) _ plans rfl rfl ?_ ?_
    hplans).1 hok⟩
  · exact (List.reverse_perm (Plan.all.map Value.plan)).symm
  · exact (List.reverse_perm limits).symm

end Entitlement.Tables
