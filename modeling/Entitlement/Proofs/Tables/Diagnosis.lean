import Entitlement.Proofs.Tables.Audit
import Entitlement.Proofs.Writing

/-!
What is told of tables that are not accepted.

The check tells of the first fault only. Plans without a row and keys that are no plans are told in
full, sorted and each once, so the order of the rows plays no part there; of the limits the first
bad row is told, and of it the first bad field. Two kinds of bad rows are not told of. The name in
the message is asked of the key, and texts have none to give, so a row under the wire name of a plan
fails in a way of its own; and a limit that cannot be written out fails on the message.
-/

namespace Entitlement

/-- Whether an error is what is told of tables that are not accepted. -/
def Error.isTableFault : Error → Bool
  | .missingPlans .. | .unknownPlans .. | .invalidLimit .. => true
  | _ => false

namespace Tables

/-! ### What there is to tell -/

/-- The names of all that have a property, each of them named once, in sorted order. -/
structure Enumerates {β : Type} (P : β → Prop) (name : β → String) (names : List String) :
    Prop where
  increasing : names.Pairwise (· ≤ ·)
  once : ∃ xs : List β, xs.Nodup ∧ (∀ x, x ∈ xs ↔ P x) ∧ names.Perm (xs.map name)

/-- A plan that has no key. -/
def Lacks (ps : List Plan) (keys : List Value) (p : Plan) : Prop := p ∈ ps ∧ .plan p ∉ keys

/-- A key that is none of the plans. -/
def Strange (ps : List Plan) (keys : List Value) (v : Value) : Prop :=
  v ∈ keys ∧ ∀ p ∈ ps, v ≠ .plan p

/-- The keys are the plans, no less and no more. -/
def Keyed (ps : List Plan) (keys : List Value) : Prop :=
  (∀ p, ¬ Lacks ps keys p) ∧ ∀ v, ¬ Strange ps keys v

/-- A limit as it may stand in a record. -/
def Fit (v : Value) : Prop :=
  ∃ w, v = .number (.whole w) ∧ (0 ≤ w.toInt ∨ w.toInt = unlimited)

/-- The first row with a limit that is not fit, and the first such limit of that row. -/
structure FirstUnfit (limits : List (Value × Record)) (key : Value) (r : Limits Value)
    (l : Limit) : Prop where
  row : ∃ front back, limits = front ++ (key, .limits r) :: back ∧ ∀ row ∈ front, row.2.Sound
  field : ∃ before after, Limit.all = before ++ l :: after ∧ ∀ l' ∈ before, Fit (r.get l')
  unfit : ¬ Fit (r.get l)

/-- What is told of the keys of a table. -/
inductive KeyFault (table : TableName) (ps : List Plan) (keys : List Value) : String → Prop
  | missing {names : List String} (hsome : ∃ p, Lacks ps keys p)
      (h : Enumerates (Lacks ps keys) Plan.wire names) :
      KeyFault table ps keys
        ("Plan " ++ table.text ++ " table is missing entries for: " ++ ", ".intercalate names)
  | unknown {names : List String} (hnone : ∀ p, ¬ Lacks ps keys p)
      (hsome : ∃ v, Strange ps keys v) (h : Enumerates (Strange ps keys) Value.display names) :
      KeyFault table ps keys
        ("Plan " ++ table.text ++ " table has unknown plans: " ++ ", ".intercalate names)

variable {α : Type}

/-- What is told of tables: faults of the keys of the permissions come before those of the limits,
and those before faults of the rows, of which only a limit that can be written out is told. -/
inductive Told (ps : List Plan) (permissions : List (Value × α)) (limits : List (Value × Record)) :
    String → Prop
  | permissions {m : String} (h : KeyFault .permissions ps (permissions.map (·.1)) m) :
      Told ps permissions limits m
  | limits {m : String} (hp : Keyed ps (permissions.map (·.1)))
      (h : KeyFault .limits ps (limits.map (·.1)) m) : Told ps permissions limits m
  | row {p : Plan} {r : Limits Value} {l : Limit} (hp : Keyed ps (permissions.map (·.1)))
      (hl : Keyed ps (limits.map (·.1))) (h : FirstUnfit limits (.plan p) r l)
      (hw : (r.get l).writable = true) :
      Told ps permissions limits
        ("Invalid " ++ l.field ++ " for " ++ p.wire ++ ": " ++ (r.get l).literal)

/-- The first fault is a limit that cannot be written out. -/
structure Untold (ps : List Plan) (permissions : List (Value × α))
    (limits : List (Value × Record)) : Prop where
  permissionKeys : Keyed ps (permissions.map (·.1))
  limitKeys : Keyed ps (limits.map (·.1))
  row : ∃ p r l, FirstUnfit limits (.plan p) r l ∧ (r.get l).writable = false

variable {β : Type} {permissions : List (Value × α)} {limits : List (Value × Record)}
  {table : TableName} {ps : List Plan} {p : Plan} {keys vs : List Value} {key k v w : Value}
  {r r' : Limits Value} {l : Limit} {e : Error} {m : String}

/-! ### Sorted names -/

lemma sorted_perm (ss : List String) : (sorted ss).Perm ss := List.mergeSort_perm ss _

lemma sorted_increasing (ss : List String) : (sorted ss).Pairwise (· ≤ ·) := by
  have hle (s t : String) : (!decide (t < s)) = true ↔ s ≤ t := by
    rw [Bool.not_eq_true', decide_eq_false_iff_not, String.not_lt]
  have htotal (s t : String) : ((!decide (t < s)) || !decide (s < t)) = true := by
    rw [Bool.or_eq_true, hle, hle]
    exact String.le_total s t
  refine (List.pairwise_mergeSort ?_ htotal ss).imp fun {s t} h => (hle s t).1 h
  intro s t u hst htu
  rw [hle] at hst htu ⊢
  exact String.le_trans hst htu

/-- There is one way to enumerate. -/
lemma enumerates_iff {P : β → Prop} {name : β → String} {xs : List β} (hxs : xs.Nodup)
    (hP : ∀ x, x ∈ xs ↔ P x) {names : List String} :
    Enumerates P name names ↔ names = sorted (xs.map name) := by
  constructor
  · rintro ⟨hnames, ys, hys, hP', hperm⟩
    have hyx : ys.Perm xs :=
      (List.perm_ext_iff_of_nodup hys hxs).2 fun x => (hP' x).trans (hP x).symm
    exact List.Perm.eq_of_pairwise (fun s t _ _ => String.le_antisymm) hnames
      (sorted_increasing _) ((hperm.trans (hyx.map name)).trans (sorted_perm _).symm)
  · rintro rfl
    exact ⟨sorted_increasing _, xs, hxs, hP, sorted_perm _⟩

/-! ### Keys -/

/-- Distinct keys, each of them a plan or a text that is the wire name of no plan. -/
structure Ordinary (keys : List Value) : Prop where
  apart : keys.Pairwise fun v w => v.same w = false
  plain : ∀ v ∈ keys, (∃ p, v = .plan p) ∨ ∃ s, v.text? = some s ∧ ∀ p : Plan, s ≠ p.wire

lemma same_plan_iff : (Value.plan p).same v = true ↔ v.text? = some p.wire := by
  have hp : (Value.plan p).text? = some p.wire := rfl
  unfold Value.same
  rw [hp]
  cases v.text? with
  | none => simp
  | some s =>
    rw [Option.some.injEq]
    exact beq_iff_eq.trans eq_comm

lemma same_plan_iff' : v.same (.plan p) = true ↔ v.text? = some p.wire := by
  rw [← same_plan_iff]
  exact ⟨Value.same_symm, Value.same_symm⟩

lemma same_self {s : String} (h : v.text? = some s) : v.same v = true := by
  simp [Value.same, h]

lemma wire_injective : Function.Injective Plan.wire := by
  intro p q h
  have hsome : some p = some q := by rw [← Plan.ofWire?_wire p, h, Plan.ofWire?_wire q]
  exact Option.some.inj hsome

lemma writable_of_text? {s : String} (h : v.text? = some s) : v.writable = true := by
  cases v <;> first | rfl | cases h

namespace Ordinary

lemma exists_text? (h : Ordinary keys) (hv : v ∈ keys) : ∃ s, v.text? = some s := by
  rcases h.plain v hv with ⟨p, rfl⟩ | ⟨s, hs, -⟩
  · exact ⟨p.wire, rfl⟩
  · exact ⟨s, hs⟩

lemma writable (h : Ordinary keys) : ∀ v ∈ keys, v.writable = true := by
  intro v hv
  obtain ⟨s, hs⟩ := h.exists_text? hv
  exact writable_of_text? hs

lemma text?_eq_iff (h : Ordinary keys) (hv : v ∈ keys) :
    v.text? = some p.wire ↔ v = .plan p := by
  constructor
  · intro htext
    rcases h.plain v hv with ⟨q, rfl⟩ | ⟨s, hs, hne⟩
    · exact congrArg Value.plan (wire_injective (Option.some.inj htext))
    · exact absurd (Option.some.inj (hs.symm.trans htext)) (hne p)
  · rintro rfl
    rfl

lemma nodup (h : Ordinary keys) : keys.Nodup := by
  refine h.apart.imp_of_mem fun {v w} hv _ hvw => ?_
  rintro rfl
  obtain ⟨s, hs⟩ := h.exists_text? hv
  rw [same_self hs] at hvw
  cases hvw

end Ordinary

lemma ordinary_plans : Ordinary (Plan.all.map .plan) where
  apart := by decide
  plain v hv := by
    obtain ⟨p, -, rfl⟩ := List.mem_map.1 hv
    exact Or.inl ⟨p, rfl⟩

lemma keyed_plans : Keyed Plan.all (Plan.all.map .plan) := by
  constructor
  · rintro p ⟨hp, hlacks⟩
    exact hlacks (List.mem_map_of_mem hp)
  · rintro v ⟨hv, hstrange⟩
    obtain ⟨p, hp, rfl⟩ := List.mem_map.1 hv
    exact hstrange p hp rfl

lemma exists_distinct_eq_map (ps : List Plan) :
    ∃ qs : List Plan, qs.Nodup ∧ (∀ p, p ∈ qs ↔ p ∈ ps) ∧
      distinct (ps.map .plan) = qs.map .plan := by
  induction ps with
  | nil => exact ⟨[], List.nodup_nil, fun _ => Iff.rfl, rfl⟩
  | cons p ps ih =>
    obtain ⟨qs, hqs, hmem, heq⟩ := ih
    -- plans are the same as keys only if they are the same plan
    have hsame (q : Plan) : (!(Value.plan p == Value.plan q)) = true ↔ q ≠ p := by
      rw [Bool.not_eq_true', ← Bool.not_eq_true]
      refine not_congr (same_plan_iff.trans ?_)
      exact ⟨fun h => wire_injective (Option.some.inj h), fun h => h ▸ rfl⟩
    refine ⟨p :: qs.filter fun q => !(Value.plan p == Value.plan q), ?_, ?_, ?_⟩
    · refine List.nodup_cons.2 ⟨?_, hqs.filter _⟩
      rw [List.mem_filter, hsame]
      exact fun h => h.2 rfl
    · intro q
      rw [List.mem_cons, List.mem_cons, List.mem_filter, hsame, hmem]
      by_cases hq : q = p <;> simp [hq]
    · show Value.plan p :: (distinct (ps.map .plan)).filter _ = _
      rw [heq, List.filter_map]
      rfl

lemma exists_without_eq_map (ps : List Plan) (keys : List Value) :
    ∃ ms : List Plan, ms.Nodup ∧
      (∀ p, p ∈ ms ↔ p ∈ ps ∧ ∀ v ∈ keys, ¬ v.text? = some p.wire) ∧
      without (distinct (ps.map .plan)) keys = ms.map .plan := by
  obtain ⟨qs, hqs, hmem, heq⟩ := exists_distinct_eq_map ps
  refine ⟨qs.filter fun p => !keys.any (Value.plan p == ·), hqs.filter _, fun p => ?_, ?_⟩
  · have hany : (!keys.any (Value.plan p == ·)) = true ↔
        ∀ v ∈ keys, ¬ v.text? = some p.wire := by
      rw [Bool.not_eq_true', List.any_eq_false]
      exact forall₂_congr fun v _ => not_congr same_plan_iff
    rw [List.mem_filter, hmem, hany]
  · rw [heq, without, List.filter_map]
    rfl

lemma mem_without_distinct_iff :
    v ∈ without keys (distinct (ps.map .plan)) ↔
      v ∈ keys ∧ ∀ p ∈ ps, ¬ v.text? = some p.wire := by
  obtain ⟨qs, -, hmem, heq⟩ := exists_distinct_eq_map ps
  have hany : (!(qs.map Value.plan).any (v == ·)) = true ↔
      ∀ p ∈ ps, ¬ v.text? = some p.wire := by
    rw [Bool.not_eq_true', List.any_eq_false, List.forall_mem_map]
    simp only [hmem]
    exact forall₂_congr fun p _ => not_congr same_plan_iff'
  rw [heq, without, List.mem_filter, hany]

lemma checkKeys_of_missing {ms : List Plan} (hms : ms ≠ [])
    (h : without vs keys = ms.map .plan) :
    checkKeys table vs keys = .error (.missingPlans table (sorted (ms.map Plan.wire))) := by
  have hnames : (ms.map Value.plan).mapM wireName = .ok (ms.map Plan.wire) := by
    rw [List.mapM_map]
    exact mapM_ok fun p _ => rfl
  unfold checkKeys
  rw [h]
  split
  · simp_all
  · simp_all
  · rw [hnames]
    rfl

lemma checkKeys_of_unknown (h : without vs keys = []) (h' : without keys vs ≠ [])
    (hkeys : ∀ v ∈ keys, v.writable = true) :
    checkKeys table vs keys =
      .error (.unknownPlans table (sorted ((without keys vs).map Value.display))) := by
  have hall : (without keys vs).all Value.writable = true :=
    List.all_eq_true.2 fun v hv => hkeys v (List.mem_filter.1 hv).1
  unfold checkKeys
  rw [h]
  cases hextra : without keys vs with
  | nil => exact absurd hextra h'
  | cons v extra =>
    rw [hextra] at hall
    exact if_pos hall

lemma isTableFault_of_checkKeys (hkeys : ∀ v ∈ keys, v.writable = true)
    (h : checkKeys table (distinct (ps.map .plan)) keys = .error e) : e.isTableFault = true := by
  obtain ⟨ms, -, -, hmissing⟩ := exists_without_eq_map ps keys
  cases ms with
  | cons p ms =>
    rw [checkKeys_of_missing (List.cons_ne_nil p ms) hmissing] at h
    obtain rfl := Except.error.inj h
    rfl
  | nil =>
    by_cases hextra : without keys (distinct (ps.map .plan)) = []
    · rw [checkKeys_eq_ok_iff.2
        ⟨without_eq_nil_iff.1 hmissing, without_eq_nil_iff.1 hextra⟩] at h
      cases h
    · rw [checkKeys_of_unknown hmissing hextra hkeys] at h
      obtain rfl := Except.error.inj h
      rfl

namespace Ordinary

lemma mem_without_iff (h : Ordinary keys) :
    v ∈ without keys (distinct (ps.map .plan)) ↔ Strange ps keys v := by
  rw [mem_without_distinct_iff]
  exact and_congr_right fun hv => forall₂_congr fun p _ => not_congr (h.text?_eq_iff hv)

lemma exists_lacking (h : Ordinary keys) (ps : List Plan) :
    ∃ ms : List Plan, ms.Nodup ∧ (∀ p, p ∈ ms ↔ Lacks ps keys p) ∧
      without (distinct (ps.map .plan)) keys = ms.map .plan := by
  obtain ⟨ms, hms, hmem, heq⟩ := exists_without_eq_map ps keys
  refine ⟨ms, hms, fun p => (hmem p).trans (and_congr_right fun _ => ?_), heq⟩
  constructor
  · exact fun hall hp => hall _ hp rfl
  · rintro hp v hv htext
    obtain rfl := (h.text?_eq_iff hv).1 htext
    exact hp hv

lemma keyed_iff (h : Ordinary keys) : Keyed ps keys ↔ SameKeys (ps.map .plan) keys := by
  obtain ⟨ms, -, hmem, heq⟩ := h.exists_lacking ps
  rw [← sameKeys_distinct_iff, SameKeys, ← without_eq_nil_iff, ← without_eq_nil_iff, heq,
    List.map_eq_nil_iff, List.eq_nil_iff_forall_not_mem, List.eq_nil_iff_forall_not_mem]
  simp only [Keyed, hmem, h.mem_without_iff]

lemma checkKeys_tells (h : Ordinary keys) :
    (∃ e, checkKeys table (distinct (ps.map .plan)) keys = .error e ∧ e.message = m) ↔
      KeyFault table ps keys m := by
  -- missing plans are looked for first
  obtain ⟨ms, hms, hmem, hmissing⟩ := h.exists_lacking ps
  have hextra : (without keys (distinct (ps.map .plan))).Nodup := h.nodup.filter _
  constructor
  · rintro ⟨e, he, rfl⟩
    cases ms with
    | cons p ms =>
      rw [checkKeys_of_missing (List.cons_ne_nil p ms) hmissing] at he
      obtain rfl := Except.error.inj he
      exact .missing ⟨p, (hmem p).1 List.mem_cons_self⟩ ((enumerates_iff hms hmem).2 rfl)
    | nil =>
      cases hcons : without keys (distinct (ps.map .plan)) with
      | nil =>
        rw [checkKeys_eq_ok_iff.2
          ⟨without_eq_nil_iff.1 hmissing, without_eq_nil_iff.1 hcons⟩] at he
        cases he
      | cons v vs =>
        have hv : v ∈ without keys (distinct (ps.map .plan)) := hcons ▸ List.mem_cons_self
        rw [checkKeys_of_unknown hmissing (List.ne_nil_of_mem hv) h.writable] at he
        obtain rfl := Except.error.inj he
        exact .unknown (fun p hp => List.not_mem_nil ((hmem p).2 hp)) ⟨v, h.mem_without_iff.1 hv⟩
          ((enumerates_iff hextra fun _ => h.mem_without_iff).2 rfl)
  · rintro (⟨⟨p, hp⟩, hnames⟩ | ⟨hnone, ⟨v, hv⟩, hnames⟩)
    · obtain rfl := (enumerates_iff hms hmem).1 hnames
      exact ⟨_, checkKeys_of_missing (List.ne_nil_of_mem ((hmem p).2 hp)) hmissing, rfl⟩
    · obtain rfl := (enumerates_iff hextra fun _ => h.mem_without_iff).1 hnames
      have hnil : ms = [] := List.eq_nil_iff_forall_not_mem.2 fun p hp => hnone p ((hmem p).1 hp)
      rw [hnil] at hmissing
      exact ⟨_, checkKeys_of_unknown hmissing (List.ne_nil_of_mem (h.mem_without_iff.2 hv))
        h.writable, rfl⟩

end Ordinary

/-! ### Rows -/

lemma acceptable_iff_fit : acceptable v = true ↔ Fit v := acceptable_eq_true_iff

lemma not_fit_neg_tooLong : ¬ Fit (.int (-Value.tooLong)) := by
  have hten : (10 : Int) ^ 1 ≤ Value.tooLong := by
    rw [Value.tooLong]
    exact pow_le_pow_right₀ (by decide) (by decide)
  rintro ⟨w, hw, hfit⟩
  obtain rfl : Whole.int (-Value.tooLong) = w := by injection hw with hw; injection hw
  rw [Whole.toInt_int, unlimited] at hfit
  omega

lemma badLimit?_eq_some_iff : badLimit? r = some l ↔
    (∃ before after, Limit.all = before ++ l :: after ∧ ∀ l' ∈ before, Fit (r.get l')) ∧
      ¬ Fit (r.get l) := by
  rw [badLimit?, List.find?_eq_some_iff_append, and_comm]
  simp only [Bool.not_not, Bool.not_eq_true', ← Bool.not_eq_true, acceptable_iff_fit]

def rowFault (key : Value) (r : Limits Value) (l : Limit) : Error :=
  match wireName key with
  | .ok plan => (Error.invalidLimit l plan (r.get l)).raised
  | .error e => e

lemma checkRecord_eq_error_iff :
    checkRecord key (.limits r) = .error e ↔ ∃ l, badLimit? r = some l ∧ rowFault key r l = e := by
  simp only [checkRecord, rowFault]
  cases badLimit? r with
  | none => simp
  | some l => cases wireName key <;> simp [bind, Except.bind]

lemma firstUnfit_cons_iff {k : Value} : FirstUnfit ((k, .limits r) :: limits) key r' l ↔
    (k = key ∧ r = r' ∧ badLimit? r' = some l) ∨
      (Record.limits r).Sound ∧ FirstUnfit limits key r' l := by
  constructor
  · rintro ⟨⟨front, back, heq, hfront⟩, hfield, hunfit⟩
    cases front with
    | nil =>
      cases heq
      exact Or.inl ⟨rfl, rfl, badLimit?_eq_some_iff.2 ⟨hfield, hunfit⟩⟩
    | cons row front =>
      obtain ⟨rfl, hrows⟩ := List.cons.inj heq
      exact Or.inr ⟨hfront _ List.mem_cons_self,
        ⟨front, back, hrows, fun row hrow => hfront row (List.mem_cons_of_mem _ hrow)⟩, hfield,
        hunfit⟩
  · rintro (⟨rfl, rfl, hbad⟩ | ⟨hsound, ⟨front, back, rfl, hfront⟩, hfield, hunfit⟩)
    · obtain ⟨hfield, hunfit⟩ := badLimit?_eq_some_iff.1 hbad
      exact ⟨⟨[], limits, rfl, List.forall_mem_nil _⟩, hfield, hunfit⟩
    · exact ⟨⟨_ :: front, back, rfl, List.forall_mem_cons.2 ⟨hsound, hfront⟩⟩, hfield, hunfit⟩

lemma checkRecords_eq_error_iff (h : ∀ row ∈ limits, ∃ r, row.2 = .limits r) :
    checkRecords limits = .error e ↔
      ∃ key r l, FirstUnfit limits key r l ∧ rowFault key r l = e := by
  induction limits with
  | nil =>
    refine iff_of_false (fun h => nomatch h) ?_
    rintro ⟨key, r, l, ⟨⟨front, back, heq, -⟩, -, -⟩, -⟩
    cases front <;> cases heq
  | cons row rows ih =>
    obtain ⟨k, record⟩ := row
    obtain ⟨⟨r, hr⟩, hrows⟩ := List.forall_mem_cons.1 h
    obtain rfl : record = .limits r := hr
    simp only [checkRecords, bind_eq_error_iff, Unique.exists_iff, PUnit.default_eq_unit,
      checkRecord_eq_error_iff, checkRecord_eq_ok_iff, ih hrows, firstUnfit_cons_iff]
    -- the first row is at fault, or is sound and a later one is
    constructor
    · rintro (⟨l, hbad, he⟩ | ⟨hsound, key, r', l, hfirst, he⟩)
      · exact ⟨k, r, l, Or.inl ⟨rfl, rfl, hbad⟩, he⟩
      · exact ⟨key, r', l, Or.inr ⟨hsound, hfirst⟩, he⟩
    · rintro ⟨key, r', l, ⟨rfl, rfl, hbad⟩ | ⟨hsound, hfirst⟩, he⟩
      · exact Or.inl ⟨l, hbad, he⟩
      · exact Or.inr ⟨hsound, key, r', l, hfirst, he⟩

lemma FirstUnfit.mem (h : FirstUnfit limits key r l) : key ∈ limits.map (·.1) := by
  obtain ⟨⟨front, back, rfl, -⟩, -, -⟩ := h
  simp

lemma exists_text?_eq (h : SameKeys (ps.map .plan) keys) (hv : v ∈ keys) :
    ∃ p : Plan, v.text? = some p.wire := by
  obtain ⟨w, hw, hsame⟩ := h.2 v hv
  obtain ⟨p, -, rfl⟩ := List.mem_map.1 hw
  exact ⟨p, same_plan_iff'.1 hsame⟩

lemma Ordinary.checkRecords_tells (hl : Ordinary (limits.map (·.1)))
    (hrecords : ∀ row ∈ limits, ∃ r, row.2 = .limits r)
    (hkeys : SameKeys (ps.map .plan) (limits.map (·.1))) :
    checkRecords limits = .error e ↔
      ∃ p r l, FirstUnfit limits (.plan p) r l ∧
        (Error.invalidLimit l p.wire (r.get l)).raised = e := by
  rw [checkRecords_eq_error_iff hrecords]
  constructor
  · rintro ⟨key, r, l, hfirst, he⟩
    obtain ⟨p, htext⟩ := exists_text?_eq hkeys hfirst.mem
    obtain rfl := (hl.text?_eq_iff hfirst.mem).1 htext
    exact ⟨p, r, l, hfirst, he⟩
  · rintro ⟨p, r, l, hfirst, he⟩
    exact ⟨.plan p, r, l, hfirst, he⟩

/-! ### The whole check -/

/-- The stages of the check against members, each reached when those before found nothing. -/
lemma validate_eq_error_iff : validate permissions limits (.list (ps.map .plan)) = .error e ↔
    checkKeys .permissions (distinct (ps.map .plan)) (permissions.map (·.1)) = .error e ∨
      SameKeys (ps.map .plan) (permissions.map (·.1)) ∧
        (checkKeys .limits (distinct (ps.map .plan)) (limits.map (·.1)) = .error e ∨
          SameKeys (ps.map .plan) (limits.map (·.1)) ∧ checkRecords limits = .error e) := by
  have hexpected : expected (.list (ps.map .plan)) = .ok (distinct (ps.map .plan)) := by
    refine expected_eq_ok_iff.2 ⟨_, rfl, ?_, rfl⟩
    rw [List.forall_mem_map]
    exact fun p _ => rfl
  unfold validate
  rw [hexpected]
  show (checkKeys .permissions _ _ >>= fun _ => _) = _ ↔ _
  simp only [bind_eq_error_iff, Unique.exists_iff, PUnit.default_eq_unit, checkKeys_eq_ok_iff,
    sameKeys_distinct_iff]

lemma raised_invalidLimit_cases (l : Limit) (plan : String) (v : Value) :
    v.writable = true ∧ (Error.invalidLimit l plan v).raised = .invalidLimit l plan v ∨
      v.writable = false ∧ (Error.invalidLimit l plan v).raised = .unwritable := by
  cases hw : v.writable with
  | true => exact Or.inl ⟨rfl, Error.raised_of_writable hw⟩
  | false => exact Or.inr ⟨rfl, Error.raised_of_not_writable hw⟩

/-- The check fails on the message exactly where the first fault is a limit that cannot be written
out. -/
lemma validate_eq_unwritable_iff (hp : Ordinary (permissions.map (·.1)))
    (hl : Ordinary (limits.map (·.1))) (hrecords : ∀ row ∈ limits, ∃ r, row.2 = .limits r)
    (ps : List Plan) :
    validate permissions limits (.list (ps.map .plan)) = .error .unwritable ↔
      Untold ps permissions limits := by
  constructor
  · intro he
    rcases validate_eq_error_iff.1 he with hfault | ⟨hp', hfault | ⟨hl', hfault⟩⟩
    -- faults of the keys are told
    · cases isTableFault_of_checkKeys hp.writable hfault
    · cases isTableFault_of_checkKeys hl.writable hfault
    · obtain ⟨p, r, l, hfirst, hraised⟩ := (hl.checkRecords_tells hrecords hl').1 hfault
      rcases raised_invalidLimit_cases l p.wire (r.get l) with ⟨-, htold⟩ | ⟨hw, -⟩
      · cases htold.symm.trans hraised
      · exact ⟨hp.keyed_iff.2 hp', hl.keyed_iff.2 hl', p, r, l, hfirst, hw⟩
  · rintro ⟨hp', hl', p, r, l, hfirst, hw⟩
    have hkeys := hl.keyed_iff.1 hl'
    have hraised : (Error.invalidLimit l p.wire (r.get l)).raised = .unwritable :=
      Error.raised_of_not_writable hw
    have hfault := (hl.checkRecords_tells hrecords hkeys).2 ⟨p, r, l, hfirst, hraised⟩
    exact validate_eq_error_iff.2 (Or.inr ⟨hp.keyed_iff.1 hp', Or.inr ⟨hkeys, hfault⟩⟩)

lemma eq_of_text?_eq_wire (h : v.text? = some p.wire) : v = .plan p ∨ v = .text p.wire := by
  cases v with
  | text s => exact Or.inr (congrArg Value.text (Option.some.inj h))
  | plan q => exact Or.inl (congrArg Value.plan (wire_injective (Option.some.inj h)))
  | limit l => exact absurd (Option.some.inj h) (by cases l <;> cases p <;> decide)
  | feature f => exact absurd (Option.some.inj h) (by cases f <;> cases p <;> decide)
  | _ => cases h

/-- Distinct keys, each of them a plan or any text. -/
structure Textual (keys : List Value) : Prop where
  apart : keys.Pairwise fun v w => v.same w = false
  textual : ∀ v ∈ keys, (∃ p, v = .plan p) ∨ ∃ s, v = .text s

end Tables

end Entitlement
