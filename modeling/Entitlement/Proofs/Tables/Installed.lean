import Entitlement.Proofs.Assessment
import Entitlement.Tables.Installed

/-!
Rows that read as tables.

Rows read as tables when every plan has a row in both and each limit is a whole number. On such
rows the operations are those on the tables that they read as: nothing is missing, usage is judged
as on whole caps, and whole limits are shown as they are.
-/

namespace Entitlement

namespace Installed

open Settings (Session)
open Tables (Record)

/-- The rows that the operations look up hold what the tables say. -/
structure Reads (i : Installed) (t : Tables) : Prop where
  permissions : ∀ p, i.permissionsAt p = .ok (t.permissions p)
  records : ∀ p, i.recordAt p = .ok (.limits (t.limits p).values)

variable {i : Installed} {t : Tables} {plan limit used first second : Value} {p q : Plan}
  {l : Limit} {given : Option Settings} {s : Session}

theorem reads_rows (t : Tables) : t.rows.Reads t where
  permissions p := by cases p <;> rfl
  records p := by cases p <;> rfl

/-! ### Whole limits -/

lemma cap_values (r : Limits Whole) (l : Limit) :
    Record.cap (.limits r.values) l = .ok (.number (.whole (r.get l))) := by
  simp [Record.cap, Limits.values]

lemma marksUnlimited_whole_iff (w : Whole) :
    marksUnlimited (.number (.whole w)) = true ↔ w.toInt = unlimited :=
  beq_iff_eq

lemma shownPair_whole (v w : Whole) :
    shownPair (.number (.whole v)) (.number (.whole w)) = .ok (pairLimits v.toInt w.toInt) := by
  unfold shownPair differenceOf pairLimits
  simp only [marksUnlimited_whole_iff, Bool.or_eq_true]
  split <;> rfl

namespace Reads

lemma capAt_eq (h : i.Reads t) (p : Plan) (l : Limit) :
    i.capAt p l = .ok (.number (.whole ((t.limits p).get l))) := by
  unfold capAt
  rw [h.records p]
  exact cap_values _ l

theorem permissionsOf_eq (h : i.Reads t) (plan : Value) :
    i.permissionsOf plan = (t.permissionsOf plan).mapError .refused := by
  unfold permissionsOf Tables.permissionsOf
  cases Plan.ofValue plan with
  | error e => rfl
  | ok p => exact h.permissions p

theorem limitsOf_eq (h : i.Reads t) (plan : Value) :
    i.limitsOf plan = ((t.limitsOf plan).map fun r => r.values.byWire).mapError .refused := by
  unfold limitsOf Tables.limitsOf
  cases Plan.ofValue plan with
  | error e => rfl
  | ok p =>
    show i.recordAt p >>= Record.byWire = _
    rw [h.records p]
    rfl

theorem limitOf_eq (h : i.Reads t) (plan limit : Value) :
    i.limitOf plan limit =
      ((t.limitOf plan limit).map fun w => .number (.whole w)).mapError .refused := by
  unfold limitOf Tables.limitOf Tables.limitsOf
  cases Plan.ofValue plan with
  | error e => rfl
  | ok p =>
    show (i.recordAt p >>= fun r => _) = _
    rw [h.records p]
    cases Limit.ofValue limit with
    | error e => rfl
    | ok l => exact cap_values _ l

theorem assess_eq (h : i.Reads t) (plan limit used : Value) :
    i.assess plan limit used =
      ((t.assess plan limit used).map Verdict.finding).mapError .refused := by
  unfold assess Tables.assess
  cases ordered used with
  | error e => rfl
  | ok n =>
    show (if n.ltInt 0 then _ else _) =
      ((if n.ltInt 0 then _ else _ : Except Error _).map _).mapError _
    cases n.ltInt 0 with
    | true => rfl
    | false =>
      cases Limit.ofValue limit with
      | error e => rfl
      | ok l =>
        show (i.limitOf plan (.limit l) >>= fun cap => _) =
          ((t.limitOf plan (.limit l) >>= fun cap => _).map _).mapError _
        rw [h.limitOf_eq]
        cases t.limitOf plan (.limit l) <;> rfl

lemma overview_eq (h : i.Reads t) (x : Settings) (p : Plan) :
    i.overview x p = .ok (t.overview x p) := by
  have hlimits : Limit.all.mapM (fun l => return (l, ← i.capAt p l)) =
      (.ok (Limit.all.map fun l => (l, .number (.whole ((t.limits p).get l)))) :
        Except Lapse (List (Limit × Value))) :=
    mapM_ok fun l _ => by rw [h.capAt_eq]; rfl
  unfold overview
  rw [hlimits, h.permissions p]
  rfl

theorem overviewOf_eq (h : i.Reads t) (plan : Value) (given : Option Settings) (s : Session) :
    i.overviewOf plan given s =
      ((t.overviewOf plan given s).1.mapError .refused, (t.overviewOf plan given s).2) := by
  unfold overviewOf Tables.overviewOf
  cases Plan.ofValue plan with
  | error e => rfl
  | ok p =>
    dsimp only
    rcases settingsOr given s with ⟨_ | x, s⟩
    · rfl
    · exact congrArg (·, s) (h.overview_eq x p)

theorem overviews_eq (h : i.Reads t) (given : Option Settings) (s : Session) :
    i.overviews given s =
      ((t.overviews given s).1.mapError .refused, (t.overviews given s).2) := by
  unfold overviews Tables.overviews
  rcases settingsOr given s with ⟨_ | x, s⟩
  · rfl
  · exact congrArg (·, s) (mapM_ok fun p _ => h.overview_eq x p)

lemma compared_eq (h : i.Reads t) (p q : Plan) : i.compared p q =
    .ok (Limit.all.map fun l => (l, pairLimits (t.cap p l) (t.cap q l)), t.permissions p,
      t.permissions q) := by
  have hlimits : Limit.all.mapM (fun l => return (l, ← shownPair (← i.capAt p l) (← i.capAt q l))) =
      (.ok (Limit.all.map fun l => (l, pairLimits (t.cap p l) (t.cap q l))) :
        Except Lapse (List (Limit × LimitPair))) :=
    mapM_ok fun l _ => by
      rw [h.capAt_eq, h.capAt_eq]
      show (shownPair _ _ >>= fun d => _) = _
      rw [shownPair_whole]
      rfl
  unfold compared
  rw [hlimits, h.permissions p, h.permissions q]
  rfl

theorem contrastOf_eq (h : i.Reads t) (first second : Value) (given : Option Settings)
    (s : Session) : i.contrastOf first second given s =
      ((t.contrastOf first second given s).1.mapError .refused,
        (t.contrastOf first second given s).2) := by
  unfold contrastOf Tables.contrastOf
  cases Plan.ofValue first with
  | error e => rfl
  | ok p =>
    cases Plan.ofValue second with
    | error e => rfl
    | ok q =>
      simp only [h.compared_eq]
      rcases settingsOr given s with ⟨_ | x, s⟩
      · rfl
      · show (i.overview x p >>= fun a => i.overview x q >>= fun b => _, s) = _
        rw [h.overview_eq, h.overview_eq]
        rfl

end Reads

end Installed

end Entitlement
