import Entitlement.Proofs.Tally.Readback

/-!
The log of a run is its audit trail.

The events that a run prints go with its operations one by one: an addition that came about and a
verdict that does not allow more leave one event each, and nothing else leaves any. An event names
the owner, and the plan if there is one, of its own operation. An operation whose event cannot be
written out fails, and leaves none.
-/

namespace Entitlement.Tally

variable {σ : Type} {exec : Backend σ}

lemma Laws.answersWhole {view : View σ} (h : Laws exec view) : AnswersWhole exec := by
  intro now key amount s v s' hinc
  obtain ⟨m, n, -, hv, -⟩ := h.increment _ _ _ _ _ _ hinc
  exact ⟨m + n, hv⟩

/-- The events of operations with their answers, in order. -/
inductive Trail : List Op → List (Except Error Answer) → List Event → Prop where
  | nil : Trail [] [] []
  | cons {o : Op} {r : Except Error Answer} {es : List Event} {os : List Op}
      {rs : List (Except Error Answer)} {rest : List Event} (head : Reports o r es)
      (tail : Trail os rs rest) : Trail (o :: os) (r :: rs) (es ++ rest)

/-- The trail is settled by the operations and their answers. -/
lemma Trail.eq {os : List Op} {rs : List (Except Error Answer)} {es es' : List Event}
    (h : Trail os rs es) (h' : Trail os rs es') : es = es' := by
  induction h generalizing es' with
  | nil => cases h'; rfl
  | cons head _ ih =>
    cases h' with
    | cons head' tail' => rw [head.eq head', ih tail']

/-! ### One operation -/

theorem reports_of_step {w : World σ} (hwhole : AnswersWhole exec)
    (hlevel : w.log.threshold ≤ Level.debug.number) (hcontext : w.log.context = []) (ttl : Int)
    (o : Op) :
    (step exec ttl w o).2.log.threshold = w.log.threshold ∧
      ∃ es, (step exec ttl w o).2.log.printed = w.log.printed ++ es ∧
        Reports o (step exec ttl w o).1 es := by
  obtain ⟨now, s, log⟩ := w
  obtain ⟨x, hx, hreports, -⟩ := step_effect exec ttl now s o
  replace hreports := hreports hwhole
  rw [hx, Effect.at]
  refine ⟨rfl, ?_⟩
  by_cases htakes : log.takes x.note = true
  · refine ⟨x.note.toList.map (Note.event []), ?_, ?_⟩
    · have hprinted := Log.printed_tell_of_le hlevel htakes
      rwa [hcontext] at hprinted
    · rwa [if_pos htakes]
  · refine ⟨[], ?_, ?_⟩
    · rw [Log.tell_of_not_takes htakes, List.append_nil]
    · rw [if_neg htakes]
      exact .failed o _

/-! ### Runs -/

/-- **Audit trail**: on a store that answers increments with whole numbers, a run that is logged
from the lowest level on, without outer context, prints the events that go with its operations and
their answers, in order, and no others. -/
theorem trail_of_run {w : World σ} (hwhole : AnswersWhole exec)
    (hlevel : w.log.threshold ≤ Level.debug.number) (hcontext : w.log.context = []) (ttl : Int)
    (ops : List Op) :
    ∃ es, (run exec ttl w ops).2.log.printed = w.log.printed ++ es ∧
      Trail ops (run exec ttl w ops).1 es := by
  induction ops generalizing w with
  | nil => exact ⟨[], (List.append_nil _).symm, .nil⟩
  | cons o ops ih =>
    obtain ⟨hthreshold, es, hprinted, hreports⟩ := reports_of_step hwhole hlevel hcontext ttl o
    obtain ⟨rest, hrest, htrail⟩ := ih (w := (step exec ttl w o).2)
      (hthreshold.trans_le hlevel) ((step_context exec ttl w o).trans hcontext)
    refine ⟨es ++ rest, ?_, .cons hreports htrail⟩
    rw [run_cons, hrest, hprinted, List.append_assoc]

/-- A verdict for eve that fails since her counter is no number, three scans of ada's, and a verdict
that allows her no more: the last two leave an event. -/
theorem trail_of_three_scans :
    let ada := Value.text "ada"
    let eve := Value.text "eve"
    let start : World Store := ⟨1709985600000000,
      [(keyAt eve 1709985600000000, ⟨some (.text "many"), none⟩)],
      (Log.fresh.configure (.text "debug")).2⟩
    let ops : List Op := [.assess eve (.plan .pro), .add ada (.int 3),
      .assess ada (.text "STARTER")]
    (run expiring 7 start ops).2.log.printed =
      [⟨.debug, "scan_recorded", [("owner_id", ada), ("count", .int 3), ("daily_total", .int 3)]⟩,
        ⟨.info, "daily_scan_limit_reached", [("owner_id", ada), ("plan", .text "STARTER"),
          ("current", .int 3), ("limit", .int 3)]⟩] := by
  intro ada eve start ops
  obtain ⟨es, hprinted, htrail⟩ := trail_of_run (w := start)
    laws_expiring.answersWhole (by decide) rfl 7 ops
  have heve : assess expiring eve (.plan .pro) start =
      (.error (.unreadableWhole (.text "many")), start) := by
    unfold start eve
    rfl
  have hadd : (add expiring 7 ada (.int 3) start).1 = .ok 3 := by
    unfold start eve ada
    rfl
  have hread : (reading expiring ada _ (add expiring 7 ada (.int 3) start).2.store).1 = .ok 3 :=
    (serves_expiring 7).reading_after_add (Prod.ext hadd rfl)
  have hstarter : Plan.ofValue (.text "STARTER") = .ok .starter := Plan.ofValue_wire .starter
  obtain ⟨percent, hpercent⟩ := percentOf_isOk (w := .int 3) (k := 2) (by decide) (by decide)
    (by decide) (Whole.int 3).toInt
  have hcap : (Tables.shipped.limits .starter).get .scansPerDay = .int 3 := rfl
  have hlast : (assess expiring ada (.text "STARTER") (add expiring 7 ada (.int 3) start).2).1 =
      .ok (.capped .scansPerDay (.int 3) (.int 3) percent) := by
    rw [assess_of_reading rfl hstarter hread, assess_of_plan hstarter .scansPerDay (by decide),
      hcap, judge_capped .scansPerDay (.int 3) (by decide), hpercent]
    rfl
  have hanswers : (run expiring 7 start ops).1 = [.error (.unreadableWhole (.text "many")),
      .ok (.total 3), .ok (.verdict (.capped .scansPerDay (.int 3) (.int 3) percent))] := by
    simp only [ops, run_cons, run_nil, step, heve, hadd, hlast, Except.map]
  rw [hanswers] at htrail
  rw [hprinted, htrail.eq (.cons (.failed _ _) (.cons (.added ada (.int 3) 3)
    (.cons (.denied ada (.text "STARTER") .starter _ hstarter rfl) .nil)))]
  rfl

end Entitlement.Tally
