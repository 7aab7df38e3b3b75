import Entitlement.Proofs.Naming
import Entitlement.Proofs.Tally.Daily
import Entitlement.Proofs.Tally.Store

/-!
What operations leave alone.

An addition runs no command, its increment, or its increment and its expiry, and both name the key
of its owner and of the day; a reading and an assessment run at most one reading. What the commands
leave alone the operations leave alone, whichever way they end, and the context of the log is in any
case the one from before.
-/

namespace Entitlement.Tally

variable {σ : Type} {exec : Backend σ} {view : View σ} {w : World σ} {owner count plan : Value}

lemma Laws.view_add_of_ne (h : Laws exec view) (ttl : Int) {k : String}
    (hk : keyAt owner w.now ≠ k) :
    view (add exec ttl owner count w).2.store w.now k = view w.store w.now k := by
  obtain ⟨now, s, log⟩ := w
  obtain ⟨x, hadds, hx⟩ := add_effect exec ttl owner count now s
  rw [hx]
  have hother {c : Command} {s s' : σ} {r : Except StoreError Value}
      (hrun : exec now c s = (r, s')) (hkey : c.key = keyAt owner now) :
      view s' now k = view s now k := by
    have hother := h.other now c s k (hkey.trans_ne hk)
    rwa [hrun] at hother
  cases hadds with
  | refused => rfl
  | uncounted hinc => exact hother hinc rfl
  | unexpiring hinc hexp => exact (hother hexp rfl).trans (hother hinc rfl)
  | added _ _ _ hinc hexp => exact (hother hexp rfl).trans (hother hinc rfl)

lemma add_of_not_number (exec : Backend σ) (ttl : Int) (owner : Value) (w : World σ)
    (hcount : ∀ n, count ≠ .number n) :
    add exec ttl owner count w = (.error (.notOrdered count), w) := by
  have hordered : ordered count = .error (.notOrdered count) := by
    cases count with
    | number n => exact absurd rfl (hcount n)
    | _ => rfl
  simp only [add, hordered]

/-- **Frame**: on a store that keeps the laws, whatever it refuses, readings and assessments change
no key, and an addition changes none but that of its owner and of the day, now and at any instant to
come. On a store of any kind, a count that is no number or is below one and a plan that is none fail
before anything is done, and whatever an operation answers, the context of the log is the one from
before. -/
theorem operations_frame (ttl : Int) (owner count plan : Value) :
    (∀ (σ : Type) (exec : Backend σ) (view : View σ) (w : World σ), Laws exec view →
      ∀ later ≥ w.now,
        (∀ k, view (today exec owner w).2.store later k = view w.store later k) ∧
        (∀ k, view (assess exec owner plan w).2.store later k = view w.store later k) ∧
        ∀ k ≠ keyAt owner w.now,
          view (add exec ttl owner count w).2.store later k = view w.store later k) ∧
      ∀ (σ : Type) (exec : Backend σ) (w : World σ),
        ((∀ n, count ≠ .number n) →
            add exec ttl owner count w = (.error (.notOrdered count), w)) ∧
          (∀ n, count = .number n → n.ltInt 1 = true →
            add exec ttl owner count w = (.error (Error.countNotPositive n).raised, w)) ∧
          ((∀ p, plan ≠ .plan p ∧ plan ≠ .text p.wire) →
            assess exec owner plan w = (.error (Error.notPlan plan).raised, w)) ∧
          (add exec ttl owner count w).2.log.context = w.log.context ∧
          (today exec owner w).2.log.context = w.log.context ∧
          (assess exec owner plan w).2.log.context = w.log.context := by
  refine ⟨fun σ exec view w h later hle => ⟨fun k => ?_, fun k => ?_, fun k hk => ?_⟩,
    fun σ exec w => ⟨add_of_not_number exec ttl owner w, fun n hcount h1 => ?_, fun hplan => ?_,
      step_context exec ttl w (.add owner count), step_context exec ttl w (.today owner),
      step_context exec ttl w (.assess owner plan)⟩⟩
  · exact h.view_later (today_view h owner w k) hle
  · exact h.view_later (assess_view h owner plan w k) hle
  · exact h.view_later (h.view_add_of_ne ttl hk.symm) hle
  · simp only [add, hcount, ordered, h1, if_true]
  · simp only [assess, ofValue_of_forall_ne hplan]

/-- A store that refuses to set expiries, with another owner's counter that is no number. An
addition for ada breaks off halfway and leaves bob's key alone; bob's counter cannot be read, and
neither the store nor the context tells that it was tried; and of a count of zero or a plan in lower
case a store that notes its commands hears nothing. -/
theorem frame_of_refused_expiry :
    let refusing : Backend Store := fun now c s =>
      if c.name == "expire" then (.error .refused, s) else expiring now c s
    let ada := Value.text "ada"
    let bob := Value.text "bob"
    let now : Int := 1709985600000000
    let key := keyAt bob now
    let w : World Store := ⟨now, [(key, ⟨some (.text "many"), none⟩)],
      { Log.fresh with context := [("owner_id", .text "eve")] }⟩
    let noting := Probe.exec .none
    let v : World Probe := ⟨now, ⟨[], []⟩, Log.fresh⟩
    let many : Entry := ⟨some (.text "many"), none⟩
    shown (add refusing 7 ada (.int 2) w).2.store now key = some many ∧
      (add refusing 7 ada (.int 2) w).2.log.context = [("owner_id", .text "eve")] ∧
      shown (today refusing bob w).2.store now key = some many ∧
      shown (assess refusing bob (.plan .pro) w).2.store now key = some many ∧
      (assess refusing bob (.plan .pro) w).2.log.context = [("owner_id", .text "eve")] ∧
      add noting 7 ada (.int 0) v = (.error (.countNotPositive (.int 0)), v) ∧
      add noting 7 ada .null v = (.error (.notOrdered .null), v) ∧
      assess noting ada (.text "pro") v = (.error (.notPlan (.text "pro")), v) := by
  intro refusing ada bob now key w noting v many
  have hlaws : Laws refusing shown := laws_expiring.refusing fun c => c.name == "expire"
  have hkey : key ≠ keyAt ada w.now := fun h => absurd (key_eq_iff.1 h).1 (by decide)
  have hplan (p : Plan) : Value.text "pro" ≠ .plan p ∧ Value.text "pro" ≠ .text p.wire := by
    cases p <;> exact ⟨by simp, fun h => absurd (Value.text.inj h) (by decide)⟩
  have hbefore : shown w.store now key = some many := by
    simp [shown, Store.find?, w, Assoc.find?, Entry.live, many]
  obtain ⟨hstore, hlog⟩ := operations_frame 7 ada (.int 2) (.plan .pro)
  obtain ⟨-, -, hadd⟩ := hstore Store refusing shown w hlaws now le_rfl
  obtain ⟨-, -, -, hcontext, -⟩ := hlog Store refusing w
  obtain ⟨hbobStore, hbobLog⟩ := operations_frame 7 bob (.int 2) (.plan .pro)
  obtain ⟨htoday, hassess, -⟩ := hbobStore Store refusing shown w hlaws now le_rfl
  obtain ⟨-, -, -, -, -, hbob⟩ := hbobLog Store refusing w
  obtain ⟨-, hzero, hlower, -⟩ := (operations_frame 7 ada (.int 0) (.text "pro")).2 Probe noting v
  obtain ⟨hnull, -⟩ := (operations_frame 7 ada .null (.text "pro")).2 Probe noting v
  exact ⟨(hadd key hkey).trans hbefore, hcontext, (htoday key).trans hbefore,
    (hassess key).trans hbefore, hbob, hzero _ rfl (by decide), hnull (by simp), hlower hplan⟩

end Entitlement.Tally
