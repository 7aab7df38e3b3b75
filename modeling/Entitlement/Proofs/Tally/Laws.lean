import Entitlement.Proofs.Tally.Counter
import Entitlement.Tally.Daily

/-!
The laws that a store of counters keeps.

Of a store nothing is known but what it shows of a key at an instant. The laws say what a command
that is answered changes in this view, that one that is refused changes nothing, and that time takes
away what has expired. A store may refuse any command, unless it is said that it does not.
-/

namespace Entitlement.Tally

/-- What a store shows of a key at an instant. -/
abbrev View (σ : Type) := σ → Int → String → Option Entry

/-- The integer that what is shown of a key counts to. -/
def counterIn (e : Option Entry) : Option Int :=
  counterOf ((e.bind Entry.counter).getD (.text "0"))

def Answers {σ : Type} (exec : Backend σ) (now : Int) (c : Command) (s : σ) : Prop :=
  ∃ v s', exec now c s = (.ok v, s')

variable {σ : Type}

structure Laws (exec : Backend σ) (view : View σ) : Prop where
  /-- A key is gone from the moment its expiry is reached, and no key comes with time. -/
  later : ∀ s now now' k, now ≤ now' →
    view s now' k = (view s now k).filter (Entry.live .untilExpiry now')
  other : ∀ now c s k, c.key ≠ k → view (exec now c s).2 now k = view s now k
  refused : ∀ now c s e s', exec now c s = (.error e, s') → ∀ k, view s' now k = view s now k
  /-- An increment adds to a 64-bit integer, zero if it is missing, and keeps the expiry. -/
  increment : ∀ now key amount s v s', exec now (.increment key amount) s = (.ok v, s') →
    ∃ m n, amount = .int n ∧ v = .int (m + n) ∧ counterIn (view s now key) = some m ∧ inInt64 n ∧
      inInt64 (m + n) ∧ view s' now key =
        some ⟨some (.text (m + n).repr), (view s now key).bind Entry.expiry⟩
  /-- The expiry of a key that is there is replaced. If it is reached at once, the key is gone. -/
  expire : ∀ now key seconds s v s', exec now (.expire key seconds) s = (.ok v, s') →
    view s' now key = ((view s now key).map fun e =>
      { e with expiry := some ⟨now, seconds⟩ }).filter (Entry.live .untilExpiry now)
  read : ∀ now key s v s', exec now (.read key) s = (.ok v, s') →
    v = ((view s now key).bind Entry.counter).getD .null ∧ ∀ k, view s' now k = view s now k

/-- A store that refuses no expiry of a retention. -/
structure Expires (exec : Backend σ) (view : View σ) (ttl : Int) : Prop extends Laws exec view where
  kept : ∀ now key s, Answers exec now (.expire key (retention ttl)) s

/-- A store that refuses neither that, nor a reading, nor an increment that fits. -/
structure Serves (exec : Backend σ) (view : View σ) (ttl : Int) : Prop
    extends Expires exec view ttl where
  counted : ∀ now key s m n, counterIn (view s now key) = some m → inInt64 n → inInt64 (m + n) →
    Answers exec now (.increment key (.int n)) s
  told : ∀ now key s, Answers exec now (.read key) s

/-! ### What is live -/

lemma live_untilExpiry {now : Int} {c : Option Value} {x : Option Expiry} :
    Entry.live .untilExpiry now ⟨c, x⟩ ↔ ∀ y, x = some y → now < y.due := by
  cases x <;> simp [Entry.live]

lemma live_mono {now now' : Int} {e : Entry} (hle : now ≤ now')
    (h : Entry.live .untilExpiry now' e) : Entry.live .untilExpiry now e := by
  obtain ⟨c, x⟩ := e
  rw [live_untilExpiry] at h ⊢
  intro y hy
  have := h y hy
  omega

lemma filter_live_later {now now' : Int} (hle : now ≤ now') (e : Option Entry) :
    (e.filter (Entry.live .untilExpiry now)).filter (Entry.live .untilExpiry now') =
      e.filter (Entry.live .untilExpiry now') := by
  cases e with
  | none => rfl
  | some e =>
    by_cases hlive : Entry.live .untilExpiry now' e
    · simp [Option.filter, hlive, live_mono hle hlive]
    · by_cases hnow : Entry.live .untilExpiry now e <;> simp [Option.filter, hlive, hnow]

lemma due_retention (now ttl : Int) :
    (⟨now, retention ttl⟩ : Expiry).due = now + microsPerDay * ttl := by
  rw [Expiry.due, retention, ← Int.mul_assoc, microsPerDay]

lemma live_retention_iff {ttl now : Int} {c : Option Value} :
    Entry.live .untilExpiry now ⟨c, some ⟨now, retention ttl⟩⟩ ↔ 1 ≤ ttl := by
  rw [live_untilExpiry]
  simp only [Option.some.injEq, forall_eq', due_retention, microsPerDay, microsPerSecond,
    secondsPerDay]
  omega

/-! ### What is counted -/

/-- An entry that counts to `m`. No entry counts to zero. -/
def Counts (e : Option Entry) (m : Int) : Prop :=
  (e = none ∧ m = 0) ∨ ∃ x, e = some ⟨some (.text m.repr), x⟩

lemma Counts.counterIn {e : Option Entry} {m : Int} (h : Counts e m) : counterIn e = some m := by
  rcases h with ⟨rfl, rfl⟩ | ⟨x, rfl⟩
  · decide
  · exact counterOf_repr m

/-! ### What the laws give -/

variable {exec : Backend σ} {view : View σ} {now : Int} {s s' : σ} {k : String}

lemma Laws.live_of_view (h : Laws exec view) {e : Entry} (he : view s now k = some e) :
    Entry.live .untilExpiry now e := by
  rw [h.later s now now k (Int.le_refl now)] at he
  exact (Option.filter_eq_some_iff.1 he).2

lemma Laws.view_later (h : Laws exec view) (hview : view s' now k = view s now k) {now' : Int}
    (hle : now ≤ now') : view s' now' k = view s now' k := by
  rw [h.later s' now now' k hle, h.later s now now' k hle, hview]

lemma Laws.view_read (h : Laws exec view) (now : Int) (key k : String) (s : σ) :
    view (exec now (.read key) s).2 now k = view s now k := by
  rcases hread : exec now (.read key) s with ⟨e | v, s'⟩
  · exact h.refused _ _ _ _ _ hread k
  · exact (h.read _ _ _ _ _ hread).2 k

/-- The laws leave room to refuse more. -/
lemma Laws.refusing (h : Laws exec view) (p : Command → Bool) :
    Laws (fun now c s => if p c then (.error .refused, s) else exec now c s) view where
  later := h.later
  other now c s k hk := by
    split
    · rfl
    · exact h.other now c s k hk
  refused now c s e s' hrun := by
    split at hrun
    · cases hrun
      exact fun k => rfl
    · exact h.refused now c s e s' hrun
  -- an answer can only be that of the store itself
  increment now key amount s v s' hrun := by
    split at hrun
    · cases hrun
    · exact h.increment now key amount s v s' hrun
  expire now key seconds s v s' hrun := by
    split at hrun
    · cases hrun
    · exact h.expire now key seconds s v s' hrun
  read now key s v s' hrun := by
    split at hrun
    · cases hrun
    · exact h.read now key s v s' hrun

end Entitlement.Tally
