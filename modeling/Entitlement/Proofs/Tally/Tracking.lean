import Entitlement.Proofs.Tally.Keeping
import Entitlement.Proofs.Tally.Run
import Entitlement.Proofs.Tally.Schedule

/-!
What holds at every moment of calls that add at the same time.

The invariant says what the store counts, how far each call is and what it was answered, and to
which key each command went. Each kind of move keeps it, a turn in four cases after the number of
turns that the call has had; an induction on the schedule carries it to every state.
-/

namespace Entitlement.Tally

open Value (fieldsWritable)

/-! ### What was sent -/

section Wire

variable {ι : Type}

def Exchange.gain (key : String) (e : Exchange ι) : Int :=
  match e.command with
  | .increment k (.int n) => if k = key then n else 0
  | _ => 0

/-- What the commands that were run add to a key. -/
def added (key : String) (wire : List (Exchange ι)) : Int := (wire.map (Exchange.gain key)).sum

lemma added_snoc (key : String) (wire : List (Exchange ι)) (e : Exchange ι) :
    added key (wire ++ [e]) = added key wire + e.gain key := by
  simp [added]

lemma added_take_succ {wire : List (Exchange ι)} {j : Nat} {e : Exchange ι}
    (h : wire[j]? = some e) (key : String) :
    added key (wire.take (j + 1)) = added key (wire.take j) + e.gain key := by
  rw [List.take_add_one, h, Option.toList_some, added_snoc]

/-- The increment of a call, and the total that it was answered. -/
def Call.increment (count : ι → Int) (i : ι) (key : String) (total : Int) : Exchange ι :=
  ⟨i, .increment key (.int (count i)), .ok (.int total)⟩

/-- What a call has done after some turns, and what it was answered. -/
def Stage (count : ι → Int) (i : ι) (key? : Option String) (turns : Nat) (p : Phase)
    (wire : List (Exchange ι)) : Prop :=
  match turns with
  | 0 => key? = none ∧ p = .idle
  | 1 => ∃ k, key? = some k ∧ p = .keyed k (.int (count i))
  | 2 => ∃ (k : String) (j : Nat) (t : Int), key? = some k ∧
      wire[j]? = some (Call.increment count i k t) ∧ inInt64 (count i) ∧ inInt64 t ∧
      p = .counted k (.int (count i)) (.int t)
  | _ => ∃ (k : String) (j : Nat) (t : Int), key? = some k ∧
      wire[j]? = some (Call.increment count i k t) ∧ p = .finished (.ok t)

lemma Stage.append {count : ι → Int} {i : ι} {key? : Option String} {turns : Nat} {p : Phase}
    {wire : List (Exchange ι)} (h : Stage count i key? turns p wire) (es : List (Exchange ι)) :
    Stage count i key? turns p (wire ++ es) := by
  have hwire {j : Nat} {e : Exchange ι} (hj : wire[j]? = some e) : (wire ++ es)[j]? = some e := by
    rw [List.getElem?_append_left (List.getElem?_eq_some_iff.1 hj).1, hj]
  match turns, h with
  | 0, h => exact h
  | 1, h => exact h
  | 2, ⟨k, j, t, hk, hj, hp⟩ => exact ⟨k, j, t, hk, hwire hj, hp⟩
  | _ + 3, ⟨k, j, t, hk, hj, hp⟩ => exact ⟨k, j, t, hk, hwire hj, hp⟩

end Wire

/-! ### The invariant -/

section Tracking

variable {ι : Type} [DecidableEq ι]

variable {σ : Type}

/-- What the store of a scene counts at a key. -/
def Scene.counterAt (view : View σ) (s : Scene ι σ) (key : String) : Option Int :=
  counterIn (view s.world.store s.world.now key)

/-- Calls that add whole counts. -/
def wholeCalls (owner : ι → Value) (count : ι → Int) (i : ι) : Call := ⟨owner i, .int (count i)⟩

/-- What holds of a scene that a schedule leads to. -/
structure Tracks [Fintype ι] (view : View σ) (owner : ι → Value) (count : ι → Int)
    (ttl start : Int) (ms : List (Move ι)) (s : Scene ι σ) : Prop where
  now : s.world.now = start + elapsed ms
  bound : fieldsWritable s.world.log.context = true
  kept : Keeps view s.world.store s.world.now (start + microsPerDay * ttl)
    (counted owner count start ms)
  stage : ∀ i, Stage count i (keyOf owner start ms i) (turns i ms) (s.phase i) s.wire
  sent : ∀ e ∈ s.wire, 2 ≤ turns e.caller ms
  addressed : ∀ e ∈ s.wire, keyOf owner start ms e.caller = some e.command.key
  replied : ∀ (j : Nat) (e : Exchange ι) (k : String) (v : Value), s.wire[j]? = some e →
    e.command = .increment k v →
      v = .int (count e.caller) ∧ e.reply = .ok (.int (added k (s.wire.take (j + 1))))
  summed : ∀ k, added k s.wire = counted owner count start ms k

variable {exec : Backend σ} {view : View σ} {owner : ι → Value} {count : ι → Int} {ttl start : Int}
  {ms : List (Move ι)} {s : Scene ι σ} {i : ι}

lemma keyOf_snoc_of_some {m : Move ι} {k : String} (h : keyOf owner start ms i = some k) :
    keyOf owner start (ms ++ [m]) i = some k := by
  rw [keyOf_snoc_of_turns, h]
  by_contra hturns
  have hnone : began start i ms = none := began_eq_none_iff.2 (by omega)
  rw [keyOf, hnone] at h
  exact absurd h (by simp)

variable [Fintype ι]

lemma Tracks.opening {w : World σ} (hstart : Starts view w) :
    Tracks view owner count ttl w.now [] (.opening w) where
  now := by simp [Scene.opening, elapsed]
  bound := hstart.bound
  kept := by
    have hzero : counted owner count w.now [] = fun _ => 0 := funext counted_nil
    rw [hzero]
    exact Keeps.of_empty hstart.empty _
  stage := fun _ => ⟨rfl, rfl⟩
  sent := fun _ he => absurd he List.not_mem_nil
  addressed := fun _ he => absurd he List.not_mem_nil
  replied := fun j e k v he => absurd he (by simp [Scene.opening])
  summed := fun k => (counted_nil k).symm

lemma Tracks.other {m : Move ι} (h : Tracks view owner count ttl start ms s) (hm : m.caller? = none)
    (hlaws : Laws exec view) {w : World σ} (hnow : w.now = s.world.now + m.micros)
    (hcontext : w.log.context = s.world.log.context)
    (hview : ∀ k, view w.store s.world.now k = view s.world.store s.world.now k)
    (helapsed : elapsed (ms ++ [m]) < microsPerDay * ttl) :
    Tracks view owner count ttl start (ms ++ [m]) { s with world := w } := by
  have hne (j : ι) : m.caller? ≠ some j := by
    rw [hm]
    exact nofun
  have hcounted : counted owner count start (ms ++ [m]) = counted owner count start ms :=
    funext (counted_snoc_of_none hm)
  have hclock : w.now = start + elapsed (ms ++ [m]) := by
    rw [hnow, h.now, elapsed_snoc]
    omega
  refine ⟨hclock, (congrArg fieldsWritable hcontext).trans h.bound, ?_, fun j => ?_,
    fun e he => ?_, fun e he => ?_, h.replied, fun k => ?_⟩
  · change Keeps view w.store w.now _ _
    rw [hcounted]
    exact (h.kept.congr hview).later hlaws (by omega) (by omega)
  · rw [keyOf_snoc_of_ne (hne j), turns_snoc_of_ne (hne j)]
    exact h.stage j
  · rw [turns_snoc_of_ne (hne e.caller)]
    exact h.sent e he
  · rw [keyOf_snoc_of_ne (hne e.caller)]
    exact h.addressed e he
  · rw [hcounted]
    exact h.summed k

/-- A turn of one call, put together from what it does to that call, to the store and to the
commands; the other calls stay as they are. -/
lemma Tracks.turn (h : Tracks view owner count ttl start ms s) {w : World σ} {p : Phase}
    {es : List (Exchange ι)} (hnow : w.now = s.world.now)
    (hcontext : w.log.context = s.world.log.context)
    (hkept : Keeps view w.store s.world.now (start + microsPerDay * ttl)
      (counted owner count start (ms ++ [Move.turn i])))
    (hstage : Stage count i (keyOf owner start (ms ++ [Move.turn i]) i) (turns i ms + 1) p
      (s.wire ++ es))
    (hsent : ∀ e ∈ es, e.caller = i ∧ 1 ≤ turns i ms)
    (haddressed : ∀ e ∈ es, keyOf owner start (ms ++ [Move.turn i]) e.caller = some e.command.key)
    (hreplied : ∀ (j : Nat) (e : Exchange ι) (k : String) (v : Value), es[j]? = some e →
      e.command = .increment k v → v = .int (count e.caller) ∧
        e.reply = .ok (.int (added k (s.wire ++ es.take (j + 1)))))
    (hsummed : ∀ k, added k (s.wire ++ es) = counted owner count start (ms ++ [Move.turn i]) k) :
    Tracks view owner count ttl start (ms ++ [Move.turn i])
      ⟨w, fun j => if j = i then p else s.phase j, s.wire ++ es⟩ := by
  refine ⟨?_, (congrArg fieldsWritable hcontext).trans h.bound, ?_, fun j => ?_, fun e he => ?_,
    fun e he => ?_, fun j e k v he hcommand => ?_, hsummed⟩
  · rw [hnow, h.now, elapsed_snoc]
    rfl
  · rw [hnow]
    exact hkept
  · by_cases hj : j = i
    · subst hj
      rw [turns_snoc_turn]
      simpa using hstage
    · have hne : (Move.turn i).caller? ≠ some j := fun hc => hj (Option.some.inj hc).symm
      rw [keyOf_snoc_of_ne hne, turns_snoc_of_ne hne]
      simpa [hj] using (h.stage j).append es
  · rw [turns_snoc]
    rcases List.mem_append.1 he with he | he
    · exact Nat.le_add_right_of_le (h.sent e he)
    · obtain ⟨rfl, hturns⟩ := hsent e he
      rw [Move.caller?, if_pos rfl]
      exact Nat.succ_le_succ hturns
  · rcases List.mem_append.1 he with he | he
    · exact keyOf_snoc_of_some (h.addressed e he)
    · exact haddressed e he
  · change (s.wire ++ es)[j]? = some e at he
    change _ ∧ e.reply = .ok (.int (added k ((s.wire ++ es).take (j + 1))))
    rcases Nat.lt_or_ge j s.wire.length with hj | hj
    · rw [List.getElem?_append_left hj] at he
      rw [List.take_append_of_le_length (by omega)]
      exact h.replied j e k v he hcommand
    · rw [List.getElem?_append_right hj] at he
      obtain ⟨hv, hreply⟩ := hreplied _ e k v he hcommand
      refine ⟨hv, ?_⟩
      have hindex : j + 1 - s.wire.length = j - s.wire.length + 1 := by omega
      rw [hreply, List.take_append, List.take_of_length_le (l := s.wire) (by omega), hindex]

/-! ### One turn -/

lemma counted_snoc_turn_of_ne (owner : ι → Value) (count : ι → Int) (start : Int)
    (h : turns i ms ≠ 1) :
    counted owner count start (ms ++ [Move.turn i]) = counted owner count start ms := by
  funext k
  rw [counted_snoc_turn, if_neg fun hk => h hk.1, Int.add_zero]

/-- A turn that runs no command changes nothing but the phase of the call. -/
lemma Tracks.silent (h : Tracks view owner count ttl start ms s) (hturns : turns i ms ≠ 1)
    {p : Phase}
    (hstage : Stage count i (keyOf owner start (ms ++ [Move.turn i]) i) (turns i ms + 1) p s.wire) :
    Tracks view owner count ttl start (ms ++ [Move.turn i])
      ⟨s.world, fun j => if j = i then p else s.phase j, s.wire ++ []⟩ := by
  refine h.turn rfl rfl ?_ ?_ (by simp) (by simp) (by simp) fun k => ?_
  · rw [counted_snoc_turn_of_ne owner count start hturns]
    exact h.kept
  · rw [List.append_nil]
    exact hstage
  · rw [counted_snoc_turn_of_ne owner count start hturns, List.append_nil]
    exact h.summed k

/-- A turn that runs one command, on the key of the call. -/
lemma Tracks.sending (h : Tracks view owner count ttl start ms s) {w : World σ} {p : Phase}
    {e : Exchange ι} {k : String} (hnow : w.now = s.world.now)
    (hcontext : w.log.context = s.world.log.context)
    (hkept : Keeps view w.store s.world.now (start + microsPerDay * ttl)
      (counted owner count start (ms ++ [Move.turn i])))
    (hturns : 1 ≤ turns i ms) (hkey : keyOf owner start ms i = some k)
    (hstage : Stage count i (some k) (turns i ms + 1) p (s.wire ++ [e]))
    (hcaller : e.caller = i) (haddressed : e.command.key = k)
    (hreplied : ∀ k' v, e.command = .increment k' v →
      v = .int (count i) ∧ e.reply = .ok (.int (added k' (s.wire ++ [e]))))
    (hsummed : ∀ k',
      added k' (s.wire ++ [e]) = counted owner count start (ms ++ [Move.turn i]) k') :
    Tracks view owner count ttl start (ms ++ [Move.turn i])
      ⟨w, fun j => if j = i then p else s.phase j, s.wire ++ [e]⟩ := by
  have hkey' := keyOf_snoc_of_some (m := .turn i) hkey
  refine h.turn hnow hcontext hkept ?_ ?_ ?_ (fun j e' k' v he hcommand => ?_) hsummed
  · rw [hkey']
    exact hstage
  · intro e' he
    rw [List.mem_singleton.1 he]
    exact ⟨hcaller, hturns⟩
  · intro e' he
    rw [List.mem_singleton.1 he, hcaller, hkey', haddressed]
  · obtain ⟨rfl, rfl⟩ : j = 0 ∧ e = e' := by
      simpa [List.getElem?_singleton] using he
    rw [hcaller, List.take_of_length_le (by simp)]
    exact hreplied k' v hcommand

/-- The first turn computes the key. -/
lemma Tracks.turn_zero (h : Tracks view owner count ttl start ms s) (exec : Backend σ)
    (hcount : ∀ i, 1 ≤ count i) (howner : ∀ i, (owner i).writable = true)
    (hturns : turns i ms = 0) (hphase : s.phase i = .idle) :
    Tracks view owner count ttl start (ms ++ [Move.turn i])
      (s.move exec ttl (wholeCalls owner count) (.turn i)) := by
  have hpos : (Number.int (count i)).ltInt 1 = false := ltInt_one_iff.2 (hcount i)
  have hmove : s.move exec ttl (wholeCalls owner count) (.turn i) = ⟨s.world, fun j =>
      if j = i then .keyed (keyAt (owner i) s.world.now) (.int (count i)) else s.phase j,
      s.wire ++ []⟩ := by
    simp [Scene.move, hphase, turn_idle, Call.start, Call.command?, wholeCalls, ordered, hpos,
      howner i]
  rw [hmove]
  apply h.silent (by omega)
  rw [hturns, keyOf_snoc_turn hturns, h.now]
  exact ⟨_, rfl, rfl⟩

/-- The second turn increments the counter of the key. -/
lemma Tracks.turn_one (h : Tracks view owner count ttl start ms s) (hserves : Serves exec view ttl)
    (hcount : ∀ i, 1 ≤ count i)
    (hfit : ∀ k, counted owner count start (ms ++ [Move.turn i]) k ≤ int64Max)
    (hturns : turns i ms = 1) {k : String} (hkey : keyOf owner start ms i = some k)
    (hphase : s.phase i = .keyed k (.int (count i))) :
    Tracks view owner count ttl start (ms ++ [Move.turn i])
      (s.move exec ttl (wholeCalls owner count) (.turn i)) := by
  have hcounted : counted owner count start (ms ++ [Move.turn i]) =
      fun k' => counted owner count start ms k' + if k = k' then count i else 0 := by
    funext k'
    rw [counted_snoc_turn, hturns, hkey]
    simp
  have h0 := counted_nonneg owner start ms hcount k
  have h1 := hcount i
  have hsum := hfit k
  rw [hcounted] at hsum
  simp only [if_true] at hsum
  have hn : inInt64 (count i) := inInt64_of_nonneg (by omega) (by omega)
  have ht : inInt64 (counted owner count start ms k + count i) := inInt64_of_nonneg (by omega) hsum
  -- the sum fits, so the store answers
  obtain ⟨v, store, hinc⟩ := hserves.counted s.world.now k s.world.store _ (count i)
    (h.kept.counts k).counterIn hn ht
  obtain ⟨rfl, hkept⟩ := h.kept.increment hserves.toLaws hinc
  have hmove : s.move exec ttl (wholeCalls owner count) (.turn i) =
      ⟨{ s.world with store := store }, fun j => if j = i then .counted k (.int (count i))
        (.int (counted owner count start ms k + count i)) else s.phase j,
        s.wire ++ [Call.increment count i k (counted owner count start ms k + count i)]⟩ := by
    simp [Scene.move, hphase, turn_keyed, Call.command?, Call.resume, Call.increment, wholeCalls,
      World.exec, hinc]
  rw [hmove]
  have hadded (k' : String) : added k' (s.wire ++ [Call.increment count i k
      (counted owner count start ms k + count i)]) =
      counted owner count start (ms ++ [Move.turn i]) k' := by
    rw [added_snoc, h.summed, hcounted]
    rfl
  refine h.sending rfl rfl ?_ hturns.ge hkey ?_ rfl rfl (fun k' v hcommand => ?_) hadded
  · rw [hcounted]
    exact hkept
  · rw [hturns]
    exact ⟨k, s.wire.length, _, rfl, by simp, hn, ht, rfl⟩
  · obtain ⟨rfl, rfl⟩ := Command.increment.inj hcommand
    refine ⟨rfl, ?_⟩
    rw [hadded, hcounted]
    simp only [if_true]
    rfl

/-- The third turn sets the expiry of the key, and the call answers its total. -/
lemma Tracks.turn_two (h : Tracks view owner count ttl start ms s) (hserves : Serves exec view ttl)
    (hcount : ∀ i, 1 ≤ count i) (howner : ∀ i, (owner i).writable = true)
    (helapsed : elapsed ms < microsPerDay * ttl) (hturns : turns i ms = 2) {k : String} {j : Nat}
    {t : Int} (hkey : keyOf owner start ms i = some k)
    (hwire : s.wire[j]? = some (Call.increment count i k t)) (hn : inInt64 (count i))
    (ht : inInt64 t) (hphase : s.phase i = .counted k (.int (count i)) (.int t)) :
    Tracks view owner count ttl start (ms ++ [Move.turn i])
      (s.move exec ttl (wholeCalls owner count) (.turn i)) := by
  obtain ⟨v, store, hexp⟩ := hserves.kept s.world.now k s.world.store
  have hwrite : s.world.log.write .debug "scan_recorded"
      (addedFields (owner i) (.int (count i)) (.int t)) =
      (.ok (), s.world.log.tell (some (addedNote (owner i) (.int (count i)) (.int t)))) := by
    have htakes : s.world.log.takes (some (addedNote (owner i) (.int (count i)) (.int t))) = true :=
      Log.takes_of_writable fun x hx => by
        obtain rfl := Option.some.inj hx
        exact writable_addedNote h.bound (howner i) (writable_of_inInt64 hn)
          (writable_of_inInt64 ht)
    exact Log.write_eq_tell.trans (congrArg (·, _) (if_pos htakes))
  have hmove : s.move exec ttl (wholeCalls owner count) (.turn i) =
      ⟨{ s.world with
          store := store
          log := s.world.log.tell (some (addedNote (owner i) (.int (count i)) (.int t))) },
        fun j => if j = i then .finished (.ok t) else s.phase j,
        s.wire ++ [⟨i, .expire k (retention ttl), .ok v⟩]⟩ := by
    simp [Scene.move, hphase, turn_counted, Call.command?, Call.resume, wholeCalls, World.exec,
      hexp, hwrite, toInteger, Value.text?]
  rw [hmove]
  have hcounted := counted_snoc_turn_of_ne owner count start
    (show turns i ms ≠ 1 by omega)
  -- the key of a counted call is there, and no expiry is reached yet
  have hpos : 0 < counted owner count start ms k :=
    (hcount i).trans (le_counted hcount (by omega) hkey)
  have hnow := h.now
  refine h.sending rfl rfl ?_ (by omega) hkey ?_ rfl rfl (fun k' v hcommand => ?_) fun k' => ?_
  · rw [hcounted]
    exact h.kept.expire hserves.toLaws hexp hpos (by omega) (by rw [due_retention]; omega)
  · rw [hturns]
    have hlt := (List.getElem?_eq_some_iff.1 hwire).1
    exact ⟨k, j, t, rfl, by rw [List.getElem?_append_left hlt, hwire], rfl⟩
  · exact absurd hcommand (by simp)
  · rw [hcounted, added_snoc, h.summed]
    exact Int.add_zero _

lemma Tracks.turn_finished (h : Tracks view owner count ttl start ms s) (exec : Backend σ)
    (hturns : 3 ≤ turns i ms) {k : String} {j : Nat} {t : Int}
    (hkey : keyOf owner start ms i = some k)
    (hwire : s.wire[j]? = some (Call.increment count i k t))
    (hphase : s.phase i = .finished (.ok t)) :
    Tracks view owner count ttl start (ms ++ [Move.turn i])
      (s.move exec ttl (wholeCalls owner count) (.turn i)) := by
  have hmove : s.move exec ttl (wholeCalls owner count) (.turn i) =
      ⟨s.world, fun j => if j = i then .finished (.ok t) else s.phase j, s.wire ++ []⟩ := by
    simp [Scene.move, hphase, Tally.turn_finished, Call.command?]
  rw [hmove]
  apply h.silent (by omega)
  obtain ⟨n, hn⟩ := Nat.exists_eq_add_of_le' hturns
  rw [hn, keyOf_snoc_of_some hkey]
  exact ⟨k, j, t, rfl, hwire, rfl⟩

/-! ### Every schedule -/

lemma Tracks.move (h : Tracks view owner count ttl start ms s) (hserves : Serves exec view ttl)
    (hcount : ∀ i, 1 ≤ count i) (howner : ∀ i, (owner i).writable = true) (m : Move ι)
    (helapsed : elapsed (ms ++ [m]) < microsPerDay * ttl)
    (hfit : ∀ k, counted owner count start (ms ++ [m]) k ≤ int64Max) :
    Tracks view owner count ttl start (ms ++ [m])
      (s.move exec ttl (wholeCalls owner count) m) := by
  cases m with
  | turn i =>
    have hstage := h.stage i
    obtain hturns | hturns | hturns | ⟨n, hturns⟩ :
        turns i ms = 0 ∨ turns i ms = 1 ∨ turns i ms = 2 ∨ ∃ n, turns i ms = n + 3 := by
      rcases Nat.lt_or_ge (turns i ms) 3 with hlt | hge
      · omega
      · exact Or.inr (Or.inr (Or.inr (Nat.exists_eq_add_of_le' hge)))
    all_goals rw [hturns] at hstage
    · exact h.turn_zero exec hcount howner hturns hstage.2
    · obtain ⟨k, hkey, hphase⟩ := hstage
      exact h.turn_one hserves hcount hfit hturns hkey hphase
    · obtain ⟨k, j, t, hkey, hwire, hn, ht, hphase⟩ := hstage
      rw [elapsed_snoc] at helapsed
      exact h.turn_two hserves hcount howner (by omega) hturns hkey hwire hn ht hphase
    · obtain ⟨k, j, t, hkey, hwire, hphase⟩ := hstage
      exact h.turn_finished exec (by omega) hkey hwire hphase
  | today owner' =>
    have htoday := today_eq exec owner' s.world.now s.world.store s.world.log
    refine h.other rfl hserves.toLaws ?_ ?_ (today_view hserves.toLaws owner' s.world) helapsed
    · exact (congrArg (·.2.now) htoday).trans (Int.add_zero _).symm
    · exact congrArg (·.2.log.context) htoday
  | wait micros => exact h.other rfl hserves.toLaws rfl rfl (fun _ => rfl) helapsed

omit [Fintype ι] in
lemma play_snoc (exec : Backend σ) (ttl : Int) (calls : ι → Call) (w : World σ)
    (ms : List (Move ι)) (m : Move ι) :
    play exec ttl calls w (ms ++ [m]) = (play exec ttl calls w ms).move exec ttl calls m :=
  List.foldl_append

/-- Every state that a schedule leads to satisfies the invariant. -/
theorem tracks_play {w : World σ} (hserves : Serves exec view ttl) (hstart : Starts view w)
    (hcount : ∀ i, 1 ≤ count i) (howner : ∀ i, (owner i).writable = true)
    (helapsed : elapsed ms < microsPerDay * ttl)
    (hfit : ∀ k, counted owner count w.now ms k ≤ int64Max) :
    Tracks view owner count ttl w.now ms (play exec ttl (wholeCalls owner count) w ms) := by
  induction ms using List.reverseRecOn with
  | nil => exact Tracks.opening hstart
  | append_singleton ms m ih =>
    have hprefix : elapsed ms < microsPerDay * ttl := by
      rw [elapsed_snoc] at helapsed
      omega
    rw [play_snoc]
    have hbefore := ih hprefix fun k => (counted_le_snoc hcount k).trans (hfit k)
    exact hbefore.move hserves hcount howner m helapsed hfit

end Tracking

end Entitlement.Tally
