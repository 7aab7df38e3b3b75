import Entitlement.Proofs.Settings.Loads

/-!
What the steps of a session answer, keep and dial.

The invariant says of what is kept before a step that it is the first load that came about since
settings were last forgotten, or that there was none. Each kind of step preserves it, so it holds
all along a run, and every step goes by the settings in effect.
-/

namespace Entitlement.Settings

/-- What a session keeps and sees before the step at a position. -/
structure Remembers (start : Session) (xs : List Step) (j : Nat) (s : Session) : Prop where
  environment : s.environment = environmentAt start xs j
  file : s.file = start.file
  bare : s.kept = none → Bare start xs j
  first : ∀ v, s.kept = some v → ∃ i, FirstLoad start xs i j v

variable {start s : Session} {xs : List Step} {j : Nat} {x : Step}

namespace Remembers

lemma make_eq (h : Remembers start xs j s) (keywords : List (String × Value)) :
    s.make keywords = loadAt start xs j keywords := by
  unfold Session.make Session.sources loadAt
  rw [h.environment, h.file]

lemma inEffect (h : Remembers start xs j s) (hreads : x.reads = true) :
    InEffect start xs j x s.get.1 := by
  cases hkept : s.kept with
  | none =>
    rw [Session.get_of_none hkept, h.make_eq]
    exact .loaded hreads (h.bare hkept)
  | some v =>
    obtain ⟨i, hfirst⟩ := h.first v hkept
    rw [Session.get_of_some hkept]
    exact .kept i v hreads hfirst

lemma after_get (h : Remembers start xs j s) (hx : xs[j]? = some x) (hreads : x.reads = true) :
    Remembers start xs (j + 1) s.get.2 := by
  have henvironment : s.environment = environmentAt start xs (j + 1) := by
    rw [environmentAt_succ start hx, Step.environment_of_reads hreads, h.environment]
  cases hkept : s.kept with
  | some v =>
    rw [Session.get_of_some hkept]
    refine ⟨henvironment, h.file, fun hnone => by simp [hkept] at hnone, fun v' hv' => ?_⟩
    obtain ⟨i, hfirst⟩ := h.first v' hv'
    exact ⟨i, hfirst.succ hx (Step.ne_forget_of_reads hreads)⟩
  | none =>
    have hbare := h.bare hkept
    rw [Session.get_of_none hkept, h.make_eq]
    cases hload : loadAt start xs j [] with
    | error e =>
      exact
        { environment := henvironment
          file := h.file
          bare := fun _ => hbare.succ hx fun _ => ⟨e, hload⟩
          first := fun _ hv => nomatch hv }
    | ok v =>
      -- this step is the first to load from now on
      refine ⟨henvironment, h.file, fun hnone => (nomatch hnone), fun v' hv' => ?_⟩
      obtain rfl := Option.some.inj hv'
      refine ⟨j, Nat.lt_succ_self j, ⟨x, hx, hreads⟩, hbare, hload, fun m hjm hmj => ?_⟩
      obtain rfl : m = j := by omega
      rw [hx]
      exact fun hforget => Step.ne_forget_of_reads hreads (Option.some.inj hforget)

lemma after_other (h : Remembers start xs j s) (hx : xs[j]? = some x) (hreads : x.reads = false)
    (hforget : x ≠ .forget) :
    Remembers start xs (j + 1) ⟨x.environment s.environment, s.file, s.kept⟩ where
  environment := by rw [environmentAt_succ start hx, h.environment]
  file := h.file
  bare hkept := (h.bare hkept).succ hx fun hreads' => by rw [hreads] at hreads'; cases hreads'
  first v hkept := by
    obtain ⟨i, hfirst⟩ := h.first v hkept
    exact ⟨i, hfirst.succ hx hforget⟩

lemma after_forget (h : Remembers start xs j s) (hx : xs[j]? = some .forget) :
    Remembers start xs (j + 1) s.forget where
  environment := by
    rw [environmentAt_succ start hx]
    exact h.environment
  file := h.file
  bare _ := bare_of_forget hx
  first _ hkept := nomatch hkept

/-- Every step keeps to the invariant. -/
theorem after_step (h : Remembers start xs j s) (hx : xs[j]? = some x) :
    Remembers start xs (j + 1) (s.step x).2 := by
  cases hreads : x.reads with
  | true =>
    rw [Session.step_of_reads hreads]
    exact h.after_get hx hreads
  | false =>
    match x with
    | .forget => exact h.after_forget hx
    | .set _ _ | .unset _ | .make _ | .connect (some _) =>
      exact h.after_other hx hreads fun hforget => nomatch hforget

end Remembers

/-! ### Whole runs -/

def Dialling.reached (client : Client) (start : Dialling) (xs : List Step) (j : Nat) : Dialling :=
  (start.run client (xs.take j)).2

variable {client : Client}

/-- Before every step of a run that starts with nothing kept the invariant holds. -/
theorem remembers_reached (client : Client) {start : Dialling} (hkept : start.session.kept = none)
    (hj : j ≤ xs.length) : Remembers start.session xs j (start.reached client xs j).session := by
  unfold Dialling.reached
  induction j with
  | zero =>
    rw [List.take_zero, Dialling.run_nil]
    refine ⟨rfl, rfl, fun _ => bare_zero, fun v hv => ?_⟩
    rw [hkept] at hv
    cases hv
  | succ j ih =>
    have hx : xs[j]? = some xs[j] := List.getElem?_eq_getElem hj
    rw [Dialling.run_take_succ start hx, Dialling.session_step]
    exact (ih (Nat.le_of_succ_le hj)).after_step hx

/-- What the step at a position of a run answers, keeps and dials. -/
structure Follows (client : Client) (start : Dialling) (xs : List Step) (j : Nat) (x : Step) :
    Prop where
  /-- One load is in effect. It is answered with, its address is dialled by a tracker, and a step
  that reads keeps it unless it failed. -/
  effect : x.reads = true ∨ x.keywords?.isSome = true → ∃ r,
    (∀ r', InEffect start.session xs j x r' ↔ r' = r) ∧
      (start.run client xs).1[j]? = some (r.bind (x.answered client)) ∧
      (start.reached client xs (j + 1)).dialled =
        (start.reached client xs j).dialled ++ x.dialledWith r ∧
      (x.reads = true → (start.reached client xs (j + 1)).session.kept = r.toOption)
  /-- What was read before and not forgotten is read again. -/
  lasting : ∀ i y v, i < j → xs[i]? = some y → y.reads = true → Unforgotten xs i j →
    InEffect start.session xs i y (.ok v) → x.reads = true →
      (start.run client xs).1[j]? = some (x.answered client v)
  other : x.reads = false → x.keywords? = none →
    (start.run client xs).1[j]? = some (.ok .done) ∧
      (start.reached client xs (j + 1)).dialled = (start.reached client xs j).dialled
  untouched : x.reads = false → x ≠ .forget →
    (start.reached client xs (j + 1)).session.kept = (start.reached client xs j).session.kept
  forgotten : x = .forget → (start.reached client xs (j + 1)).session.kept = none

/-- **The settings of a session**: in a run that starts with nothing kept, every step that needs
settings goes by those in effect, whatever was set, unset, made or dialled in between, and nothing
but a reading or forgetting changes what is kept. -/
theorem run_follows (client : Client) (start : Dialling) (hkept : start.session.kept = none)
    (xs : List Step) (j : Nat) (x : Step) (hx : xs[j]? = some x) :
    Follows client start xs j x := by
  have hj : j < xs.length := (List.getElem?_eq_some_iff.1 hx).1
  have hbefore := remembers_reached client hkept (Nat.le_of_lt hj)
  have hanswer : (start.run client xs).1[j]? =
      some ((start.reached client xs j).step client x).1 := by
    rw [Dialling.run_getElem?, hx]
    rfl
  have hafter : start.reached client xs (j + 1) =
      ((start.reached client xs j).step client x).2 := start.run_take_succ hx
  constructor
  case effect =>
    rintro (hreads | hkeywords)
    · -- the kept settings
      have heffect := hbefore.inEffect hreads
      refine ⟨_, fun r' => ⟨fun h => h.unique heffect, ?_⟩, ?_, ?_, fun _ => ?_⟩
      · rintro rfl
        exact heffect
      · rw [hanswer, Dialling.step_of_reads hreads]
      · rw [hafter, Dialling.step_of_reads hreads]
      · rw [hafter, Dialling.step_of_reads hreads]
        exact Session.kept_get _
    · -- settings of its own
      obtain ⟨keywords, hkeywords⟩ := Option.isSome_iff_exists.1 hkeywords
      have heffect : InEffect start.session xs j x (loadAt start.session xs j keywords) :=
        .given keywords hkeywords
      refine ⟨_, fun r' => ⟨fun h => h.unique heffect, ?_⟩, ?_, ?_, fun hreads => ?_⟩
      · rintro rfl
        exact heffect
      · rw [hanswer, Dialling.step_of_keywords hkeywords, hbefore.make_eq]
      · rw [hafter, Dialling.step_of_keywords hkeywords, hbefore.make_eq]
      · exact absurd hreads (Step.not_reads_of_keywords hkeywords)
  case lasting =>
    intro i y v hij hy hy' hlasts hread hreads
    have hv := (hread.lasts hy hy' hij hlasts hreads).unique (hbefore.inEffect hreads)
    rw [hanswer, Dialling.step_of_reads hreads, ← hv]
    rfl
  case other =>
    intro hreads hkeywords
    rw [hanswer, hafter, Dialling.step_other hreads hkeywords]
    exact ⟨rfl, rfl⟩
  case untouched =>
    intro hreads hforget
    rw [hafter, Dialling.kept_step hreads hforget]
  case forgotten =>
    rintro rfl
    rw [hafter]
    rfl

/-- A first reading fails and a second one comes about. A tracker goes by it when its variable is no
longer set, and after it was forgotten another tracker goes by the defaults. -/
theorem first_load_lasts :
    let days := "usage_key_ttl_days"
    let steps : List Step :=
      [.set days "soon", .get, .set days "3", .get, .unset days, .connect none, .forget,
        .connect none]
    let client : Client := fun _ => .ok ()
    let start : Dialling := ⟨.start, []⟩
    let answers := (start.run client steps).1
    (∃ e, answers[1]? = some (.error e)) ∧
      (∃ s : Settings, s.ttlDays = 3 ∧ answers[3]? = some (.ok (.settings s)) ∧
        answers[5]? = some (.ok (.connection ⟨s.storeUrl, 3⟩))) ∧
      answers[7]? = some (.ok (.connection ⟨defaultStoreUrl, 7⟩)) ∧
      (start.reached client steps 8).dialled =
        (start.reached client steps 7).dialled ++ [defaultStoreUrl] := by
  intro days steps client start answers
  have hload (value : String) := load_of_select (select_variable .ttlDays · value)
  obtain ⟨e, hsoon⟩ : ∃ e, loadAt start.session steps 1 [] = .error e := ⟨_, hload "soon"⟩
  obtain ⟨s, hthree, hdays⟩ : ∃ s, loadAt start.session steps 3 [] = .ok s ∧ s.ttlDays = 3 :=
    ⟨_, hload "3", rfl⟩
  obtain ⟨s', hseven, hdefaults⟩ : ∃ s, loadAt start.session steps 7 [] = .ok s ∧
      Settings.connect s = ⟨defaultStoreUrl, 7⟩ := ⟨_, rfl, rfl⟩
  have hbare₁ : Bare start.session steps 1 := bare_zero.succ (x := .set days "soon") rfl nofun
  have hbare₃ : Bare start.session steps 3 :=
    (hbare₁.succ (x := .get) rfl fun _ => ⟨e, hsoon⟩).succ (x := .set days "3") rfl nofun
  have heffect (j : Nat) (x : Step) (hx : steps[j]? = some x) (hreads : x.reads = true)
      (hbare : Bare start.session steps j) :
      answers[j]? = some ((loadAt start.session steps j []).bind (x.answered client)) ∧
        (start.reached client steps (j + 1)).dialled = (start.reached client steps j).dialled ++
          x.dialledWith (loadAt start.session steps j []) := by
    obtain ⟨r, hr, hanswer, hdialled, -⟩ :=
      (run_follows client start rfl steps j x hx).effect (Or.inl hreads)
    obtain rfl := (hr _).1 (.loaded hreads hbare)
    exact ⟨hanswer, hdialled⟩
  have hthird : InEffect start.session steps 3 .get (.ok s) := by
    rw [← hthree]
    exact .loaded rfl hbare₃
  have hlasts : Unforgotten steps 3 5 := by
    intro m h3 h5
    obtain rfl | rfl : m = 3 ∨ m = 4 := by omega
    all_goals exact fun h => nomatch h
  obtain ⟨hanswer₁, -⟩ := heffect 1 .get rfl rfl hbare₁
  obtain ⟨hanswer₃, -⟩ := heffect 3 .get rfl rfl hbare₃
  have hanswer₅ := (run_follows client start rfl steps 5 (.connect none) rfl).lasting 3 .get s
    (by decide) rfl rfl hlasts hthird rfl
  obtain ⟨hanswer₇, hdialled₇⟩ := heffect 7 (.connect none) rfl rfl (bare_of_forget rfl)
  rw [hsoon] at hanswer₁
  rw [hthree] at hanswer₃
  rw [hseven] at hanswer₇ hdialled₇
  have hurl : s'.storeUrl = defaultStoreUrl := congrArg Connection.url hdefaults
  refine ⟨⟨e, hanswer₁⟩, ⟨s, hdays, hanswer₃, ?_⟩, ?_, ?_⟩
  · rw [hanswer₅, ← hdays]
    rfl
  · rw [hanswer₇, ← hdefaults]
    rfl
  · rw [hdialled₇, ← hurl]
    rfl

end Entitlement.Settings
