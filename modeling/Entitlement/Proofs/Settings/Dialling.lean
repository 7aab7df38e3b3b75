import Entitlement.Proofs.Settings
import Entitlement.Settings.Dialling

/-!
Steps of a session, by where their settings come from.

A step reads the kept settings, or goes by settings that are made from its own keywords, or needs
none. In the first two cases its answer is made of those settings, and so is the address that a
tracker dials. Prices that are asked for one by one are the prices of one reading, and what a client
makes of an address changes nothing but the answer.
-/

namespace Entitlement.Settings

namespace Step

/-- Steps that go by the kept settings. -/
def reads : Step → Bool
  | .get | .prices | .connect none => true
  | _ => false

/-- The keywords of steps that go by settings of their own. -/
def keywords? : Step → Option (List (String × Value))
  | .make keywords => some keywords
  | .connect keywords => keywords
  | _ => none

/-- What a step answers that goes by some settings. -/
def answerWith (s : Settings) : Step → Answer
  | .get | .make _ => .settings s
  | .prices => .prices (Plan.all.map s.price)
  | .connect _ => .connection (Settings.connect s)
  | .set _ _ | .unset _ | .forget => .done

/-- The answer of a step that goes by some settings. A tracker may find its address turned down. -/
def answered (client : Client) (s : Settings) : Step → Except Error Answer
  | .connect keywords => (client s.storeUrl).map fun _ => (Step.connect keywords).answerWith s
  | x => .ok (x.answerWith s)

def dialledWith (r : Except Error Settings) : Step → List String
  | .connect _ =>
    match r with
    | .ok s => [s.storeUrl]
    | .error _ => []
  | _ => []

def environment (env : List (String × String)) : Step → List (String × String)
  | .set name value => Assoc.put env name value
  | .unset name => Assoc.erase env name
  | _ => env

end Step

variable {s : Session} {xs : List Step} {j : Nat} {x : Step} {v : Settings}
  {keywords : List (String × Value)}

namespace Step

lemma environment_of_reads (h : x.reads = true) (e : List (String × String)) :
    x.environment e = e := by
  match x with
  | .get | .prices | .connect none => rfl

lemma ne_forget_of_reads (h : x.reads = true) : x ≠ .forget := by
  rintro rfl
  cases h

lemma not_reads_of_keywords (h : x.keywords? = some keywords) : ¬ x.reads = true := by
  match x with
  | .make _ | .connect (some _) => exact Bool.false_ne_true

end Step

/-! ### One step -/

namespace Session

lemma get_of_some (h : s.kept = some v) : s.get = (.ok v, s) := by
  simp [get, h]

lemma get_of_none (h : s.kept = none) :
    s.get = (s.make [], { s with kept := (s.make []).toOption }) := by
  obtain ⟨environment, file, _⟩ := s
  obtain rfl := h
  unfold get
  dsimp only
  cases (Session.mk environment file none).make [] <;> rfl

lemma kept_get (s : Session) : s.get.2.kept = s.get.1.toOption := by
  cases hkept : s.kept with
  | some v =>
    rw [get_of_some hkept]
    exact hkept
  | none => rw [get_of_none hkept]

lemma monthlyPrice_eq (s : Session) (p : Plan) :
    monthlyPrice (.plan p) none s = (s.get.1.map fun v => v.price p, s.get.2) := by
  unfold monthlyPrice settingsOr
  rcases s.get with ⟨_ | v, s⟩
  · rfl
  · rw [Plan.ofValue_plan]
    rfl

lemma eachPrice_of_some (h : s.kept = some v) (ps : List Plan) :
    s.eachPrice ps = (.ok (ps.map v.price), s) := by
  induction ps with
  | nil => rfl
  | cons p ps ih =>
    rw [eachPrice, monthlyPrice_eq, get_of_some h]
    simp only [Except.map, ih]
    rfl

/-- Prices asked for one by one are those of one reading: if the first comes about, the others find
it kept. -/
lemma eachPrice_cons (s : Session) (p : Plan) (ps : List Plan) :
    s.eachPrice (p :: ps) = (s.get.1.map fun v => (p :: ps).map v.price, s.get.2) := by
  have hkept := s.kept_get
  rw [eachPrice, monthlyPrice_eq]
  generalize s.get = reading at hkept ⊢
  obtain ⟨_ | v, s⟩ := reading
  · rfl
  · simp only [Except.map, eachPrice_of_some hkept]
    rfl

/-- Steps that read answer with what reading gives, and leave what it leaves. -/
lemma step_of_reads (h : x.reads = true) (s : Session) :
    s.step x = (s.get.1.map x.answerWith, s.get.2) := by
  match x with
  | .get | .prices | .connect none => rfl

lemma step_of_keywords (h : x.keywords? = some keywords) (s : Session) :
    s.step x = ((s.make keywords).map x.answerWith, s) := by
  match x with
  | .make _ | .connect (some _) =>
    obtain rfl := Option.some.inj h
    rfl

end Session

namespace Dialling

variable {client : Client}

lemma step_connect (d : Dialling) (keywords : Option (List (String × Value))) :
    d.step client (.connect keywords) =
      ((d.session.makeOrGet keywords).1.bind ((Step.connect keywords).answered client),
        ⟨(d.session.makeOrGet keywords).2,
          d.dialled ++ (Step.connect keywords).dialledWith (d.session.makeOrGet keywords).1⟩) := by
  rw [step, connect]
  rcases d.session.makeOrGet keywords with ⟨_ | v, s⟩
  · rw [Step.dialledWith, List.append_nil]
    rfl
  · show (((client v.storeUrl).map _).map _, _) = ((client v.storeUrl).map _, _)
    cases client v.storeUrl <;> rfl

lemma step_of_reads (h : x.reads = true) (d : Dialling) : d.step client x =
    (d.session.get.1.bind (x.answered client),
      ⟨d.session.get.2, d.dialled ++ x.dialledWith d.session.get.1⟩) := by
  match x with
  | .get =>
    simp only [Step.dialledWith, List.append_nil]
    show (d.session.get.1.map Answer.settings, (⟨d.session.get.2, d.dialled⟩ : Dialling)) = _
    rcases d.session.get with ⟨_ | v, s⟩ <;> rfl
  | .prices =>
    rw [step, Plan.all, Session.eachPrice_cons]
    simp only [Step.dialledWith, List.append_nil]
    rcases d.session.get with ⟨_ | v, s⟩ <;> rfl
  | .connect none => exact d.step_connect none

lemma step_of_keywords (h : x.keywords? = some keywords) (d : Dialling) : d.step client x =
    ((d.session.make keywords).bind (x.answered client),
      ⟨d.session, d.dialled ++ x.dialledWith (d.session.make keywords)⟩) := by
  match x with
  | .make given =>
    obtain rfl := Option.some.inj h
    simp only [Step.dialledWith, List.append_nil]
    show ((d.session.make given).map Answer.settings, d) = _
    cases d.session.make given <;> rfl
  | .connect (some _) =>
    obtain rfl := Option.some.inj h
    exact d.step_connect _

lemma step_other (hreads : x.reads = false) (hkeywords : x.keywords? = none) (d : Dialling) :
    d.step client x = (.ok .done, ⟨(d.session.step x).2, d.dialled⟩) := by
  match x with
  | .set _ _ | .unset _ | .forget => rfl

lemma kept_step (hreads : x.reads = false) (hforget : x ≠ .forget) (d : Dialling) :
    (d.step client x).2.session.kept = d.session.kept := by
  match x with
  | .set _ _ | .unset _ | .make _ => rfl
  | .connect (some keywords) => rw [step_of_keywords rfl]

lemma session_step (d : Dialling) (x : Step) :
    (d.step client x).2.session = (d.session.step x).2 := by
  cases hreads : x.reads with
  | true => rw [step_of_reads hreads, Session.step_of_reads hreads]
  | false =>
    match x with
    | .set _ _ | .unset _ | .forget | .make _ => rfl
    | .connect (some keywords) => rw [step_of_keywords rfl, Session.step_of_keywords rfl]

lemma answer_step (hclient : ∀ url, client url = .ok ()) (d : Dialling) (x : Step) :
    (d.step client x).1 = (d.session.step x).1 := by
  match x with
  | .set _ _ | .unset _ | .forget | .get | .make _ => rfl
  | .prices =>
    rw [step_of_reads rfl, Session.step_of_reads rfl]
    rcases d.session.get with ⟨_ | v, s⟩ <;> rfl
  | .connect keywords =>
    rw [step_connect, Session.step]
    rcases d.session.makeOrGet keywords with ⟨_ | v, s⟩
    · rfl
    · show (client v.storeUrl).map _ = _
      rw [hclient]
      rfl

/-- With a client that turns nothing down, a run call by call is the run of the session. -/
theorem run_session (hclient : ∀ url, client url = .ok ()) (d : Dialling) (xs : List Step) :
    (d.run client xs).1 = (d.session.run xs).1 ∧
      (d.run client xs).2.session = (d.session.run xs).2 := by
  induction xs generalizing d with
  | nil => exact ⟨rfl, rfl⟩
  | cons x xs ih =>
    obtain ⟨hanswers, hafter⟩ := ih (d.step client x).2
    rw [session_step] at hanswers hafter
    exact ⟨congrArg₂ List.cons (answer_step hclient d x) hanswers, hafter⟩

lemma run_append (d : Dialling) (xs ys : List Step) :
    (d.run client (xs ++ ys)).2 = ((d.run client xs).2.run client ys).2 := by
  induction xs generalizing d with
  | nil => rfl
  | cons x xs ih => exact ih (d.step client x).2

lemma run_take_succ (d : Dialling) (hx : xs[j]? = some x) :
    (d.run client (xs.take (j + 1))).2 = ((d.run client (xs.take j)).2.step client x).2 := by
  rw [List.take_add_one, hx, run_append]
  rfl

lemma run_getElem? (d : Dialling) (xs : List Step) (j : Nat) : (d.run client xs).1[j]? =
    xs[j]?.map fun x => ((d.run client (xs.take j)).2.step client x).1 := by
  induction xs generalizing d j with
  | nil => simp
  | cons x xs ih =>
    cases j with
    | zero => simp
    | succ j =>
      rw [run_cons, List.getElem?_cons_succ, List.getElem?_cons_succ, List.take_succ_cons, run_cons]
      exact ih _ _

end Dialling

end Entitlement.Settings
