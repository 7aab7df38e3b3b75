import Entitlement.Proofs.Log.Program
import Entitlement.Proofs.Settings

/-!
The levels that texts stand for.

A text that is the name of a standard level, in whatever case, sets the number of that level, and
other texts set that of information. Two names are found where levels are looked up and are none;
they set nothing. A level that was set decides every call after it, through any steps that do not
set another.
-/

namespace Entitlement

/-- The standard levels by name. -/
def Level.standard : List (String × Nat) :=
  [("NOTSET", 0), ("DEBUG", 10), ("INFO", 20), ("WARN", 30), ("WARNING", 30), ("ERROR", 40),
    ("FATAL", 50), ("CRITICAL", 50)]

def Level.asked (s : String) : Nat :=
  (Assoc.find? standard (Text.uppered s)).getD info.number

def Misnomer.name : Misnomer → String
  | format => "BASIC_FORMAT"
  | styles => "_STYLES"

namespace LevelName

lemma ofUpper_name (m : Misnomer) : ofUpper m.name = .misnomer m := by cases m <;> rfl

lemma ofUpper_of_ne {u : String} (h : ∀ m : Misnomer, u ≠ m.name) :
    ofUpper u = .threshold ((Assoc.find? Level.standard u).getD Level.info.number) := by
  unfold ofUpper
  split
  case h_9 => exact absurd rfl (h .format)
  case h_10 => exact absurd rfl (h .styles)
  case h_11 => simp_all [Level.standard, Assoc.find?, Level.number, eq_comm (b := u)]
  all_goals rfl

end LevelName

namespace Log

variable {log log' : Log} {n : Nat}

/-! ### Setting a level -/

lemma configure_of_eq {s : String} {m : Misnomer} (h : Text.uppered s = m.name) :
    log.configure (.text s) = (.error (.misnomer m !log.ready), { log with ready := true }) := by
  have hlevel : thresholdOf log.ready (.text s) = .error (.misnomer m !log.ready) := by
    simp only [thresholdOf, Value.text?, h, LevelName.ofUpper_name]
  rw [configure, hlevel]
  simp [Value.text?]

lemma configure_of_ne {s : String} (h : ∀ m : Misnomer, Text.uppered s ≠ m.name) :
    log.configure (.text s) = (.ok (), { log with threshold := Level.asked s, ready := true }) := by
  have hlevel : thresholdOf log.ready (.text s) = .ok (Level.asked s) := by
    simp only [thresholdOf, Value.text?, LevelName.ofUpper_of_ne h, Level.asked]
  rw [configure, hlevel]

/-! ### Steps that do not set it -/

mutual

def Step.setsLevel : Step → Bool
  | .configure _ => true
  | .block _ steps => anySetsLevel steps
  | .log _ _ _ | .raise _ | .enter _ _ | .exit _ | .require _ _ _ => false

def anySetsLevel : List Step → Bool
  | [] => false
  | s :: ss => s.setsLevel || anySetsLevel ss

end

/-- Every logger goes by one threshold. -/
structure GoesBy (n : Nat) (log : Log) : Prop where
  common : log.threshold = n
  quota : log.quotaLevel = n

lemma GoesBy.alike (h : log.GoesBy n) (halike : Alike log log') : log'.GoesBy n where
  common := (congrFun halike.thresholds .common).trans h.common
  quota := (congrFun halike.thresholds .quota).trans h.quota

lemma GoesBy.thresholdFor_eq (h : log.GoesBy n) (logger : Logger) :
    log.thresholdFor logger = n := by
  cases logger
  · exact h.common
  · exact h.quota

lemma say_alone (log : Log) (logger : Logger) (level : Level) (name : String)
    (values : Bindings) :
    ∃ log', log.say logger level name values =
        (if (Event.make level name log.context values).breaks (log.thresholdFor logger)
          then .error .unwritable else .ok (), log') ∧ Alike log log' ∧
      log'.printed = log.printed ++ [Event.make level name log.context values].filter
        (Event.isPrinted (log.thresholdFor logger)) :=
  say_eq ⟨rfl, rfl⟩ ⟨[], logger, level, name, values⟩ rfl

lemma alike_say (log : Log) (logger : Logger) (level : Level) (name : String)
    (values : Bindings) : Alike log (log.say logger level name values).2 := by
  obtain ⟨log', hsay, halike, -⟩ := say_alone log logger level name values
  rw [hsay]
  exact halike

/-- What is called is printed if it reaches the threshold and can be written out, and nothing else
is. -/
lemma GoesBy.printed_say (h : log.GoesBy n) (logger : Logger) (level : Level) (name : String)
    (values : Bindings) :
    let e := Event.make level name log.context values
    (log.say logger level name values).2.printed = log.printed ++
      if n ≤ level.number ∧ e.writable = true then [e] else [] := by
  intro e
  have hlevel : e.level = level := rfl
  obtain ⟨log', hsay, -, hprinted⟩ := say_alone log logger level name values
  have hreached : e.isPrinted n = decide (n ≤ level.number ∧ e.writable = true) := by
    simp [Event.isPrinted, hlevel]
  rw [hsay, hprinted, h.thresholdFor_eq, List.filter_singleton, hreached]
  by_cases hn : n ≤ level.number ∧ e.writable = true <;> simp [hn, e]

lemma alike_require (log : Log) (plan limit used : Value) :
    Alike log (Tables.shipped.require plan limit used log).2 := by
  have hkeeps := keeps_way (log.behind []) (requiring plan limit used)
  rw [requiring_behind] at hkeeps
  exact hkeeps.alike

mutual

/-- **One step** that does not set the level leaves the threshold to every logger. -/
lemma GoesBy.after_step (s : Step) {st : State} (h : st.log.GoesBy n) (hs : s.setsLevel = false) :
    (runStep st s).1.log.GoesBy n := by
  cases s with
  | configure level => cases hs
  | log level name values =>
    have hwritten := h.alike (alike_say st.log .common level name values)
    exact ⟨hwritten.common, hwritten.quota⟩
  | block values steps =>
    -- a block changes what is bound and nothing else
    have hentered : ({ st with log := (st.log.enter values).1 } : State).log.GoesBy n :=
      ⟨h.common, h.quota⟩
    have hinside := GoesBy.after_steps steps hentered hs
    exact ⟨hinside.common, hinside.quota⟩
  | raise message => exact h
  | enter id values => exact ⟨h.common, h.quota⟩
  | exit id => exact ⟨h.common, h.quota⟩
  | require plan limit used =>
    have hrequired := h.alike (alike_require st.log plan limit used)
    exact ⟨hrequired.common, hrequired.quota⟩

lemma GoesBy.after_steps (ss : List Step) {st : State} (h : st.log.GoesBy n)
    (hss : anySetsLevel ss = false) : (runSteps st ss).1.log.GoesBy n := by
  cases ss with
  | nil => exact h
  | cons s ss =>
    obtain ⟨hs, hss⟩ := Bool.or_eq_false_iff.1 hss
    have hnext := GoesBy.after_step s h hs
    rw [runSteps]
    rcases hrun : runStep st s with ⟨st', recs, _ | m⟩
    · rw [hrun] at hnext
      exact GoesBy.after_steps ss hnext hss
    · rw [hrun] at hnext
      exact hnext

end

/-! ### What follows a text -/

lemma State.configure_text (st : State) (s : String) :
    st.configure (some (.text s)) =
      ((st.log.configure (.text s)).1, { st with log := (st.log.configure (.text s)).2 }) := rfl

variable {st : State} {x : Settings} {e : Error} {session : Settings.Session}

lemma State.configure_of_get (h : st.session.get = (.ok x, session)) :
    st.configure none = { st with session := session }.configure (some (.text x.logLevel)) := by
  simp only [configure, levelFor, levelFor.fromSettings, h, Except.map]

lemma State.configure_of_get_error (h : st.session.get = (.error e, session)) :
    st.configure none = (.error e, { st with session := session }) := by
  simp only [configure, levelFor, levelFor.fromSettings, h, Except.map]

lemma get_logLevel (level : String) : ∃ x,
    (Settings.Session.mk [("log_level", level)] none none).get =
      (.ok x, ⟨[("log_level", level)], none, some x⟩) ∧ x.logLevel = level := by
  obtain ⟨x, hload, hlevel⟩ := Settings.load_logLevel level
  have hmake : (Settings.Session.mk [("log_level", level)] none none).make [] = .ok x := hload
  exact ⟨x, by simp only [Settings.Session.get, hmake], hlevel⟩

/-- **The level that a text sets**: before the quota log is used, a text is refused exactly if it is
one of two names, and then nothing is set; any other sets the level that it asks for, and from then
on, whatever steps are taken that set no level, a call to any logger is printed exactly if it is at
that level or above and can be written out. The level of the settings is taken if there is none, and
their error if there are no settings. -/
theorem text_sets_level (st : State) (hfirst : st.log.quotaThreshold = none) (s : String) :
    ((st.configure (some (.text s))).1 = .ok () ↔ ∀ m : Misnomer, Text.uppered s ≠ m.name) ∧
      (∀ m : Misnomer, Text.uppered s = m.name → st.configure (some (.text s)) =
        (.error (.misnomer m !st.log.ready), { st with log := { st.log with ready := true } })) ∧
      (∀ st', st.configure (some (.text s)) = (.ok (), st') →
        ∀ steps, anySetsLevel steps = false → ∀ logger level name values,
          let log := (runSteps st' steps).1.log
          let e := Event.make level name log.context values
          (log.say logger level name values).2.printed = log.printed ++
            if Level.asked s ≤ level.number ∧ e.writable = true then [e] else []) ∧
      (∀ x session, st.session.get = (.ok x, session) →
        st.configure none = { st with session := session }.configure (some (.text x.logLevel))) ∧
      ∀ e session, st.session.get = (.error e, session) →
        st.configure none = (.error e, { st with session := session }) := by
  have hnamed (m : Misnomer) (h : Text.uppered s = m.name) : st.configure (some (.text s)) =
      (.error (.misnomer m !st.log.ready), { st with log := { st.log with ready := true } }) := by
    rw [State.configure_text, configure_of_eq h]
  have hother (h : ∀ m : Misnomer, Text.uppered s ≠ m.name) : st.configure (some (.text s)) =
      (.ok (), { st with log := { st.log with threshold := Level.asked s, ready := true } }) := by
    rw [State.configure_text, configure_of_ne h]
  have hiff : (st.configure (some (.text s))).1 = .ok () ↔
      ∀ m : Misnomer, Text.uppered s ≠ m.name := by
    constructor
    · intro hok m hm
      rw [hnamed m hm] at hok
      cases hok
    · intro h
      rw [hother h]
  refine ⟨hiff, hnamed, fun st' hst' steps hsteps logger level name values => ?_,
    fun x session => State.configure_of_get, fun e session => State.configure_of_get_error⟩
  rw [hother (hiff.1 (congrArg Prod.fst hst'))] at hst'
  obtain rfl := (Prod.mk.inj hst').2
  -- as long as the quota log was not used it goes by the threshold that was just set
  have hset : GoesBy (Level.asked s) { st.log with threshold := Level.asked s, ready := true } := by
    refine ⟨rfl, ?_⟩
    rw [quotaLevel, hfirst]
    rfl
  exact (hset.after_steps steps hsteps).printed_say logger level name values

theorem warning_with_dotless_letter :
    let st : State := ⟨⟨[("log_level", "Warnıng")], none, none⟩, fresh, []⟩
    let steps : List Step := [.enter "a" [("owner", .text "ada")],
      .block [("plan", .text "PRO")] [.log .info "looked" [], .raise "stop"],
      .require (.plan .enterprise) (.limit .scansPerDay) (.int 3)]
    ∃ st', st.configure none = (.ok (), st') ∧
      let log := (runSteps st' steps).1.log
      (log.say .quota .info "limited" []).2.printed = [] ∧
        (log.say .common .error "lost" []).2.printed =
          [⟨.error, "lost", [("owner", .text "ada")]⟩] := by
  intro st steps
  have hasked : Level.asked "Warnıng" = 30 := by decide
  obtain ⟨x, hget, hlevel⟩ := get_logLevel "Warnıng"
  let session : Settings.Session := ⟨[("log_level", "Warnıng")], none, some x⟩
  have hset := (text_sets_level st rfl "Warnıng").2.2.2.1 x session hget
  let st' : State := ⟨session, ⟨30, true, none, [], []⟩, []⟩
  have hst' : State.configure ⟨session, fresh, []⟩ (some (.text "Warnıng")) = (.ok (), st') := by
    rw [State.configure_text, configure_of_ne (fun m => by cases m <;> decide), hasked]
    rfl
  have hlog : (runSteps st' steps).1.log = ⟨30, true, none, [("owner", .text "ada")], []⟩ := rfl
  have hprinted :=
    (text_sets_level ⟨session, fresh, []⟩ rfl "Warnıng").2.2.1 st' hst' steps rfl
  rw [hasked, hlog] at hprinted
  refine ⟨st', by rw [hset, hlevel, hst'], ?_⟩
  rw [hlog]
  exact ⟨hprinted .quota .info "limited" [], hprinted .common .error "lost" []⟩

/-- The name of the format of lines is no level, in whatever case: it is refused as the first level
and as a later one, and where it is in the environment the settings give no level either. -/
theorem format_name_sets_no_level :
    let session : Settings.Session := ⟨[("log_level", "basic_format")], none, none⟩
    (fresh.configure (.text "basic_format")).1 = .error (.misnomer .format true) ∧
      ((fresh.configure (.text "NOTSET")).2.configure (.text "basic_format")).1 =
        .error (.misnomer .format false) ∧
      (State.configure ⟨session, fresh, []⟩ none).1 = .error (.misnomer .format true) ∧
      (Error.misnomer .format true).message =
        "Unknown level: '%(levelname)s:%(name)s:%(message)s'" := by
  intro session
  have hname : Text.uppered "basic_format" = Misnomer.format.name := by decide
  have hrefused (log : Log) : (log.configure (.text "basic_format")).1 =
      .error (.misnomer .format !log.ready) := by
    rw [configure_of_eq hname]
  obtain ⟨x, hget, hlevel⟩ := get_logLevel "basic_format"
  refine ⟨hrefused fresh, hrefused _, ?_, by decide⟩
  rw [State.configure_of_get hget, hlevel]
  exact hrefused fresh

end Log

end Entitlement
