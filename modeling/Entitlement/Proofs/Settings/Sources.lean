import Entitlement.Proofs.Settings
import Entitlement.Proofs.Settings.EnvFile
import Mathlib.Tactic.Choose

/-!
Which source decides a setting.

Each of the settings is decided for itself, by the first source that has its name: by the first
keyword, by the variable or by the entry of the file whose spelling came up last, or else by its
default. What stands behind that source, or under other names, plays no part, unless a value of the
file refers to it. The settings are loaded if each is acceptable, and otherwise all are told that
are not, in their order.
-/

namespace Entitlement

lemma SettingName.mem_all (name : SettingName) : name ∈ all :=
  List.mem_of_find?_eq_some name.find?_key

lemma SettingName.nodup_all : all.Nodup := by decide

/-- A setting, of one of the types that settings have. -/
inductive Setting where
  | text (s : String)
  | whole (n : Int)
  | real (x : Binary64)
  deriving DecidableEq, Repr

namespace Settings

def field (s : Settings) : SettingName → Setting
  | .logLevel => .text s.logLevel
  | .storeUrl => .text s.storeUrl
  | .ttlDays => .whole s.ttlDays
  | .price p => .real (s.price p)

def accept : SettingName → Value → Except Problem Setting
  | .logLevel, v => (acceptText v).map .text
  | .storeUrl, v => (acceptText v).map .text
  | .ttlDays, v => (acceptWhole v).map .whole
  | .price _, v => (acceptReal v).map .real

def defaultFor : SettingName → Setting
  | .logLevel => .text defaultLogLevel
  | .storeUrl => .text defaultStoreUrl
  | .ttlDays => .whole defaultTtlDays
  | .price p => .real (.ofInt (defaultPrice p))

/-- What settings are loaded from: keywords, variables that were set one after the other, and the
environment file, if there is one. -/
structure Given where
  keywords : List (String × Value)
  environment : List (String × String)
  file : Option String

namespace Given

def sources (g : Given) : Sources := ⟨g.keywords, Assoc.putAll [] g.environment, g.file⟩

def lines (g : Given) : List EnvFile.Entry :=
  match g.file with
  | some f => EnvFile.linesIn f
  | none => []

end Given

def under {α : Type} (name : SettingName) (entries : List (String × α)) : List (String × α) :=
  Assoc.only (fun n => Text.lowered n == name.key) entries

/-- What is selected for a setting: a value, or nothing, which leaves the default. -/
inductive Given.Supplies (g : Given) (name : SettingName) : Option Value → Prop where
  | keyword {n : String} {v : Value} {others : List (String × Value)}
      (h : under name g.keywords = (n, v) :: others) : g.Supplies name (some v)
  | environment {n v : String} {others : List (String × String)}
      (hkeyword : under name g.keywords = [])
      (h : Assoc.putAll [] (under name g.environment) = others ++ [(n, v)]) :
      g.Supplies name (some (.text v))
  | file {n v : String} {others : List EnvFile.Entry}
      (hkeyword : under name g.keywords = []) (hvariable : under name g.environment = [])
      (h : under name g.sources.fileEntries = others ++ [(n, some v)]) :
      g.Supplies name (some (.text v))
  | nowhere (hkeyword : under name g.keywords = []) (hvariable : under name g.environment = [])
      (h : ∀ others n v, under name g.sources.fileEntries ≠ others ++ [(n, some v)]) :
      g.Supplies name none

def Given.outcome (g : Given) (name : SettingName) : Except Problem Setting :=
  chosen (accept name) (defaultFor name) (g.sources.select name)

/-- The first source that has a setting has the same for it in both, and if it is the file, so has
all that its values refer to. -/
inductive Given.Agrees (name : SettingName) (g g' : Given) : Prop where
  | keyword (h : under name g.keywords ≠ [])
      (heq : under name g'.keywords = under name g.keywords)
  | environment (hkeyword : under name g.keywords = []) (hkeyword' : under name g'.keywords = [])
      (h : under name g.environment ≠ [])
      (heq : under name g'.environment = under name g.environment)
  | file (hkeyword : under name g.keywords = []) (hkeyword' : under name g'.keywords = [])
      (hvariable : under name g.environment = []) (hvariable' : under name g'.environment = [])
      (keep : String → Bool) (hname : ∀ n, Text.lowered n = name.key → keep n)
      (hclosed : EnvFile.Closed keep g.lines)
      (hvariables : Assoc.only keep g'.environment = Assoc.only keep g.environment)
      (hlines : Assoc.only keep g'.lines = Assoc.only keep g.lines)

/-- What is said of settings that were loaded, or were not. -/
structure Given.Resolves (g : Given) (r : Except Error Settings) : Prop where
  supplied : ∀ name, ∃ o, g.Supplies name o
  selected : ∀ name o, g.Supplies name o →
    g.outcome name = chosen (accept name) (defaultFor name) o
  /-- Lines that refer to nothing count as they stand. -/
  plain : ∀ name, (∀ e ∈ under name g.lines, ∀ v, e.2 = some v → EnvFile.references v = []) →
    under name g.sources.fileEntries = Assoc.putAll [] (under name g.lines)
  /-- All that is given otherwise has no effect. -/
  alone : ∀ name g', g.Agrees name g' → g'.outcome name = g.outcome name
  loaded : ∀ s, r = .ok s ↔ ∀ name, g.outcome name = .ok (s.field name)
  succeeds : (∃ s, r = .ok s) ↔ ∀ name, ∃ x, g.outcome name = .ok x
  fails : ∀ e, r = .error e → ∃ ps, e = .invalidSettings ps ∧
    (ps.map (·.1)).Sublist SettingName.all ∧ (ps.map (·.1)).Nodup ∧
    ∀ name p, (name, p) ∈ ps ↔ g.outcome name = .error p

variable {g g' : Given} {name : SettingName} {src : Sources}

/-! ### What is selected -/

lemma firstNamed_eq {α : Type} (entries : List (String × α)) :
    firstNamed entries name.key = (under name entries).head?.map (·.2) := by
  rw [firstNamed, under, Assoc.only, List.head?_filter]

lemma lastNamed_eq {α : Type} (entries : List (String × α)) :
    lastNamed entries name.key = (under name entries).getLast?.map (·.2) := rfl

lemma under_putAll {α : Type} (entries : List (String × α)) :
    under name (Assoc.putAll [] entries) = Assoc.putAll [] (under name entries) :=
  Assoc.only_putAll [] entries

lemma select_eq : g.sources.select name =
    ((under name g.keywords).head?.map (·.2)).or
      ((((Assoc.putAll [] (under name g.environment)).getLast?.map (·.2)).or
        ((under name g.sources.fileEntries).getLast?.map (·.2)).join).map .text) := by
  rw [Sources.select, firstNamed_eq, lastNamed_eq, lastNamed_eq, ← under_putAll]
  rfl

lemma getLast?_map_eq_some_iff {α β : Type} {entries : List (α × β)} {v : β} :
    entries.getLast?.map (·.2) = some v ↔ ∃ others n, entries = others ++ [(n, v)] := by
  simp only [Option.map_eq_some_iff, List.getLast?_eq_some_iff, Prod.exists]
  constructor
  · rintro ⟨n, v, ⟨others, h⟩, rfl⟩
    exact ⟨others, n, h⟩
  · rintro ⟨others, n, h⟩
    exact ⟨n, v, ⟨others, h⟩, rfl⟩

lemma supplies_select (g : Given) (name : SettingName) :
    g.Supplies name (g.sources.select name) := by
  rw [select_eq]
  cases hkeyword : under name g.keywords with
  | cons e others => exact .keyword hkeyword
  | nil =>
    cases hset : (Assoc.putAll [] (under name g.environment)).getLast?.map (·.2) with
    | some v =>
      obtain ⟨others, n, h⟩ := getLast?_map_eq_some_iff.1 hset
      exact .environment hkeyword h
    | none =>
      -- putting in loses no name
      have hvariable : under name g.environment = [] := by
        rw [Option.map_eq_none_iff, List.getLast?_eq_none_iff, Assoc.putAll_eq_nil_iff] at hset
        exact hset.2
      cases hfile : ((under name g.sources.fileEntries).getLast?.map (·.2)).join with
      | some v =>
        rw [Option.join_eq_some_iff] at hfile
        obtain ⟨others, n, h⟩ := getLast?_map_eq_some_iff.1 hfile
        exact .file hkeyword hvariable h
      | none =>
        refine .nowhere hkeyword hvariable fun others n v h => ?_
        rw [getLast?_map_eq_some_iff.2 ⟨others, n, h⟩] at hfile
        cases hfile

lemma Given.Supplies.eq_select {o : Option Value} (h : g.Supplies name o) :
    o = g.sources.select name := by
  rw [select_eq]
  cases h with
  | keyword h =>
    rw [h]
    rfl
  | environment hkeyword h =>
    rw [hkeyword, getLast?_map_eq_some_iff.2 ⟨_, _, h⟩]
    rfl
  | file hkeyword hvariable h =>
    rw [hkeyword, hvariable, getLast?_map_eq_some_iff.2 ⟨_, _, h⟩]
    rfl
  | nowhere hkeyword hvariable h =>
    rw [hkeyword, hvariable]
    cases hfile : ((under name g.sources.fileEntries).getLast?.map (·.2)).join with
    | none => rfl
    | some v =>
      rw [Option.join_eq_some_iff] at hfile
      obtain ⟨others, n, h'⟩ := getLast?_map_eq_some_iff.1 hfile
      exact absurd h' (h others n v)

/-! ### What the selection depends on -/

lemma fileEntries_eq (g : Given) :
    g.sources.fileEntries = EnvFile.resolve (Assoc.putAll [] g.environment) [] g.lines := by
  unfold Sources.fileEntries Given.lines
  cases h : g.file with
  | none => simp only [Given.sources, h, EnvFile.resolve, List.foldl_nil]
  | some f => simp only [Given.sources, h, EnvFile.parse_eq_resolve]

lemma under_only {α : Type} {keep : String → Bool}
    (hname : ∀ n, Text.lowered n = name.key → keep n) (entries : List (String × α)) :
    under name (Assoc.only keep entries) = under name entries := by
  unfold under Assoc.only
  rw [List.filter_filter]
  refine List.filter_congr fun e _ => ?_
  by_cases h : Text.lowered e.1 = name.key
  · simp [h, hname e.1 h]
  · simp [h]

/-- Of the file and the environment only that part counts which the entries of a setting refer
to. -/
lemma under_fileEntries {keep : String → Bool} (hname : ∀ n, Text.lowered n = name.key → keep n)
    (hclosed : EnvFile.Closed keep g.lines) :
    under name g.sources.fileEntries =
      under name (EnvFile.resolve (Assoc.putAll [] (Assoc.only keep g.environment)) []
        (Assoc.only keep g.lines)) := by
  rw [fileEntries_eq, ← under_only hname, EnvFile.only_resolve _ hclosed, Assoc.only_putAll,
    Assoc.only_nil, Assoc.only_nil]

lemma under_fileEntries_of_references
    (h : ∀ e ∈ under name g.lines, ∀ v, e.2 = some v → EnvFile.references v = []) :
    under name g.sources.fileEntries = Assoc.putAll [] (under name g.lines) := by
  have hclosed : EnvFile.Closed (fun n => Text.lowered n == name.key) g.lines := by
    intro e he v hv n hn
    rw [h e he v hv] at hn
    cases hn
  rw [fileEntries_eq, under, EnvFile.only_resolve _ hclosed, Assoc.only_nil]
  exact EnvFile.resolve_of_references _ h

lemma select_of_agrees (h : g.Agrees name g') :
    g'.sources.select name = g.sources.select name := by
  rw [select_eq, select_eq]
  cases h with
  | keyword h heq =>
    obtain ⟨e, others, h⟩ := List.exists_cons_of_ne_nil h
    simp only [heq, h, List.head?_cons, Option.map_some, Option.some_or]
  | environment hkeyword hkeyword' h heq =>
    have hset : Assoc.putAll [] (under name g.environment) ≠ [] :=
      fun hnil => h (Assoc.putAll_eq_nil_iff.1 hnil).2
    simp only [hkeyword, hkeyword', heq, List.getLast?_eq_some_getLast hset, Option.map_some,
      Option.some_or]
  | file hkeyword hkeyword' hvariable hvariable' keep hname hclosed hvariables hlines =>
    have hclosed' : EnvFile.Closed keep g'.lines := by
      unfold EnvFile.Closed
      rw [hlines]
      exact hclosed
    rw [hkeyword, hkeyword', hvariable, hvariable', under_fileEntries hname hclosed,
      under_fileEntries hname hclosed', hvariables, hlines]

/-! ### What is loaded -/

lemma chosen_map {α β : Type} (accept : Value → Except Problem α) (f : α → β) (a : α)
    (o : Option Value) :
    chosen (fun v => (accept v).map f) (f a) o = (chosen accept a o).map f := by
  cases o <;> rfl

lemma outcome_logLevel : g.outcome .logLevel = (logLevelOf g.sources).map .text :=
  chosen_map acceptText Setting.text _ _

lemma outcome_storeUrl : g.outcome .storeUrl = (storeUrlOf g.sources).map .text :=
  chosen_map acceptText Setting.text _ _

lemma outcome_ttlDays : g.outcome .ttlDays = (ttlDaysOf g.sources).map .whole :=
  chosen_map acceptWhole Setting.whole _ _

lemma outcome_price (p : Plan) : g.outcome (.price p) = (priceOf g.sources p).map .real :=
  chosen_map acceptReal Setting.real _ _

lemma exists_of_map {α β : Type} {f : α → β} {r : Except Problem α} {y : β}
    (h : r.map f = .ok y) : ∃ a, r = .ok a ∧ f a = y := by
  cases r with
  | error e => cases h
  | ok a => exact ⟨a, rfl, Except.ok.inj h⟩

lemma exists_load (h : ∀ name, ∃ x, g.outcome name = .ok x) : ∃ s, load g.sources = .ok s := by
  obtain ⟨level, hlevel⟩ := h .logLevel
  obtain ⟨url, hurl⟩ := h .storeUrl
  obtain ⟨days, hdays⟩ := h .ttlDays
  obtain ⟨level, hlevel, -⟩ := exists_of_map (outcome_logLevel.symm.trans hlevel)
  obtain ⟨url, hurl, -⟩ := exists_of_map (outcome_storeUrl.symm.trans hurl)
  obtain ⟨days, hdays, -⟩ := exists_of_map (outcome_ttlDays.symm.trans hdays)
  have hprice (p : Plan) : ∃ x, priceOf g.sources p = .ok x := by
    obtain ⟨x, hx⟩ := h (.price p)
    obtain ⟨x, hx, -⟩ := exists_of_map ((outcome_price p).symm.trans hx)
    exact ⟨x, hx⟩
  choose price hprice using hprice
  exact ⟨⟨level, url, days, price .starter, price .pro, price .business, price .enterprise⟩, by
    simp only [load, hlevel, hurl, hdays, hprice]⟩

lemma outcome_of_load {s : Settings} (h : load g.sources = .ok s) (name : SettingName) :
    g.outcome name = .ok (s.field name) := by
  unfold load at h
  split at h
  next level url days starter pro business enterprise h1 h2 h3 h4 h5 h6 h7 =>
    cases h
    cases name with
    | logLevel => rw [outcome_logLevel, h1]; rfl
    | storeUrl => rw [outcome_storeUrl, h2]; rfl
    | ttlDays => rw [outcome_ttlDays, h3]; rfl
    | price p =>
      rw [outcome_price]
      cases p with
      | starter => rw [h4]; rfl
      | pro => rw [h5]; rfl
      | business => rw [h6]; rfl
      | enterprise => rw [h7]; rfl
  next => cases h

lemma eq_of_field {s s' : Settings} (h : ∀ name, s.field name = s'.field name) : s = s' := by
  have hprice (p : Plan) : s.price p = s'.price p := Setting.real.inj (h (.price p))
  calc s = ⟨s.logLevel, s.storeUrl, s.ttlDays, s.price .starter, s.price .pro, s.price .business,
          s.price .enterprise⟩ := rfl
    _ = s' := by
      rw [Setting.text.inj (h .logLevel), Setting.text.inj (h .storeUrl),
        Setting.whole.inj (h .ttlDays), hprice, hprice, hprice, hprice]
      rfl

lemma load_eq_ok_iff {s : Settings} :
    load g.sources = .ok s ↔ ∀ name, g.outcome name = .ok (s.field name) := by
  refine ⟨outcome_of_load, fun h => ?_⟩
  obtain ⟨s', hs'⟩ := exists_load fun name => ⟨_, h name⟩
  have hfield (name : SettingName) : s'.field name = s.field name :=
    Except.ok.inj ((outcome_of_load hs' name).symm.trans (h name))
  rw [hs', eq_of_field hfield]

lemma problem?_eq_some_iff {p : Problem} :
    problem? g.sources name = some p ↔ g.outcome name = .error p := by
  have hmap {α : Type} (f : α → Setting) (r : Except Problem α) :
      failure r = some p ↔ r.map f = .error p := by
    cases r <;> simp [failure, Except.map]
  cases name with
  | logLevel => rw [outcome_logLevel, ← hmap, problem?]
  | storeUrl => rw [outcome_storeUrl, ← hmap, problem?]
  | ttlDays => rw [outcome_ttlDays, ← hmap, problem?]
  | price p => rw [outcome_price, ← hmap, problem?]

lemma mem_problems_iff {p : Problem} :
    (name, p) ∈ problems g.sources ↔ g.outcome name = .error p := by
  rw [← problem?_eq_some_iff, problems, List.mem_filterMap]
  constructor
  · rintro ⟨other, -, h⟩
    obtain ⟨q, hq, heq⟩ := Option.map_eq_some_iff.1 h
    cases heq
    exact hq
  · intro h
    exact ⟨name, name.mem_all, by rw [h]; rfl⟩

lemma problems_sublist (src : Sources) : ((problems src).map (·.1)).Sublist SettingName.all := by
  unfold problems
  generalize SettingName.all = names
  induction names with
  | nil => exact List.Sublist.slnil
  | cons name names ih =>
    cases h : problem? src name with
    | none => simpa [h] using ih.cons name
    | some p => simpa [h] using ih

/-- **Settings are loaded field by field.** Each is decided by the first source that supplies it,
and by nothing else. They are loaded if all of them are acceptable, and otherwise the error lists
those that are not, each once and in order. -/
theorem resolves_load (g : Given) : g.Resolves (load g.sources) where
  supplied name := ⟨_, supplies_select g name⟩
  selected name o h := by rw [Given.outcome, ← h.eq_select]
  plain _ h := under_fileEntries_of_references h
  alone name g' h := by rw [Given.outcome, Given.outcome, select_of_agrees h]
  loaded s := load_eq_ok_iff
  succeeds := ⟨fun ⟨s, h⟩ name => ⟨_, outcome_of_load h name⟩, exists_load⟩
  fails e h := by
    have he : e = .invalidSettings (problems g.sources) := by
      unfold load at h
      split at h
      · cases h
      · cases h
        rfl
    have hsublist := problems_sublist g.sources
    exact ⟨_, he, hsublist, hsublist.nodup SettingName.nodup_all, fun _ _ => mem_problems_iff⟩

/-- A price from the environment, whatever the file says of it. A level that is no text is told of,
and not that there is a price in the file that is no number. -/
theorem variable_before_file :
    let g' : Given := ⟨[("log_level", .int 1)], [("E", "x"), ("plan_price_pro", "12")],
      some "PLAN_PRICE_PRO=bad"⟩
    (g'.outcome (.price .pro)).toOption = some (.real (.ofInt 12)) ∧
      ∃ ps, load g'.sources = .error (.invalidSettings ps) ∧ (.logLevel, .notText) ∈ ps ∧
        ∀ p, (.price .pro, p) ∉ ps := by
  intro g'
  let g : Given := ⟨[], [("plan_price_pro", "12")], none⟩
  have hprice : (g'.outcome (.price .pro)).toOption = some (.real (.ofInt 12)) := by
    rw [(resolves_load g).alone (.price .pro) g' (.environment (by decide +kernel)
      (by decide +kernel) (by decide +kernel) (by decide +kernel))]
    decide +kernel
  have hunder : under .logLevel g'.keywords = [("log_level", .int 1)] :=
    (Assoc.only_cons _ _).trans (if_pos (beq_iff_eq.2 (SettingName.lowered_key .logLevel)))
  have hlevel : g'.outcome .logLevel = .error .notText :=
    (resolves_load g').selected .logLevel _ (.keyword hunder)
  refine ⟨hprice, ?_⟩
  cases hload : load g'.sources with
  | ok s =>
    have hs := ((resolves_load g').loaded s).1 hload .logLevel
    rw [hlevel] at hs
    cases hs
  | error e =>
    obtain ⟨ps, rfl, -, -, hps⟩ := (resolves_load g').fails e hload
    refine ⟨ps, rfl, (hps _ _).2 hlevel, fun p hp => ?_⟩
    rw [(hps _ _).1 hp] at hprice
    cases hprice

/-- A price by a variable of another name, which the file refers to; by the spelling that came up
last, though another was set later; and by a keyword in another case. -/
theorem price_by_other_entries :
    let price (g : Given) := (load g.sources).toOption.map Settings.pricePro
    let file := some "PLAN_PRICE_PRO=$\x7bE\x7d\nE=2\n"
    (price ⟨[], [("E", "3")], file⟩ = some (.ofInt 3) ∧
        price ⟨[], [("E", "4")], file⟩ = some (.ofInt 4)) ∧
      price ⟨[], [("PLAN_PRICE_PRO", "1"), ("plan_price_pro", "2"), ("PLAN_PRICE_PRO", "3")],
        none⟩ = some (.ofInt 2) ∧
      price ⟨[("Plan_Price_Pro", .int 5)], [], none⟩ = some (.ofInt 5) := by
  decide +kernel

end Settings

end Entitlement
