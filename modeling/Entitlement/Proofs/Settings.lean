import Entitlement.Settings
import Mathlib.Tactic.Lemma
import Mathlib.Logic.Function.Basic

/-!
Settings given by one keyword or one variable alone.

The names of settings are in lower case and differ, so a name reaches the setting that it stands
for and no other. Any integer is let through as the number of days that counters are kept, and any
text as the level of the log.
-/

namespace Entitlement

lemma Text.toList_lowered (s : String) : (Text.lowered s).toList = s.toList.map Text.lower := by
  simp [Text.lowered]

namespace SettingName

lemma lowered_key (name : SettingName) : Text.lowered name.key = name.key := by
  rw [← String.toList_inj, Text.toList_lowered]
  cases name with
  | price p => cases p <;> decide
  | _ => decide

lemma find?_key (name : SettingName) : all.find? (fun m => m.key == name.key) = some name := by
  cases name with
  | price p => cases p <;> decide
  | _ => decide

lemma key_injective : Function.Injective key := by
  intro a b h
  have ha := find?_key a
  rw [h, find?_key b] at ha
  exact (Option.some.inj ha).symm

lemma lowered_key_beq (name name' : SettingName) :
    (Text.lowered name.key == name'.key) = decide (name = name') := by
  rw [lowered_key]
  by_cases h : name = name'
  · simp [h]
  · simp [h, key_injective.ne h]

end SettingName

namespace Settings

lemma select_keyword (name name' : SettingName) (v : Value) :
    (Sources.mk [(name.key, v)] [] none).select name' = if name = name' then some v else none := by
  have hfirst : firstNamed [(name.key, v)] name'.key = if name = name' then some v else none := by
    rw [firstNamed, List.find?_singleton, SettingName.lowered_key_beq]
    by_cases h : name = name' <;> simp [h]
  simp only [Sources.select, hfirst, Sources.fileEntries, lastNamed, List.filter_nil,
    List.getLast?_nil, Option.map_none, Option.join_none, Option.or_none]

lemma select_variable (name name' : SettingName) (value : String) :
    (Sources.mk [] [(name.key, value)] none).select name' =
      if name = name' then some (.text value) else none := by
  have hlast : lastNamed [(name.key, value)] name'.key =
      if name = name' then some value else none := by
    rw [lastNamed, List.filter_cons, SettingName.lowered_key_beq]
    by_cases h : name = name' <;> simp [h]
  rw [Sources.select, hlast]
  by_cases h : name = name' <;> simp [h, Sources.fileEntries, firstNamed, lastNamed]

lemma load_of_select {src : Sources} {v : Value}
    (h : ∀ name, src.select name = if .ttlDays = name then some v else none) :
    load src =
      match acceptWhole v with
      | .ok days =>
        .ok ⟨defaultLogLevel, defaultStoreUrl, days, .ofInt (defaultPrice .starter),
          .ofInt (defaultPrice .pro), .ofInt (defaultPrice .business),
          .ofInt (defaultPrice .enterprise)⟩
      | .error e => .error (.invalidSettings [(.ttlDays, e)]) := by
  have hprice (p : Plan) : priceOf src p = .ok (.ofInt (defaultPrice p)) :=
    congrArg (chosen _ _) (h (.price p))
  have hlevel : logLevelOf src = .ok defaultLogLevel := congrArg (chosen _ _) (h .logLevel)
  have hurl : storeUrlOf src = .ok defaultStoreUrl := congrArg (chosen _ _) (h .storeUrl)
  have hdays : ttlDaysOf src = acceptWhole v := congrArg (chosen _ _) (h .ttlDays)
  simp only [load, problems, hlevel, hurl, hdays, hprice]
  cases haccept : acceptWhole v with
  | ok days => rfl
  | error e =>
    simp [SettingName.all, Plan.all, problem?, failure, hlevel, hurl, hdays, hprice, haccept]

theorem load_ttlDays (d : Int) : ∃ s,
    load ⟨[("usage_key_ttl_days", .int d)], [], none⟩ = .ok s ∧ s.ttlDays = d :=
  ⟨_, load_of_select fun name => select_keyword .ttlDays name (.int d), rfl⟩

theorem load_logLevel (level : String) : ∃ s,
    load ⟨[], [("log_level", level)], none⟩ = .ok s ∧ s.logLevel = level := by
  have hselect (name : SettingName) := select_variable .logLevel name level
  have hlevel : logLevelOf ⟨[], [("log_level", level)], none⟩ = .ok level :=
    congrArg (chosen acceptText _) (hselect .logLevel)
  have hurl : storeUrlOf ⟨[], [("log_level", level)], none⟩ = .ok defaultStoreUrl :=
    congrArg (chosen acceptText _) (hselect .storeUrl)
  have hdays : ttlDaysOf ⟨[], [("log_level", level)], none⟩ = .ok defaultTtlDays :=
    congrArg (chosen acceptWhole _) (hselect .ttlDays)
  have hprice (p : Plan) : priceOf ⟨[], [("log_level", level)], none⟩ p =
      .ok (.ofInt (defaultPrice p)) :=
    congrArg (chosen acceptReal _) (hselect (.price p))
  simp only [load, hlevel, hurl, hdays, hprice]
  exact ⟨_, rfl, rfl⟩

end Settings

end Entitlement
