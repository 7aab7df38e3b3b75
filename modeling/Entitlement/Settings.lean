import Entitlement.Error
import Entitlement.Settings.Accept
import Entitlement.Settings.EnvFile
import Entitlement.Text.Case

/-!
Settings, drawn field by field from several sources.

A setting given by keyword wins, then one from the environment, then one from the environment
file; what is left has its default. Names are compared in lower case. Of equal names the first
keyword counts, and the last entry of the environment or the file.
-/

namespace Entitlement

structure Settings where
  logLevel : String
  storeUrl : String
  ttlDays : Int
  priceStarter : Binary64
  pricePro : Binary64
  priceBusiness : Binary64
  priceEnterprise : Binary64
  deriving DecidableEq, Repr

namespace Settings

def price (s : Settings) : Plan → Binary64
  | .starter => s.priceStarter
  | .pro => s.pricePro
  | .business => s.priceBusiness
  | .enterprise => s.priceEnterprise

structure Sources where
  keywords : List (String × Value)
  environment : List (String × String)
  /-- The environment file, if there is one. -/
  file : Option String

/-- What was given first under a name, compared in lower case. -/
def firstNamed {α : Type} (entries : List (String × α)) (key : String) : Option α :=
  (entries.find? fun e => Text.lowered e.1 == key).map (·.2)

/-- What was given last under a name, compared in lower case. -/
def lastNamed {α : Type} (entries : List (String × α)) (key : String) : Option α :=
  ((entries.filter fun e => Text.lowered e.1 == key).getLast?).map (·.2)

def Sources.fileEntries (src : Sources) : List EnvFile.Entry :=
  match src.file with
  | some f => EnvFile.parse src.environment f
  | none => []

/-- The value for a setting from the first source that has one. -/
def Sources.select (src : Sources) (name : SettingName) : Option Value :=
  (firstNamed src.keywords name.key).or
    (((lastNamed src.environment name.key).or (lastNamed src.fileEntries name.key).join).map
      .text)

def defaultLogLevel : String := "INFO"
def defaultStoreUrl : String := "redis://localhost:6379/0"
def defaultTtlDays : Int := 7

def defaultPrice : Plan → Int
  | .starter => 0
  | .pro => 49
  | .business => 99
  | .enterprise => 299

def chosen {α : Type} (accept : Value → Except Problem α) (default : α) (v : Option Value) :
    Except Problem α :=
  match v with
  | some v => accept v
  | none => .ok default

def logLevelOf (src : Sources) : Except Problem String :=
  chosen acceptText defaultLogLevel (src.select .logLevel)

def storeUrlOf (src : Sources) : Except Problem String :=
  chosen acceptText defaultStoreUrl (src.select .storeUrl)

def ttlDaysOf (src : Sources) : Except Problem Int :=
  chosen acceptWhole defaultTtlDays (src.select .ttlDays)

def priceOf (src : Sources) (p : Plan) : Except Problem Binary64 :=
  chosen acceptReal (Binary64.ofInt (defaultPrice p)) (src.select (.price p))

def failure {α : Type} : Except Problem α → Option Problem
  | .ok _ => none
  | .error e => some e

/-- What is wrong with the value selected for a setting. -/
def problem? (src : Sources) : SettingName → Option Problem
  | .logLevel => failure (logLevelOf src)
  | .storeUrl => failure (storeUrlOf src)
  | .ttlDays => failure (ttlDaysOf src)
  | .price p => failure (priceOf src p)

def problems (src : Sources) : List (SettingName × Problem) :=
  SettingName.all.filterMap fun name => (problem? src name).map fun e => (name, e)

/-- The settings that the sources give. Either all are acceptable, or all problems are told. -/
def load (src : Sources) : Except Error Settings :=
  match logLevelOf src, storeUrlOf src, ttlDaysOf src, priceOf src .starter, priceOf src .pro,
    priceOf src .business, priceOf src .enterprise with
  | .ok level, .ok url, .ok days, .ok starter, .ok pro, .ok business, .ok enterprise =>
    .ok ⟨level, url, days, starter, pro, business, enterprise⟩
  | _, _, _, _, _, _, _ => .error (.invalidSettings (problems src))

end Settings

end Entitlement
