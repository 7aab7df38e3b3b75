import Entitlement.Plan

/-!
The settings, and what may be wrong with a value given for one.
-/

namespace Entitlement

inductive SettingName where
  | logLevel
  | storeUrl
  | ttlDays
  | price (p : Plan)
  deriving DecidableEq, Repr

namespace SettingName

def all : List SettingName := [logLevel, storeUrl, ttlDays] ++ Plan.all.map price

def key : SettingName → String
  | logLevel => "log_level"
  | storeUrl => "redis_url"
  | ttlDays => "usage_key_ttl_days"
  | price .starter => "plan_price_starter"
  | price .pro => "plan_price_pro"
  | price .business => "plan_price_business"
  | price .enterprise => "plan_price_enterprise"

end SettingName

/-- Why a value cannot be a setting of its type. -/
inductive Problem where
  | notText
  | notUnicode
  | notWhole
  | unreadableWhole
  | tooLarge
  | fractional
  | notFinite
  | notReal
  | unreadableReal
  deriving DecidableEq, Repr

def Problem.message : Problem → String
  | notText => "Input should be a valid string [string_type]"
  | notUnicode =>
    "Input should be a valid string, unable to parse raw data as a unicode string [string_unicode]"
  | notWhole => "Input should be a valid integer [int_type]"
  | unreadableWhole =>
    "Input should be a valid integer, unable to parse string as an integer [int_parsing]"
  | tooLarge =>
    "Unable to parse input string as an integer, exceeded maximum size [int_parsing_size]"
  | fractional =>
    "Input should be a valid integer, got a number with a fractional part [int_from_float]"
  | notFinite => "Input should be a finite number [finite_number]"
  | notReal => "Input should be a valid number [float_type]"
  | unreadableReal =>
    "Input should be a valid number, unable to parse string as a number [float_parsing]"

end Entitlement
