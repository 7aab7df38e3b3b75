import Entitlement.Naming

/-!
Which features a plan offers, and what to tell someone whose plan does not.
-/

namespace Entitlement

namespace Plan

/-- Each plan has all that the plan before it has. -/
def features : Plan → List Feature
  | starter => [.reporting]
  | pro => proFeatures
  | business => businessFeatures
  | enterprise => businessFeatures ++ [.prioritySupport]
where
  proFeatures : List Feature :=
    [.advancedScan, .historicalScan, .scheduledScans, .apiAccess, .reporting, .exportReports,
      .teamManagement]
  businessFeatures : List Feature :=
    proFeatures ++ [.customRules, .ssoLogin, .roleCustomization, .auditLog]

def has (p : Plan) (f : Feature) : Bool := p.features.contains f

def featuresOf (plan : Value) : Except Error (List Feature) := (ofValue plan).map features

end Plan

/-- Whether a plan has a feature. The feature is resolved first. -/
def offers (plan feature : Value) : Except Error Bool := do
  let f ← Feature.ofValue feature
  let p ← Plan.ofValue plan
  return p.has f

/-- Whether a plan has all of several features, or any of them. Every feature is resolved
before the answer is decided. -/
def offersMany (plan features requireAll : Value) : Except Error Bool := do
  let p ← Plan.ofValue plan
  match features.elements? with
  | none => throw (.notIterable features)
  | some vs =>
    let fs ← vs.mapM Feature.ofValue
    return if requireAll.truthy then fs.all p.has else fs.any p.has

/-- The prompt for a feature or limit, given as a member or by wire name. -/
def promptFor (key : Value) : Except Error String :=
  if !key.hashable then .error (.notHashable key)
  else
    match key.text? with
    | none => .ok defaultPrompt
    | some s =>
      match Feature.ofWire? s, Limit.ofWire? s with
      | some f, _ => .ok (f.prompt?.getD defaultPrompt)
      | none, some l => .ok l.prompt
      | none, none => .ok defaultPrompt

end Entitlement
