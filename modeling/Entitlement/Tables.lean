import Entitlement.Naming
import Entitlement.Text.Set

/-!
What each plan permits and how much of it: the permission and limit tables.
-/

namespace Entitlement

structure Limits (α : Type) where
  scansPerDay : α
  maxWorkspaces : α
  maxUsersPerWorkspace : α
  retentionDays : α
  deriving DecidableEq, Repr

def Limits.get {α : Type} (r : Limits α) : Limit → α
  | .scansPerDay => r.scansPerDay
  | .maxWorkspaces => r.maxWorkspaces
  | .maxUsersPerWorkspace => r.maxUsersPerWorkspace
  | .retentionDays => r.retentionDays

def Limits.map {α β : Type} (f : α → β) (r : Limits α) : Limits β :=
  ⟨f r.scansPerDay, f r.maxWorkspaces, f r.maxUsersPerWorkspace, f r.retentionDays⟩

@[simp] theorem Limits.get_map {α β : Type} (f : α → β) (r : Limits α) (l : Limit) :
    (r.map f).get l = f (r.get l) := by
  cases l <;> rfl

def Limits.byWire {α : Type} (r : Limits α) : List (String × α) :=
  Limit.all.map fun l => (l.wire, r.get l)

structure Tables where
  permissions : Plan → List String
  limits : Plan → Limits Whole

namespace Tables

def starterPermissions : List String :=
  ["SCAN:VIEW", "REPORT:VIEW", "WORKSPACE:VIEW", "SCAN:CREATE:BASIC", "SCAN:RUN",
    "REPOSITORY:VIEW", "SCHEDULE:VIEW"]

def proPermissions : List String :=
  ["SCAN:VIEW", "REPORT:VIEW", "WORKSPACE:VIEW", "SCAN:CREATE:BASIC", "SCAN:RUN",
    "WORKSPACE:EDIT", "REPOSITORY:VIEW", "REPOSITORY:ADD", "SCHEDULE:VIEW", "SCHEDULE:CREATE",
    "REPORT:EXPORT"]

def businessPermissions : List String :=
  ["SCAN:VIEW", "REPORT:VIEW", "WORKSPACE:VIEW", "SCAN:CREATE:BASIC", "SCAN:CREATE:ADVANCED",
    "SCAN:RUN", "WORKSPACE:EDIT", "WORKSPACE:MANAGE_USERS", "REPOSITORY:VIEW", "REPOSITORY:ADD",
    "SCHEDULE:VIEW", "SCHEDULE:CREATE", "SCHEDULE:EDIT", "REPORT:EXPORT", "REPORT:SHARE"]

def enterprisePermissions : List String :=
  ["SCAN:VIEW", "REPORT:VIEW", "WORKSPACE:VIEW", "SCAN:CREATE:BASIC", "SCAN:CREATE:ADVANCED",
    "SCAN:RUN", "WORKSPACE:EDIT", "WORKSPACE:MANAGE_USERS", "REPOSITORY:VIEW", "REPOSITORY:ADD",
    "SCHEDULE:VIEW", "SCHEDULE:CREATE", "SCHEDULE:EDIT", "REPORT:EXPORT", "REPORT:SHARE",
    "API:USE", "BILLING:VIEW"]

def shipped : Tables where
  permissions
    | .starter => starterPermissions
    | .pro => proPermissions
    | .business => businessPermissions
    | .enterprise => enterprisePermissions
  limits
    | .starter => ⟨.int 3, .int 1, .int 3, .int 30⟩
    | .pro => ⟨.int 10, .int 3, .int 10, .int 90⟩
    | .business => ⟨.int 30, .int 10, .int 25, .int 180⟩
    | .enterprise => ⟨.int unlimited, .int unlimited, .int unlimited, .int 365⟩

def withPermissions (t : Tables) (p : Plan) (ps : List String) : Tables :=
  { t with permissions := fun q => if q = p then ps else t.permissions q }

def withLimits (t : Tables) (p : Plan) (r : Limits Whole) : Tables :=
  { t with limits := fun q => if q = p then r else t.limits q }

def permissionsOf (t : Tables) (plan : Value) : Except Error (List String) :=
  (Plan.ofValue plan).map t.permissions

def limitsOf (t : Tables) (plan : Value) : Except Error (Limits Whole) :=
  (Plan.ofValue plan).map t.limits

def limitOf (t : Tables) (plan limit : Value) : Except Error Whole := do
  let r ← t.limitsOf plan
  let l ← Limit.ofValue limit
  return r.get l

/-- What a plan permits, as a set to look permissions up in. -/
def permissionSet (t : Tables) (p : Plan) : TextSet := .ofList (t.permissions p)

/-- Whether a plan grants a permission. Matching is exact. -/
def grants (t : Tables) (plan permission : Value) : Except Error Bool := do
  let p ← Plan.ofValue plan
  if !permission.hashable then throw (.notHashable permission)
  match permission.text? with
  | some s => return (t.permissionSet p).contains s
  | none => return false

end Tables

/-- Whether a value is the mark of an unlimited limit, in any spelling. -/
def marksUnlimited (v : Value) : Bool :=
  match v with
  | .number n => n.same (.int unlimited)
  | _ => false

end Entitlement
