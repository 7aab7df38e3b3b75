import Entitlement.Offer
import Entitlement.Settings.Session
import Entitlement.Tables

/-!
What there is to say about a plan, and plans set side by side.
-/

namespace Entitlement

structure Overview where
  plan : Plan
  name : String
  description : String
  price : Binary64
  limits : List (Limit × Int)
  permissions : List String
  features : List Feature
  deriving DecidableEq, Repr

/-- The caps of a limit in two plans, and how far the second is above the first if neither is
unlimited. -/
structure LimitPair where
  first : Int
  second : Int
  difference : Option Int
  deriving DecidableEq, Repr

structure FeaturePair where
  first : Bool
  second : Bool
  deriving DecidableEq, Repr

structure Contrast where
  first : Overview
  second : Overview
  isUpgrade : Bool
  limits : List (Limit × LimitPair)
  features : List (Feature × FeaturePair)
  gained : List String
  lost : List String
  deriving DecidableEq, Repr

def pairLimits (a b : Int) : LimitPair :=
  ⟨a, b, if a = unlimited ∨ b = unlimited then none else some (b - a)⟩

/-- The permissions of the second list that the first does not have, in order. -/
def gainedFrom (ps qs : List String) : List String := qs.filter fun q => !ps.contains q

namespace Tables

def cap (t : Tables) (p : Plan) (l : Limit) : Int := ((t.limits p).get l).toInt

def overview (t : Tables) (s : Settings) (p : Plan) : Overview where
  plan := p
  name := p.display
  description := p.description
  price := s.price p
  limits := Limit.all.map fun l => (l, t.cap p l)
  permissions := t.permissions p
  features := Feature.all.filter p.has

def contrast (t : Tables) (s : Settings) (p q : Plan) : Contrast where
  first := t.overview s p
  second := t.overview s q
  isUpgrade := p.rank < q.rank
  limits := Limit.all.map fun l => (l, pairLimits (t.cap p l) (t.cap q l))
  features := Feature.all.map fun f => (f, ⟨p.has f, q.has f⟩)
  gained := gainedFrom (t.permissions p) (t.permissions q)
  lost := gainedFrom (t.permissions q) (t.permissions p)

end Tables

/-! Settings given with a call are used as they are; otherwise the session's are. -/

open Settings (Session)

def settingsOr (given : Option Settings) (s : Session) : Except Error Settings × Session :=
  match given with
  | some x => (.ok x, s)
  | none => s.get

/-- The price of a plan. The settings are needed first, then the plan. -/
def monthlyPrice (plan : Value) (given : Option Settings) (s : Session) :
    Except Error Binary64 × Session :=
  match settingsOr given s with
  | (.error e, s) => (.error e, s)
  | (.ok x, s) => ((Plan.ofValue plan).map x.price, s)

/-- The overview of a plan. The plan is resolved first, then the settings are needed. -/
def Tables.overviewOf (t : Tables) (plan : Value) (given : Option Settings) (s : Session) :
    Except Error Overview × Session :=
  match Plan.ofValue plan with
  | .error e => (.error e, s)
  | .ok p =>
    let (r, s) := settingsOr given s
    (r.map fun x => t.overview x p, s)

/-- All plans, lowest entitlement first. -/
def Tables.overviews (t : Tables) (given : Option Settings) (s : Session) :
    Except Error (List Overview) × Session :=
  let (r, s) := settingsOr given s
  (r.map fun x => Plan.all.map (t.overview x), s)

/-- Going from one plan to another. Both plans are resolved before settings are needed. -/
def Tables.contrastOf (t : Tables) (first second : Value) (given : Option Settings)
    (s : Session) : Except Error Contrast × Session :=
  match Plan.ofValue first, Plan.ofValue second with
  | .error e, _ => (.error e, s)
  | .ok _, .error e => (.error e, s)
  | .ok p, .ok q =>
    let (r, s) := settingsOr given s
    (r.map fun x => t.contrast x p q, s)

end Entitlement
