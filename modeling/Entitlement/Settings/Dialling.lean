import Entitlement.Overview

/-!
Sessions call by call.

Prices are asked for one plan after the other, each time without settings of their own, and a
tracker dials its store once the settings for it are there.
-/

namespace Entitlement.Settings

/-- The prices of some plans, one after the other. The first error ends it. -/
def Session.eachPrice (s : Session) : List Plan → Except Error (List Binary64) × Session
  | [] => (.ok [], s)
  | p :: ps =>
    match monthlyPrice (.plan p) none s with
    | (.error e, s) => (.error e, s)
    | (.ok x, s) =>
      let (r, s) := s.eachPrice ps
      (r.map (x :: ·), s)

/-- A client of stores: what comes of dialling an address. -/
abbrev Client := String → Except Error Unit

/-- A session and the addresses that were dialled in it. -/
structure Dialling where
  session : Session
  dialled : List String

namespace Dialling

variable (client : Client)

/-- A tracker on settings made from the given keywords, or on the kept ones if none are given. -/
def connect (d : Dialling) (keywords : Option (List (String × Value))) :
    Except Error Connection × Dialling :=
  match d.session.makeOrGet keywords with
  | (.error e, s) => (.error e, { d with session := s })
  | (.ok x, s) =>
    ((client x.storeUrl).map fun _ => Settings.connect x, ⟨s, d.dialled ++ [x.storeUrl]⟩)

def step (d : Dialling) : Step → Except Error Answer × Dialling
  | .prices =>
    let (r, s) := d.session.eachPrice Plan.all
    (r.map .prices, { d with session := s })
  | .connect keywords =>
    let (r, d) := d.connect client keywords
    (r.map .connection, d)
  | x =>
    let (r, s) := d.session.step x
    (r, { d with session := s })

def run (d : Dialling) : List Step → List (Except Error Answer) × Dialling
  | [] => ([], d)
  | x :: xs =>
    let (r, d) := d.step client x
    let (rs, d) := d.run xs
    (r :: rs, d)

@[simp] theorem run_nil (d : Dialling) : d.run client [] = ([], d) := rfl
@[simp] theorem run_cons (d : Dialling) (x : Step) (xs : List Step) :
    d.run client (x :: xs) = ((d.step client x).1 :: ((d.step client x).2.run client xs).1,
      ((d.step client x).2.run client xs).2) := rfl

end Dialling

end Entitlement.Settings
