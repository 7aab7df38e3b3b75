import Entitlement.Settings

/-!
Settings over time: an environment that changes and settings that are loaded from it once.

The first successful load is kept until it is forgotten. A failed load is not kept.
-/

namespace Entitlement.Settings

structure Session where
  environment : List (String × String)
  file : Option String
  /-- The settings that were loaded first, if they are kept. -/
  kept : Option Settings

namespace Session

def start : Session := ⟨[], none, none⟩

def sources (s : Session) (keywords : List (String × Value)) : Sources :=
  ⟨keywords, s.environment, s.file⟩

def setVariable (s : Session) (name value : String) : Session :=
  { s with environment := Assoc.put s.environment name value }

def unsetVariable (s : Session) (name : String) : Session :=
  { s with environment := Assoc.erase s.environment name }

def forget (s : Session) : Session := { s with kept := none }

/-- Settings made anew; what is kept plays no part. -/
def make (s : Session) (keywords : List (String × Value)) : Except Error Settings :=
  load (s.sources keywords)

/-- The kept settings, loaded first if there are none. -/
def get (s : Session) : Except Error Settings × Session :=
  match s.kept with
  | some kept => (.ok kept, s)
  | none =>
    match s.make [] with
    | .ok loaded => (.ok loaded, { s with kept := some loaded })
    | .error e => (.error e, s)

/-- Settings made from the given keywords, or the kept ones if none are given. -/
def makeOrGet (s : Session) : Option (List (String × Value)) → Except Error Settings × Session
  | some keywords => (s.make keywords, s)
  | none => s.get

end Session

/-- A tracker's connection: the address of its store and its retention. -/
structure Connection where
  url : String
  ttlDays : Int
  deriving DecidableEq, Repr

def connect (s : Settings) : Connection := ⟨s.storeUrl, s.ttlDays⟩

inductive Step where
  | set (name value : String)
  | unset (name : String)
  | get
  | forget
  | make (keywords : List (String × Value))
  | prices
  | connect (keywords : Option (List (String × Value)))

inductive Answer where
  | done
  | settings (s : Settings)
  | prices (xs : List Binary64)
  | connection (c : Connection)

def Session.step (s : Session) : Step → Except Error Answer × Session
  | .set name value => (.ok .done, s.setVariable name value)
  | .unset name => (.ok .done, s.unsetVariable name)
  | .get =>
    let (r, s) := s.get
    (r.map .settings, s)
  | .forget => (.ok .done, s.forget)
  | .make keywords => ((s.make keywords).map .settings, s)
  | .prices =>
    let (r, s) := s.get
    (r.map fun x => .prices (Plan.all.map x.price), s)
  | .connect keywords =>
    let (r, s) := s.makeOrGet keywords
    (r.map fun x => .connection (Settings.connect x), s)

def Session.run (s : Session) : List Step → List (Except Error Answer) × Session
  | [] => ([], s)
  | x :: xs =>
    let (r, s) := s.step x
    let (rs, s) := s.run xs
    (r :: rs, s)

end Entitlement.Settings
