/-!
Sets of texts, made from lists once and asked for membership after that.
-/

namespace Entitlement

structure TextSet where
  elements : List String
  nodup : elements.Nodup

namespace TextSet

def empty : TextSet := ⟨[], List.nodup_nil⟩

def contains (ts : TextSet) (s : String) : Bool := ts.elements.contains s

def insert (ts : TextSet) (s : String) : TextSet :=
  if h : s ∈ ts.elements then ts else ⟨s :: ts.elements, List.nodup_cons.2 ⟨h, ts.nodup⟩⟩

def ofList (ss : List String) : TextSet := ss.foldr (fun s ts => ts.insert s) empty

@[simp] theorem contains_insert (ts : TextSet) (s s' : String) :
    (ts.insert s).contains s' = (s' == s || ts.contains s') := by
  unfold insert contains
  split
  next h => by_cases hs : s' = s <;> simp_all
  next => rw [List.contains_cons]

@[simp] theorem contains_ofList (ss : List String) (s : String) :
    (ofList ss).contains s = ss.contains s := by
  induction ss with
  | nil => rfl
  | cons s' ss ih =>
    show ((ofList ss).insert s').contains s = _
    rw [contains_insert, ih, List.contains_cons]

end TextSet

end Entitlement
