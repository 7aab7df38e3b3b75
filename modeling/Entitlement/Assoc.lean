/-!
Lists of pairs, looked up by their first component.

A key is held once, at the place of its first insertion; later insertions replace the value
and leave the place.
-/

namespace Entitlement.Assoc

variable {κ α : Type} [BEq κ]

def find? : List (κ × α) → κ → Option α
  | [], _ => none
  | (k', v) :: l, k => if k' == k then some v else find? l k

def put : List (κ × α) → κ → α → List (κ × α)
  | [], k, v => [(k, v)]
  | (k', w) :: l, k, v => if k' == k then (k', v) :: l else (k', w) :: put l k v

def erase (l : List (κ × α)) (k : κ) : List (κ × α) := l.filter fun e => !(e.1 == k)

def putAll (l new : List (κ × α)) : List (κ × α) := new.foldl (fun l e => put l e.1 e.2) l

/-- Sets a key to a value, or removes it. -/
def restore (l : List (κ × α)) (k : κ) : Option α → List (κ × α)
  | some v => put l k v
  | none => erase l k

@[simp] theorem find?_nil (k : κ) : find? ([] : List (κ × α)) k = none := rfl
@[simp] theorem putAll_nil (l : List (κ × α)) : putAll l [] = l := rfl
@[simp] theorem putAll_cons (l : List (κ × α)) (e : κ × α) (es : List (κ × α)) :
    putAll l (e :: es) = putAll (put l e.1 e.2) es := rfl

variable [LawfulBEq κ]

theorem find?_put (l : List (κ × α)) (k k' : κ) (v : α) :
    find? (put l k v) k' = if k == k' then some v else find? l k' := by
  induction l with
  | nil => simp [put, find?]
  | cons e l ih =>
    obtain ⟨a, w⟩ := e
    by_cases h : a = k
    · subst h
      by_cases h' : a = k' <;> simp [put, find?, h']
    · by_cases h' : k = k'
      · subst h'
        simpa [put, find?, h] using ih
      · by_cases h'' : a = k' <;> simp_all [put, find?]

end Entitlement.Assoc
