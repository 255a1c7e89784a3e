import DocStore.Value.Order

/-!
# Containment

`contains` says whether one value is found inside another, and `overlaps` whether two values have
something in common.  Scalars are compared by loose equality.
-/

namespace DocStore.Value

mutual

/-- An array contains what one of its items contains, and an array of such; an object contains the
objects whose members it contains under the same names; anything else contains its equals. -/
def contains : Value → Value → Bool
  | .arr items, .arr wanted => wanted.all fun w => anyContains items w
  | .arr items, wanted => anyContains items wanted
  | .obj members, .obj wanted => wanted.all fun w => memberContains members w.1 w.2
  | a, b => a.looselyEquals b

def anyContains : List Value → Value → Bool
  | [], _ => false
  | item :: rest, wanted => contains item wanted || anyContains rest wanted

def memberContains : List (String × Value) → String → Value → Bool
  | [], _, _ => false
  | (name, value) :: rest, key, wanted =>
    if name = key then contains value wanted else memberContains rest key wanted

end

/-- The items of an array; any other value is its own only item. -/
def elements : Value → List Value
  | .arr items => items
  | other => [other]

/-- Whether two values share an element or, both being objects, a member. -/
def overlaps : Value → Value → Bool
  | .obj a, .obj b =>
    a.any fun m =>
      match Assoc.get? b m.1 with
      | some other => other.looselyEquals m.2
      | none => false
  | l, r => l.elements.any fun x => r.elements.any fun y => x.looselyEquals y

end DocStore.Value
