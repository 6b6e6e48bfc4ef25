/-!
# JSON documents

Members keep the order they were first named in. Integers of 64 bits, with or without a sign, stay
apart from the other numbers, which are doubles.
-/

namespace RadioGateway.Json

inductive Value where
  | null
  | bool (b : Bool)
  | integer (i : Int)
  | real (x : Float)
  | string (s : String)
  | array (items : List Value)
  | object (members : List (String × Value))
  deriving Inhabited

/-- A member named again takes its new value at its first place. -/
def setMember (name : String) (value : Value) : List (String × Value) → List (String × Value)
  | [] => [(name, value)]
  | (other, old) :: rest =>
    if other = name then (name, value) :: rest else (other, old) :: setMember name value rest

theorem setMember_of_not_mem {name : String} {value : Value} {members : List (String × Value)}
    (h : name ∉ members.map Prod.fst) :
    setMember name value members = members ++ [(name, value)] := by
  induction members with
  | nil => rfl
  | cons m rest ih =>
    obtain ⟨other, old⟩ := m
    simp only [List.map_cons, List.mem_cons, not_or] at h
    simp [setMember, Ne.symm h.1, ih h.2]

def Value.member? (name : String) : Value → Option Value
  | .object members => members.lookup name
  | _ => none

end RadioGateway.Json
