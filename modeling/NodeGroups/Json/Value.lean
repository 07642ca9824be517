import NodeGroups.Json.Number

/-!
# JSON values

An object is a list of members; where a name is repeated the first member counts. Integers
are kept apart from binary numbers, because a count must be written as an integer to be
accepted.
-/
namespace NodeGroups

inductive Json where
  | null
  | bool (value : Bool)
  | int (value : Int)
  | binary (value : Binary64)
  | text (value : String)
  | array (items : List Json)
  | object (members : List (String × Json))
deriving Repr, BEq, Inhabited

namespace Json

def member? (name : String) : Json → Option Json
  | object members => members.lookup name
  | _ => none

/-- The members with `name` set to `value`, in place if it is there and else at the end. -/
def setMember (name : String) (value : Json) : List (String × Json) → List (String × Json)
  | [] => [(name, value)]
  | (key, old) :: rest =>
    if key = name then (key, value) :: rest else (key, old) :: setMember name value rest

def eraseMember (name : String) (members : List (String × Json)) : List (String × Json) :=
  members.filter fun entry => entry.1 != name

mutual

/-- The same value with the members of every object in the order of their names. -/
def sorted : Json → Json
  | null => null
  | bool b => bool b
  | int n => int n
  | binary x => binary x
  | text s => text s
  | array items => array (sortedItems items)
  | object members =>
    object ((sortedMembers members).mergeSort fun a b => decide (a.1 ≤ b.1))

def sortedItems : List Json → List Json
  | [] => []
  | item :: rest => sorted item :: sortedItems rest

def sortedMembers : List (String × Json) → List (String × Json)
  | [] => []
  | (name, value) :: rest => (name, sorted value) :: sortedMembers rest

end

/-- The value at the end of a path of member names. -/
def at? (j : Json) : List String → Option Json
  | [] => some j
  | name :: path => (j.member? name).bind fun value => value.at? path

theorem lookup_cons_eq_ite (key name : String) (value : Json) (rest : List (String × Json)) :
    ((name, value) :: rest).lookup key = if key = name then some value else rest.lookup key := by
  by_cases h : key = name
  · simp [h]
  · simp [List.lookup_cons, beq_false_of_ne h, h]

theorem lookup_setMember (name key : String) (value : Json) (members : List (String × Json)) :
    (setMember name value members).lookup key =
      if key = name then some value else members.lookup key := by
  induction members with
  | nil => simp [setMember, lookup_cons_eq_ite]
  | cons entry rest ih =>
    obtain ⟨head, old⟩ := entry
    rw [setMember]
    split
    · next h =>
      subst h
      rw [lookup_cons_eq_ite, lookup_cons_eq_ite]
      split <;> rfl
    · next h =>
      rw [lookup_cons_eq_ite, lookup_cons_eq_ite, ih]
      by_cases hk : key = head
      · subst hk
        simp [h]
      · simp [hk]

end Json
end NodeGroups
