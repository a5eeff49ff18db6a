import ModuleAtlas.Number.Double
import ModuleAtlas.Table
/-!
JSON values. Numbers written without point and exponent are integers of any size, all others
are doubles. The members of an object keep their order.
-/
namespace ModuleAtlas

/-- A JSON value. -/
inductive Json
  | null
  | bool (b : Bool)
  | int (n : Int)
  | double (d : Double)
  | string (t : Text)
  | array (elements : List Json)
  | object (members : List (Text × Json))

namespace Json

instance : Inhabited Json := ⟨null⟩

/-- The member of an object under a key. -/
def member? (members : List (Text × Json)) (key : Text) : Option Json :=
  (members.find? fun entry => entry.1 == key).map Prod.snd

mutual

/-- The two values are the same data: numbers by value, objects without regard to the order of
their members. What is not a number is the same as itself. -/
def same : Json → Json → Bool
  | null, other => match other with | null => true | _ => false
  | bool a, other => sameInteger (if a then 1 else 0) other
  | int a, other => sameInteger a other
  | double a, other =>
    match other with
    | bool b => a.isInt (if b then 1 else 0)
    | int b => a.isInt b
    | double b => a.same b
    | _ => false
  | string a, other => match other with | string b => a == b | _ => false
  | array as, other => match other with | array bs => sameElements as bs | _ => false
  | object as, other =>
    match other with
    | object bs => as.length == bs.length && sameMembers as bs
    | _ => false
termination_by structural value => value

/-- The two lists are the same data. -/
def sameElements : List Json → List Json → Bool
  | [], bs => bs.isEmpty
  | a :: as, bs => match bs with | b :: bs => same a b && sameElements as bs | [] => false
termination_by structural values => values

/-- Every member has a partner with the same key and the same data. -/
def sameMembers : List (Text × Json) → List (Text × Json) → Bool
  | [], _ => true
  | (key, a) :: as, bs =>
    (match member? bs key with | some b => same a b | none => false) && sameMembers as bs
termination_by structural members => members

/-- The value is a number equal to an integer. -/
def sameInteger (a : Int) : Json → Bool
  | bool b => a == (if b then 1 else 0)
  | int b => a == b
  | double b => b.isInt a
  | _ => false

end

end Json
end ModuleAtlas
