import ModuleAtlas.Json.Basic
import ModuleAtlas.Number.Shortest
import ModuleAtlas.Text.Encoding
/-!
JSON values in messages and drawings: texts as they are, but quoted inside of collections. And
what a value counts as: as a key, as a truth value, and in an order.
-/
namespace ModuleAtlas.Json

mutual

/-- A value with texts in quotes. -/
def quoted : Json → Text
  | null => "None"
  | bool b => if b then "True" else "False"
  | int n => Text.ofInt n
  | double d => d.text "nan" "inf"
  | string t => Text.quoted t
  | array xs => .scalar '[' :: quotedElements xs ++ [.scalar ']']
  | object ms => .scalar '\x7b' :: quotedMembers ms ++ [.scalar '\x7d']
termination_by structural value => value

/-- Elements with commas between them. -/
def quotedElements : List Json → Text
  | [] => []
  | x :: xs =>
    match xs with
    | [] => quoted x
    | _ :: _ => quoted x ++ ", " ++ quotedElements xs
termination_by structural elements => elements

/-- Members with commas between them. -/
def quotedMembers : List (Text × Json) → Text
  | [] => []
  | (key, x) :: ms =>
    match ms with
    | [] => Text.quoted key ++ ": " ++ quoted x
    | _ :: _ => Text.quoted key ++ ": " ++ quoted x ++ ", " ++ quotedMembers ms
termination_by structural members => members

end

/-- A value as it is shown. -/
def shown : Json → Text
  | string t => t
  | value => quoted value

/-- The value can be a key of a registry: it is no collection. -/
def isScalar : Json → Bool
  | array _ | object _ => false
  | _ => true

/-- The text of a scalar as a key of a document. -/
def keyText : Json → Text
  | null => "null"
  | bool b => if b then "true" else "false"
  | int n => Text.ofInt n
  | double d => d.text "NaN" "Infinity"
  | string t => t
  | array _ | object _ => []

/-- The value counts as true: it is neither null, false, zero nor empty. -/
def isTruthy : Json → Bool
  | null => false
  | bool b => b
  | int n => n != 0
  | double d => d.isNonzero
  | string t => !t.isEmpty
  | array xs => !xs.isEmpty
  | object ms => !ms.isEmpty

/-- The exact value of a finite number: a mantissa and an exponent of two. -/
def ratio? : Json → Option (Int × Int)
  | bool b => some (if b then 1 else 0, 0)
  | int n => some (n, 0)
  | double (.finite negative mantissa exponent) => some (Double.signed negative mantissa, exponent)
  | _ => none

/-- The first number is not greater. -/
def ratioLe (a b : Int × Int) : Bool :=
  let low := min a.2 b.2
  a.1 * Double.twoTo (a.2 - low).toNat ≤ b.1 * Double.twoTo (b.2 - low).toNat

/-- The order of texts and of numbers; values of other kinds stay as they come. -/
def le : Json → Json → Bool
  | string a, string b => Text.le a b
  | a, b =>
    match ratio? a, ratio? b with
    | some x, some y => ratioLe x y
    | _, _ => true

/-- The values have an order: they are all texts or all numbers, or there are not two. -/
def areOrdered (values : List Json) : Bool :=
  values.length ≤ 1 || values.all (fun value => match value with | string _ => true | _ => false)
    || values.all fun value => (ratio? value).isSome

end ModuleAtlas.Json
