import CurlSnippet.Json.Basic

/-!
What is wrong with the parts of a value that should be a request. A check collects the issues of
all its parts in their order and does not stop at the first.
-/

namespace CurlSnippet

/-- Why a part is refused. -/
inductive Fault where
  | notRecord (name : String)
  | missing
  | notText
  | brokenText
  | notMap
  | emptyUrl
  | emptyMethod
  | unclearBool
  | notBool
  deriving DecidableEq, Repr

namespace Fault

/-- The short name of a fault. -/
def code : Fault → String
  | notRecord _ => "model_type"
  | missing => "missing"
  | notText => "string_type"
  | brokenText => "string_unicode"
  | notMap => "dict_type"
  | emptyUrl => "value_error"
  | emptyMethod => "value_error"
  | unclearBool => "bool_parsing"
  | notBool => "bool_type"

def message : Fault → String
  | notRecord name => "Input should be a valid dictionary or instance of " ++ name
  | missing => "Field required"
  | notText => "Input should be a valid string"
  | brokenText =>
    "Input should be a valid string, unable to parse raw data as a unicode string"
  | notMap => "Input should be a valid dictionary"
  | emptyUrl => "Value error, url must be a non-empty string"
  | emptyMethod => "Value error, method must be a non-empty string"
  | unclearBool => "Input should be a valid boolean, unable to interpret input"
  | notBool => "Input should be a valid boolean"

end Fault

/-- A fault and the way to it from the whole value. -/
structure Issue where
  path : List Text
  fault : Fault
  deriving DecidableEq, Repr

abbrev Check (α : Type) := Except (List Issue) α

namespace Check

variable {α β γ : Type}

def fail (fault : Fault) : Check α := .error [⟨[], fault⟩]

/-- The check of a part, found under a key. -/
def under (key : Text) : Check α → Check α
  | .ok a => .ok a
  | .error issues => .error (issues.map fun i => ⟨key :: i.path, i.fault⟩)

/-- Both results, or the issues of both. -/
def both : Check α → Check β → Check (α × β)
  | .ok a, .ok b => .ok (a, b)
  | .ok _, .error f => .error f
  | .error e, .ok _ => .error e
  | .error e, .error f => .error (e ++ f)

/-- All results, or the issues of all. -/
def all : List (Check α) → Check (List α)
  | [] => .ok []
  | c :: rest => match both c (all rest) with
    | .ok (a, as) => .ok (a :: as)
    | .error e => .error e

end Check

end CurlSnippet
